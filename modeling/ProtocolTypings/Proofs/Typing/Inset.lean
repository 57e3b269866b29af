import Mathlib.Data.List.Basic
import ProtocolTypings.Proofs.Typing.Form
import ProtocolTypings.Proofs.Typing.MadeOf
import ProtocolTypings.Typing.Depth

/-!
# Type expressions further inside

Every line that a type expression begins starts with the indents of its depth, and the names in it hold no line feed. So
an expression that is written `k` depths further inside is the same one with `k` more indents after each line feed.
-/

namespace ProtocolTypings

/-! ## Insets -/

/-- The characters with an inset after every line feed. -/
def insetChars (margin : List Char) (cs : List Char) : List Char :=
  cs.flatMap fun c => if c = '\n' then c :: margin else [c]

/-- The text with an inset after every line feed. -/
def inset (margin text : String) : String :=
  String.ofList (insetChars margin.toList text.toList)

section

variable {margin : List Char}

theorem insetChars_append (cs ds : List Char) :
    insetChars margin (cs ++ ds) = insetChars margin cs ++ insetChars margin ds :=
  List.flatMap_append

theorem insetChars_of_notMem {cs : List Char} (h : '\n' ∉ cs) : insetChars margin cs = cs := by
  induction cs with
  | nil => rfl
  | cons c rest ih =>
      rw [List.mem_cons, not_or] at h
      rw [insetChars, List.flatMap_cons, if_neg (Ne.symm h.1)]
      exact congrArg (c :: ·) (ih h.2)

end

/-- What comes before the first line feed has no inset. -/
theorem inset_append {margin s : String} (h : '\n' ∉ s.toList) (t : String) :
    inset margin (s ++ t) = s ++ inset margin t := by
  rw [inset, String.toList_append, insetChars_append, insetChars_of_notMem h, String.ofList_append,
    String.ofList_toList, inset]

/-! ## Texts without a line feed -/

/-- A text without a line feed. Other boundaries of lines may be in it. -/
def Unbroken (s : String) : Prop :=
  '\n' ∉ s.toList

instance (s : String) : Decidable (Unbroken s) :=
  inferInstanceAs (Decidable (¬ _))

theorem nameKind_unbroken : NameKind Unbroken fun _ => True where
  append := by
    intro s t hs ht
    rw [Unbroken, String.toList_append, List.mem_append, not_or]
    exact ⟨hs, ht⟩
  capitalize := by
    intro s h hmem
    have hfeed : ∀ c : Char, (c == '\n') = true → c.toNat ∈ Text.layoutCodes := by
      intro c hc
      rw [beq_iff_eq.1 hc]
      decide
    have hnone : ∀ c ∈ s.toList, (c == '\n') = false := fun c hc => beq_eq_false_iff_ne.2 fun heq => h (heq ▸ hc)
    have := Text.capitalize_without hfeed hnone '\n' hmem
    cases this
  fixed := by decide
  member := fun _ => trivial
  entry := ⟨trivial, trivial⟩

theorem Unbroken.margin {indent : String} (h : Unbroken indent) (k : Nat) : Unbroken (margin indent k) :=
  fun hmem => h (mem_of_mem_margin hmem)

theorem Unbroken.label {name : String} (h : Unbroken name) (optional : Bool) : '\n' ∉ labelChars name optional := by
  have hname : '\n' ∉ (Name.property name).toList := nameKind_unbroken.property h
  cases optional <;> simp [labelChars, hname]

/-! ## Expressions -/

section

variable {indent : String} (hindent : Unbroken indent) (k : Nat)

theorem marginChars_add {depth : Int} (hdepth : 0 ≤ depth) :
    marginChars indent (depth + k) = (margin indent k).toList ++ marginChars indent depth := by
  have hnat : (depth + k).toNat = k + depth.toNat := by omega
  rw [marginChars, hnat, margin_add, String.toList_append, marginChars]

include hindent

theorem notMem_marginChars (depth : Int) : '\n' ∉ marginChars indent depth :=
  hindent.margin depth.toNat

mutual
theorem Shape.chars_deeper {depth : Int} (hdepth : 0 ≤ depth) :
    (s : Shape) → (∀ t ∈ s.strings, Unbroken t) →
    s.form.chars indent (depth + k) = insetChars (margin indent k).toList (s.form.chars indent depth)
  | .ref _ target, h => (insetChars_of_notMem (h target List.mem_cons_self)).symm
  | .array _ items, h => by
      have hbrackets : '\n' ∉ ['[', ']'] := by decide
      rw [Shape.form, TypeForm.chars, TypeForm.chars, insetChars_append, insetChars_of_notMem hbrackets,
        Shape.chars_deeper hdepth items h]
  | .bareArray _, _ => rfl
  | .object _ properties, h => by
      have hclosing : '\n' ∉ marginChars indent depth ++ ['\x7d'] := by
        simpa using notMem_marginChars hindent depth
      have hinner : 0 ≤ depth + 1 := by omega
      have hmembers := memberChars_deeper hinner properties h
      have hcomm : depth + k + 1 = depth + 1 + k := by omega
      -- The inset behind the opening brace and those behind the members come before the next line each.
      calc (Shape.object _ properties).form.chars indent (depth + k)
          = ['\x7b', '\n'] ++ (memberChars indent (depth + 1 + k) (memberForms properties) ++
              (margin indent k).toList) ++ (marginChars indent depth ++ ['\x7d']) := by
            rw [Shape.form, TypeForm.chars, hcomm, marginChars_add k hdepth]
            simp only [List.append_assoc]
        _ = ['\x7b', '\n'] ++ (margin indent k).toList ++
              insetChars (margin indent k).toList (memberChars indent (depth + 1) (memberForms properties)) ++
              (marginChars indent depth ++ ['\x7d']) := by
            rw [hmembers]
            simp only [List.append_assoc]
        _ = insetChars (margin indent k).toList ((Shape.object _ properties).form.chars indent depth) := by
            rw [Shape.form, TypeForm.chars, insetChars_append, insetChars_append, insetChars_of_notMem hclosing]
            simp [insetChars]
  | .openObject _, _ => rfl
  | .primitive _ kind none, h => by
      have hkind : '\n' ∉ kind.toList := h kind List.mem_cons_self
      simp only [Shape.form, TypeForm.chars, insetChars_of_notMem hkind]
  | .primitive _ kind (some values), h => by
      have hkind : '\n' ∉ kind.toList := h kind List.mem_cons_self
      have hunion : '\n' ∉ (unionText values).toList :=
        nameKind_unbroken.unionText fun v hv => h v (List.mem_cons_of_mem _ hv)
      by_cases hstring : kind = "string"
      · subst hstring
        rw [Shape.form, TypeForm.chars, TypeForm.chars, insetChars_of_notMem hunion]
      · simp [Shape.form, TypeForm.chars, hstring, insetChars_of_notMem hkind]
  | .unknown _, _ => rfl

theorem memberChars_deeper {depth : Int} (hdepth : 0 ≤ depth) :
    (ps : List Property) → (∀ t ∈ stringsOfAll ps, Unbroken t) →
    memberChars indent (depth + k) (memberForms ps) ++ (margin indent k).toList =
      (margin indent k).toList ++ insetChars (margin indent k).toList (memberChars indent depth (memberForms ps))
  | [], _ => by simp [memberForms, memberChars, insetChars]
  | ⟨name, shape, optional, _, _⟩ :: ps, h => by
      obtain ⟨hname, hshape⟩ := List.forall_mem_cons.1 fun t ht => h t (List.mem_append_left _ ht)
      have hlabel := Unbroken.label hname optional
      have hchars := Shape.chars_deeper hdepth shape hshape
      have hothers := memberChars_deeper hdepth ps fun t ht => h t (List.mem_append_right _ ht)
      have hmargin := notMem_marginChars hindent depth
      have hend : insetChars (margin indent k).toList [';', '\n'] = [';', '\n'] ++ (margin indent k).toList := by
        simp [insetChars]
      rw [memberForms, Property.form, memberChars, memberChars, marginChars_add k hdepth, hchars]
      simp only [List.append_assoc, hothers, insetChars_append, insetChars_of_notMem hmargin,
        insetChars_of_notMem hlabel, hend]
end

end

/-! ## Depths that are asked for -/

mutual
/-- The depths of the lines are not above the first one, and move with it. -/
theorem Shape.depths_deeper {depth n : Int} (k : Nat) : (s : Shape) → n ∈ s.depths depth →
    depth ≤ n ∧ n + k ∈ s.depths (depth + k)
  | .array _ items, h => Shape.depths_deeper k items h
  | .object _ properties, h => by
      have hcomm : depth + k + 1 = depth + 1 + k := by omega
      rw [Shape.depths, List.mem_cons, List.mem_append, List.mem_singleton] at h
      rw [Shape.depths, List.mem_cons, List.mem_append, List.mem_singleton, hcomm]
      rcases h with rfl | h | rfl
      · exact ⟨by omega, .inl rfl⟩
      · obtain ⟨hle, hmem⟩ := memberDepths_deeper k properties h
        exact ⟨by omega, .inr (.inl hmem)⟩
      · exact ⟨Int.le_refl n, .inr (.inr rfl)⟩
  | .ref _ _, h => by cases h
  | .bareArray _, h => by cases h
  | .openObject _, h => by cases h
  | .primitive _ _ _, h => by cases h
  | .unknown _, h => by cases h

theorem memberDepths_deeper {depth n : Int} (k : Nat) : (ps : List Property) → n ∈ memberDepths depth ps →
    depth ≤ n ∧ n + k ∈ memberDepths (depth + k) ps
  | [], h => by cases h
  | p :: ps, h => by
      rw [memberDepths, List.mem_append] at h ⊢
      rcases h with h | h
      · exact (Property.depths_deeper k p h).imp_right .inl
      · exact (memberDepths_deeper k ps h).imp_right .inr

theorem Property.depths_deeper {depth n : Int} (k : Nat) : (p : Property) → n ∈ p.depths depth →
    depth ≤ n ∧ n + k ∈ p.depths (depth + k)
  | ⟨_, shape, _, _, _⟩, h => Shape.depths_deeper k shape h
end

theorem repetitionFault?_eq_none {memory : Nat} {indent : String} {n : Int} :
    repetitionFault? memory (.str indent) n = none ↔
      (-maxCopies - 1 ≤ n ∧ n ≤ maxCopies) ∧ indent.length * n ≤ maxCopies ∧ indent.length * n ≤ memory := by
  simp only [repetitionFault?, Bool.or_eq_true, decide_eq_true_eq]
  split
  · simp only [reduceCtorEq, false_iff]
    omega
  · split
    · simp only [reduceCtorEq, false_iff]
      omega
    · simp only [true_iff]
      omega

/-- An indentation that can be held further inside can be held here. -/
theorem repetitionFault?_of_add {memory : Nat} {indent : String} {n : Int} (hn : 0 ≤ n) {k : Nat}
    (h : repetitionFault? memory (.str indent) (n + k) = none) : repetitionFault? memory (.str indent) n = none := by
  have hgrow : (indent.length : Int) * n ≤ indent.length * (n + k) :=
    Int.mul_le_mul_of_nonneg_left (by omega) (by omega)
  rw [repetitionFault?_eq_none] at h ⊢
  omega

/-! ## All depths -/

/-- A text is written at depth `d`, and `k` depths further inside the same one with `k` more indents after each line
feed. -/
def Deepens (indent : String) (d k : Nat) (write : Int → Except Fault String) : Prop :=
  ∃ text, write d = .ok text ∧ write (d + k) = .ok (inset (margin indent k) text)

section

variable {indent : String} (hindent : Unbroken indent) (d k : Nat)
include hindent

theorem Shape.deepens_typeText {s : Shape} (hs : ∀ t ∈ s.strings, Unbroken t) :
    Deepens indent d k fun n => s.typeText (.str indent) n := by
  refine ⟨_, s.typeText_eq indent d, ?_⟩
  show s.typeText (.str indent) (d + k) = _
  rw [s.typeText_eq indent, s.chars_deeper hindent k (Int.natCast_nonneg d) hs, inset, String.toList_ofList]

theorem Property.deepens_typeText {p : Property} (hp : ∀ t ∈ p.strings, Unbroken t) :
    Deepens indent d k fun n => p.typeText (.str indent) n := by
  obtain ⟨name, shape, optional, description, marks⟩ := p
  obtain ⟨hname, hshape⟩ := List.forall_mem_cons.1 hp
  obtain ⟨text, hhere, hinside⟩ := shape.deepens_typeText hindent d k hshape
  refine ⟨String.ofList (labelChars name optional) ++ text, ?_, ?_⟩
  · simp only [Property.typeText, hhere, labelChars_eq]
    rfl
  · simp only [Property.typeText, hinside, labelChars_eq]
    rw [inset_append (String.toList_ofList ▸ hname.label optional)]
    rfl

omit hindent in
/-- What is written like a text that deepens, unless an indentation cannot be held, deepens where those at the inner
depths can be. -/
theorem Deepens.of_fits {memory : Nat} {write : Int → Except Fault String} (h : Deepens indent d k write)
    (writeAt : Int → Except Fault String) (depths : Int → List Int)
    (hmoved : ∀ n ∈ depths d, (d : Int) ≤ n ∧ n + k ∈ depths (d + k))
    (hwrite : ∀ depth, (∀ n ∈ depths depth, repetitionFault? memory (.str indent) n = none) →
      writeAt depth = write depth)
    (hfits : ∀ n ∈ depths (d + k), repetitionFault? memory (.str indent) n = none) : Deepens indent d k writeAt := by
  have hfitsHere : ∀ n ∈ depths d, repetitionFault? memory (.str indent) n = none := by
    intro n hn
    obtain ⟨hle, hmem⟩ := hmoved n hn
    exact repetitionFault?_of_add (Int.le_trans (Int.natCast_nonneg d) hle) (hfits _ hmem)
  obtain ⟨text, hhere, hinside⟩ := h
  exact ⟨text, (hwrite _ hfitsHere).trans hhere, (hwrite _ hfits).trans hinside⟩

/-- A type expression, and a property with its type, is written at every depth. With `k` more depths it has `k` more
indents after each line feed and is the same otherwise, if neither its names nor the indent have a line feed. The same
holds of depths that are asked for, as far as the indentation at the deeper ones can be held. -/
theorem typeText_deeper (memory : Nat) :
    (∀ s : Shape, (∀ t ∈ s.strings, Unbroken t) →
      Deepens indent d k (fun n => s.typeText (.str indent) n) ∧
      ((∀ n ∈ s.depths (d + k), repetitionFault? memory (.str indent) n = none) →
        Deepens indent d k fun n => s.typeTextAt memory (.str indent) n)) ∧
    ∀ p : Property, (∀ t ∈ p.strings, Unbroken t) →
      Deepens indent d k (fun n => p.typeText (.str indent) n) ∧
      ((∀ n ∈ p.depths (d + k), repetitionFault? memory (.str indent) n = none) →
        Deepens indent d k fun n => p.typeTextAt memory (.str indent) n) := by
  refine ⟨fun s hs => ?_, fun p hp => ?_⟩
  · have hdeepens := s.deepens_typeText hindent d k hs
    refine ⟨hdeepens, hdeepens.of_fits d k _ (fun n => s.depths n) (fun n hn => s.depths_deeper k hn) fun depth h => ?_⟩
    simp only [Shape.typeTextAt, List.findSome?_eq_none_iff.2 h]
  · have hdeepens := p.deepens_typeText hindent d k hp
    refine ⟨hdeepens, hdeepens.of_fits d k _ (fun n => p.depths n) (fun n hn => p.depths_deeper k hn) fun depth h => ?_⟩
    simp only [Property.typeTextAt, List.findSome?_eq_none_iff.2 h]

end

/-- An object with a list of objects and a property that is one of two words. -/
def treeShape : Shape :=
  .object default [
    ⟨"nodes", .array default (.object default [⟨"id", .ref default "NodeId", false, .null, default⟩]), true, .null,
      default⟩,
    ⟨"kind", .primitive default "string" (some ["a", "b"]), false, .null, default⟩]

theorem typeText_deeper_tree :
    Unbroken "\t" ∧ (∀ t ∈ treeShape.strings, Unbroken t) ∧
      (∀ n ∈ treeShape.depths (0 + 2), repetitionFault? 4096 (.str "\t") n = none) ∧
      treeShape.typeTextAt 4096 (.str "\t") 0 =
        .ok "\x7b\n\tnodes?: \x7b\n\t\tid: NodeId;\n\t\x7d[];\n\tkind: ('a' | 'b');\n\x7d" ∧
      treeShape.typeTextAt 4096 (.str "\t") (0 + 2) =
        .ok "\x7b\n\t\t\tnodes?: \x7b\n\t\t\t\tid: NodeId;\n\t\t\t\x7d[];\n\t\t\tkind: ('a' | 'b');\n\t\t\x7d" := by
  have hindent : Unbroken "\t" := by decide
  have hstrings : ∀ t ∈ treeShape.strings, Unbroken t := by decide
  have hfits : ∀ n ∈ treeShape.depths (0 + 2), repetitionFault? 4096 (.str "\t") n = none := by decide
  have htext : treeShape.typeTextAt 4096 (.str "\t") 0 =
      .ok "\x7b\n\tnodes?: \x7b\n\t\tid: NodeId;\n\t\x7d[];\n\tkind: ('a' | 'b');\n\x7d" := by decide +kernel
  obtain ⟨text, hhere, hinside⟩ := ((typeText_deeper hindent 0 2 4096).1 treeShape hstrings).2 hfits
  obtain rfl := Except.ok.inj (htext.symm.trans hhere)
  refine ⟨hindent, hstrings, hfits, htext, hinside.trans ?_⟩
  decide +kernel

end ProtocolTypings
