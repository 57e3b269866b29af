import ProtocolTypings.Proofs.Typing.Form

/-!
# Type expressions that can be told apart

Where the names in it are words and the values of its unions have no quotes, the text of a shape says where each of its
parts ends. So it is the text of no other form.
-/

namespace ProtocolTypings

/-! ## Words -/

/-- A letter, a digit, an underscore or a point. -/
def isWordChar (c : Char) : Bool :=
  c.isAlphanum || c == '_' || c == '.'

def Word (s : String) : Prop :=
  ∀ c ∈ s.toList, isWordChar c = true

instance (s : String) : Decidable (Word s) :=
  List.decidableBAll (fun c => isWordChar c = true) s.toList

mutual
/-- The names in the shape are words, and no value that it lists has a quote in it. -/
def Shape.Clear : Shape → Prop
  | .ref _ target => Word target
  | .array _ items => items.Clear
  | .object _ properties => ClearAll properties
  | .primitive _ kind values => Word kind ∧ ∀ v ∈ values.getD [], '\'' ∉ v.toList
  | .bareArray _ | .openObject _ | .unknown _ => True

def ClearAll : List Property → Prop
  | [] => True
  | p :: ps => p.Clear ∧ ClearAll ps

def Property.Clear : Property → Prop
  | ⟨name, shape, _, _, _⟩ => Word name ∧ shape.Clear
end

mutual
def TypeForm.Clear : TypeForm → Prop
  | .name text => Word text
  | .union values => ∀ v ∈ values, '\'' ∉ v.toList
  | .array items => items.Clear
  | .object members => ClearMembers members

def ClearMembers : List (String × Bool × TypeForm) → Prop
  | [] => True
  | (name, _, form) :: rest => Word name ∧ form.Clear ∧ ClearMembers rest
end

mutual
theorem Shape.Clear.form : {s : Shape} → s.Clear → s.form.Clear
  | .ref _ _, h => by simpa [Shape.form, TypeForm.Clear, Shape.Clear] using h
  | .array _ items, h => by
      simp only [Shape.Clear] at h
      simpa [Shape.form, TypeForm.Clear] using Shape.Clear.form h
  | .bareArray _, _ => by simp [Shape.form, TypeForm.Clear]; decide
  | .object _ properties, h => by
      simp only [Shape.Clear] at h
      simpa [Shape.form, TypeForm.Clear] using ClearAll.memberForms h
  | .openObject _, _ => by simp [Shape.form, TypeForm.Clear]; decide
  | .primitive _ kind none, h => by
      simp only [Shape.Clear] at h
      simpa [Shape.form, TypeForm.Clear] using h.1
  | .primitive _ kind (some values), h => by
      simp only [Shape.Clear] at h
      by_cases hkind : kind = "string"
      · subst hkind
        simpa [Shape.form, TypeForm.Clear] using h.2
      · simpa [Shape.form, TypeForm.Clear, hkind] using h.1
  | .unknown _, _ => by simp [Shape.form, TypeForm.Clear]; decide

theorem ClearAll.memberForms : {ps : List Property} → ClearAll ps → ClearMembers (memberForms ps)
  | [], _ => by simp [ProtocolTypings.memberForms, ClearMembers]
  | ⟨_, _, _, _, _⟩ :: _, h => by
      simp only [ClearAll, Property.Clear] at h
      simpa [ProtocolTypings.memberForms, Property.form, ClearMembers] using
        ⟨h.1.1, Shape.Clear.form h.1.2, ClearAll.memberForms h.2⟩
end

/-! ## Where a part ends -/

/-- A stretch of characters of one kind ends where another kind begins. -/
theorem stretch_inj {p : Char → Bool} {s t r r' : List Char} (hs : ∀ c ∈ s, p c = true) (ht : ∀ c ∈ t, p c = true)
    (hr : ∀ c ∈ r.head?, p c = false) (hr' : ∀ c ∈ r'.head?, p c = false) (h : s ++ r = t ++ r') :
    s = t ∧ r = r' := by
  have htake {s r : List Char} (hs : ∀ c ∈ s, p c = true) (hr : ∀ c ∈ r.head?, p c = false) :
      (s ++ r).takeWhile p = s := by
    rw [List.takeWhile_append_of_pos hs]
    cases r with
    | nil => simp
    | cons c r => simp [hr c rfl]
  have hst : s = t := by rw [← htake hs hr, h, htake ht hr']
  subst hst
  exact ⟨rfl, List.append_cancel_left h⟩

/-- The text of a type ends with its line or goes on with an array mark. -/
def Closes (r : List Char) : Prop :=
  ∀ c ∈ r.head?, c = ';' ∨ c = '['

/-- The text of a type ends with its line. -/
def Ends (r : List Char) : Prop :=
  ∀ c ∈ r.head?, c = ';'

theorem Ends.closes {r : List Char} (h : Ends r) : Closes r :=
  fun c hc => .inl (h c hc)

theorem Closes.not_word {r : List Char} (h : Closes r) : ∀ c ∈ r.head?, isWordChar c = false := by
  intro c hc
  rcases h c hc with rfl | rfl <;> decide

/-- A word before such an end opens no union and no object. -/
theorem Closes.ne_opening {r : List Char} (h : Closes r) {s : String} (hs : Word s) {c : Char}
    (hc : c = '(' ∨ c = '\x7b') (rest : List Char) : s.toList ++ r ≠ c :: rest := by
  intro heq
  cases hchars : s.toList with
  | nil =>
      rw [hchars, List.nil_append] at heq
      have hend := h c (by simp [heq])
      rcases hc with rfl | rfl <;> simp at hend
  | cons d chars =>
      rw [hchars, List.cons_append] at heq
      obtain ⟨rfl, -⟩ := List.cons.inj heq
      have hword := hs d (by simp [hchars])
      rcases hc with rfl | rfl <;> exact absurd hword (by decide)

/-! ## Unions -/

theorem quoted_inj {v w : List Char} (hv : '\'' ∉ v) (hw : '\'' ∉ w) {r r' : List Char}
    (h : v ++ '\'' :: r = w ++ '\'' :: r') : v = w ∧ r = r' := by
  have hkind {v : List Char} (hv : '\'' ∉ v) : ∀ c ∈ v, (c != '\'') = true := by
    intro c hc
    simpa using fun heq : c = '\'' => hv (heq ▸ hc)
  have hquote (r : List Char) : ∀ c ∈ ('\'' :: r).head?, (c != '\'') = false := by simp
  obtain ⟨hvw, hrest⟩ := stretch_inj (hkind hv) (hkind hw) (hquote r) (hquote r') h
  exact ⟨hvw, (List.cons.inj hrest).2⟩

/-- The values of a union after its first, as far as the bracket that closes it. -/
def furtherValues : List String → List Char
  | [] => [')']
  | v :: vs => [' ', '|', ' ', '\''] ++ v.toList ++ '\'' :: furtherValues vs

theorem toList_unionText_nil : (unionText []).toList = ['(', ')'] := by
  simp [unionText]

theorem toList_unionText_cons (v : String) (vs : List String) :
    (unionText (v :: vs)).toList = '(' :: '\'' :: (v.toList ++ '\'' :: furtherValues vs) := by
  induction vs generalizing v with
  | nil => simp [unionText, furtherValues]
  | cons w ws ih =>
      have hrest := ih w
      simp only [unionText, List.map_cons, String.intercalate_cons_cons] at hrest ⊢
      simp_all [furtherValues]

theorem furtherValues_inj {vs ws : List String} (hvs : ∀ v ∈ vs, '\'' ∉ v.toList) (hws : ∀ w ∈ ws, '\'' ∉ w.toList)
    {r r' : List Char} (h : furtherValues vs ++ r = furtherValues ws ++ r') : vs = ws ∧ r = r' := by
  induction vs generalizing ws with
  | nil =>
      cases ws with
      | nil => simpa [furtherValues] using h
      | cons w ws => simp [furtherValues] at h
  | cons v vs ih =>
      cases ws with
      | nil => simp [furtherValues] at h
      | cons w ws =>
          rw [List.forall_mem_cons] at hvs hws
          simp only [furtherValues, List.cons_append, List.nil_append, List.append_assoc, List.cons.injEq,
            true_and] at h
          obtain ⟨hvw, hrest⟩ := quoted_inj hvs.1 hws.1 h
          obtain ⟨rfl, hr⟩ := ih hvs.2 hws.2 hrest
          rw [String.toList_inj.1 hvw]
          exact ⟨rfl, hr⟩

theorem unionText_inj {vs ws : List String} (hvs : ∀ v ∈ vs, '\'' ∉ v.toList) (hws : ∀ w ∈ ws, '\'' ∉ w.toList)
    {r r' : List Char} (h : (unionText vs).toList ++ r = (unionText ws).toList ++ r') : vs = ws ∧ r = r' := by
  cases vs with
  | nil =>
      cases ws with
      | nil => simpa [toList_unionText_nil] using h
      | cons w ws => simp [toList_unionText_nil, toList_unionText_cons] at h
  | cons v vs =>
      cases ws with
      | nil => simp [toList_unionText_nil, toList_unionText_cons] at h
      | cons w ws =>
          rw [List.forall_mem_cons] at hvs hws
          simp only [toList_unionText_cons, List.cons_append, List.append_assoc, List.cons.injEq, true_and] at h
          obtain ⟨hvw, hrest⟩ := quoted_inj hvs.1 hws.1 h
          obtain ⟨rfl, hr⟩ := furtherValues_inj hvs.2 hws.2 hrest
          rw [String.toList_inj.1 hvw]
          exact ⟨rfl, hr⟩

/-! ## Labels -/

theorem Word.no_quote {s : String} (h : Word s) : '\'' ∉ s.toList :=
  fun hmem => absurd (h _ hmem) (by decide)

theorem Word.ne_quote {s : String} (h : Word s) {r : List Char} (hr : ∀ c ∈ r.head?, c = '?' ∨ c = ':')
    (rest : List Char) : s.toList ++ r ≠ '\'' :: rest := by
  intro heq
  cases hchars : s.toList with
  | nil =>
      rw [hchars, List.nil_append] at heq
      have hend := hr '\'' (by simp [heq])
      simp at hend
  | cons c chars =>
      rw [hchars, List.cons_append] at heq
      obtain ⟨rfl, -⟩ := List.cons.inj heq
      exact h.no_quote (by simp [hchars])

theorem property_inj {m n : String} (hm : Word m) (hn : Word n) {r r' : List Char}
    (hr : ∀ c ∈ r.head?, c = '?' ∨ c = ':') (hr' : ∀ c ∈ r'.head?, c = '?' ∨ c = ':')
    (h : (Name.property m).toList ++ r = (Name.property n).toList ++ r') : m = n ∧ r = r' := by
  have hkind {r : List Char} (hr : ∀ c ∈ r.head?, c = '?' ∨ c = ':') : ∀ c ∈ r.head?, isWordChar c = false := by
    intro c hc
    rcases hr c hc with rfl | rfl <;> decide
  unfold Name.property at h
  split at h <;> split at h
  · simp only [String.toList_append, List.append_assoc, String.reduceToList, List.cons_append, List.nil_append] at h
    obtain ⟨hmn, hrest⟩ := quoted_inj hm.no_quote hn.no_quote (List.cons.inj h).2
    exact ⟨String.toList_inj.1 hmn, hrest⟩
  · simp only [String.toList_append, List.append_assoc, String.reduceToList, List.cons_append] at h
    exact absurd h.symm (hn.ne_quote hr' _)
  · simp only [String.toList_append, List.append_assoc, String.reduceToList, List.cons_append] at h
    exact absurd h (hm.ne_quote hr _)
  · obtain ⟨hmn, hrest⟩ := stretch_inj hm hn (hkind hr) (hkind hr') h
    exact ⟨String.toList_inj.1 hmn, hrest⟩

theorem head_labelChars {name : String} (hname : Word name) (optional : Bool) (rest : List Char) :
    ∀ c ∈ (labelChars name optional ++ rest).head?, isWordChar c = true ∨ c ∈ ['\'', '?', ':'] := by
  intro c hc
  unfold labelChars Name.property at hc
  split at hc
  · obtain rfl : '\'' = c := by simpa using hc
    simp
  · cases hchars : name.toList with
    | nil =>
        cases optional
        · obtain rfl : ':' = c := by simpa [hchars] using hc
          simp
        · obtain rfl : '?' = c := by simpa [hchars] using hc
          simp
    | cons d chars =>
        obtain rfl : d = c := by simpa [hchars] using hc
        exact .inl (hname d (by simp [hchars]))

theorem labelChars_inj {m n : String} (hm : Word m) (hn : Word n) {a b : Bool} {r r' : List Char}
    (h : labelChars m a ++ r = labelChars n b ++ r') : m = n ∧ a = b ∧ r = r' := by
  have hmark (a : Bool) (r : List Char) :
      ∀ c ∈ ((if a then ['?'] else []) ++ ([':', ' '] ++ r)).head?, c = '?' ∨ c = ':' := by
    cases a <;> simp
  simp only [labelChars, List.append_assoc] at h
  obtain ⟨hmn, hrest⟩ := property_inj hm hn (hmark a r) (hmark b r') h
  cases a <;> cases b <;> simp_all

/-! ## Array marks -/

namespace TypeForm

/-- What is left of a form without the lists around it. -/
def core : TypeForm → TypeForm
  | .array items => items.core
  | form => form

/-- The number of lists around the core of a form. -/
def rank : TypeForm → Nat
  | .array items => items.rank + 1
  | _ => 0

def marks (n : Nat) : List Char :=
  (List.replicate n ['[', ']']).flatten

theorem marks_succ_append (n : Nat) (r : List Char) : marks (n + 1) ++ r = marks n ++ ('[' :: ']' :: r) := by
  simp [marks, List.replicate_succ']

theorem chars_core (indent : String) (depth : Int) (form : TypeForm) :
    form.chars indent depth = form.core.chars indent depth ++ marks form.rank := by
  induction form using core.induct with
  | case1 items ih =>
      rw [chars, ih, core, rank, List.append_assoc, ← List.append_nil (marks (items.rank + 1)), marks_succ_append]
  | case2 form hform => simp [core, rank, marks]

theorem marks_inj {m n : Nat} {r r' : List Char} (hr : Ends r) (hr' : Ends r') (h : marks m ++ r = marks n ++ r') :
    m = n ∧ r = r' := by
  have hsucc (n : Nat) (r : List Char) : marks (n + 1) ++ r = '[' :: ']' :: (marks n ++ r) := by
    simp [marks, List.replicate_succ]
  have hne {r : List Char} (hr : Ends r) (rest : List Char) : r ≠ '[' :: rest := by
    rintro rfl
    simpa using hr '[' rfl
  induction m generalizing n with
  | zero =>
      cases n with
      | zero => simpa [marks] using h
      | succ n =>
          rw [hsucc] at h
          exact absurd (by simpa [marks] using h) (hne hr _)
  | succ m ih =>
      cases n with
      | zero =>
          rw [hsucc] at h
          exact absurd (by simpa [marks] using h.symm) (hne hr' _)
      | succ n =>
          rw [hsucc, hsucc] at h
          obtain ⟨rfl, hrest⟩ := ih (by simpa using h)
          exact ⟨rfl, hrest⟩

theorem core_ne_array (form items : TypeForm) : form.core ≠ .array items := by
  induction form using core.induct with
  | case1 inner ih => exact ih
  | case2 form hform => simpa [core] using hform items

theorem core_clear {form : TypeForm} (h : form.Clear) : form.core.Clear := by
  induction form using core.induct with
  | case1 items ih => exact ih (by simpa [Clear] using h)
  | case2 form hform => simpa [core] using h

/-- A form is made up of its core and the lists around it. -/
theorem eq_of_core_eq {f g : TypeForm} (hcore : f.core = g.core) (hrank : f.rank = g.rank) : f = g := by
  induction f using core.induct generalizing g with
  | case1 items ih =>
      cases g with
      | array others =>
          simp only [core, rank, Nat.add_right_cancel_iff] at hcore hrank
          rw [ih hcore hrank]
      | _ => simp [rank] at hrank
  | case2 f hf =>
      cases g with
      | array others => simp [rank] at hrank
      | _ => simpa [core] using hcore

end TypeForm

/-! ## Forms -/

open TypeForm

theorem Closes.marks {r : List Char} (h : Closes r) (n : Nat) : Closes (marks n ++ r) := by
  cases n with
  | zero => simpa [TypeForm.marks] using h
  | succ n => simp [Closes, TypeForm.marks, List.replicate_succ]

theorem exists_unionText (values : List String) : ∃ rest, (unionText values).toList = '(' :: rest := by
  cases values with
  | nil => exact ⟨_, toList_unionText_nil⟩
  | cons v vs => exact ⟨_, toList_unionText_cons v vs⟩

section

variable {indent : String} {depth : Int} {g : TypeForm} {r r' : List Char}

theorem name_inj {text : String} (ht : Word text) (hg : g.Clear) (hr : Closes r) (hr' : Closes r')
    (h : text.toList ++ r = g.chars indent depth ++ r') : .name text = g.core ∧ r = marks g.rank ++ r' := by
  have hclear := core_clear hg
  rw [chars_core, List.append_assoc] at h
  cases hcore : g.core with
  | name other =>
      rw [hcore] at h hclear
      simp only [chars, Clear] at h hclear
      obtain ⟨hsame, hrest⟩ := stretch_inj ht hclear hr.not_word (hr'.marks g.rank).not_word h
      rw [String.toList_inj.1 hsame]
      exact ⟨rfl, hrest⟩
  | union values =>
      obtain ⟨rest, hopening⟩ := exists_unionText values
      rw [hcore, chars, hopening] at h
      exact absurd h (hr.ne_opening ht (.inl rfl) _)
  | object members =>
      rw [hcore, chars] at h
      exact absurd h (hr.ne_opening ht (.inr rfl) _)
  | array items => exact absurd hcore (core_ne_array g items)

theorem union_inj {values : List String} (hvalues : ∀ v ∈ values, '\'' ∉ v.toList) (hg : g.Clear) (hr' : Closes r')
    (h : (unionText values).toList ++ r = g.chars indent depth ++ r') :
    .union values = g.core ∧ r = marks g.rank ++ r' := by
  have hclear := core_clear hg
  obtain ⟨rest, hopening⟩ := exists_unionText values
  rw [chars_core, List.append_assoc] at h
  cases hcore : g.core with
  | name other =>
      rw [hcore, hopening] at h
      rw [hcore, Clear] at hclear
      exact absurd h.symm ((hr'.marks g.rank).ne_opening hclear (.inl rfl) _)
  | union others =>
      rw [hcore, chars] at h
      rw [hcore, Clear] at hclear
      obtain ⟨rfl, hrest⟩ := unionText_inj hvalues hclear h
      exact ⟨rfl, hrest⟩
  | object members =>
      rw [hcore, hopening, chars] at h
      simp at h
  | array items => exact absurd hcore (core_ne_array g items)

end

variable {indent : String}

/-- Behind its margin a line with a member begins with no brace. -/
theorem closing_ne_label (hindent : Margin indent) {name : String} (hname : Word name) (optional : Bool) (depth depth' : Int)
    (r rest : List Char) :
    marginChars indent depth ++ '\x7d' :: r ≠ marginChars indent depth' ++ (labelChars name optional ++ rest) := by
  intro h
  have hmargin (depth : Int) : ∀ c ∈ marginChars indent depth, (c == ' ' || c == '\t') = true := by
    intro c hc
    simpa using margin_margin hindent _ c hc
  have hlabel : ∀ c ∈ (labelChars name optional ++ rest).head?, c ∉ [' ', '\t', '\x7d'] := by
    intro c hc
    rcases head_labelChars hname optional rest c hc with hword | hmark
    · intro hmem
      simp only [List.mem_cons, List.not_mem_nil, or_false] at hmem
      rcases hmem with rfl | rfl | rfl <;> exact absurd hword (by decide)
    · simp only [List.mem_cons, List.not_mem_nil, or_false] at hmark
      rcases hmark with rfl | rfl | rfl <;> simp
  have hclosing : ∀ c ∈ ('\x7d' :: r).head?, (c == ' ' || c == '\t') = false := by simp
  have hkind : ∀ c ∈ (labelChars name optional ++ rest).head?, (c == ' ' || c == '\t') = false := by
    intro c hc
    have hnot := hlabel c hc
    simp_all
  obtain ⟨-, hrest⟩ := stretch_inj (hmargin depth) (hmargin depth') hclosing hkind h
  exact absurd (hlabel '\x7d' (by rw [← hrest]; rfl)) (by simp)

mutual
/-- The core of a form and the lists around it can be read off its text, whatever follows. -/
theorem TypeForm.core_inj (hindent : Margin indent) (depth : Int) : (f g : TypeForm) → f.Clear → g.Clear → (r r' : List Char) →
    Closes r → Closes r' → f.chars indent depth ++ r = g.chars indent depth ++ r' →
    f.core = g.core ∧ marks f.rank ++ r = marks g.rank ++ r'
  | .array items, g, hf, hg, r, r', _, hr', h => by
      have hitems := TypeForm.core_inj hindent depth items g (by simpa [Clear] using hf) hg ('[' :: ']' :: r) r'
        (by simp [Closes]) hr' (by simpa [chars] using h)
      rwa [core, rank, marks_succ_append]
  | .name text, g, hf, hg, r, r', hr, hr', h => by
      rw [Clear] at hf
      rw [chars] at h
      simpa [core, rank, TypeForm.marks] using name_inj hf hg hr hr' h
  | .union values, g, hf, hg, r, r', _, hr', h => by
      rw [Clear] at hf
      rw [chars] at h
      simpa [core, rank, TypeForm.marks] using union_inj hf hg hr' h
  | .object members, g, hf, hg, r, r', _, hr', h => by
      have hclear := core_clear hg
      rw [Clear] at hf
      rw [chars, chars_core indent depth g, List.append_assoc _ _ r'] at h
      cases hcore : g.core with
      | name other =>
          rw [hcore, Clear] at hclear
          rw [hcore] at h
          exact absurd h.symm ((hr'.marks g.rank).ne_opening hclear (.inr rfl) _)
      | union values =>
          obtain ⟨rest, hopening⟩ := exists_unionText values
          rw [hcore, chars, hopening] at h
          simp at h
      | object others =>
          rw [hcore, Clear] at hclear
          rw [hcore, chars] at h
          obtain ⟨rfl, hrest⟩ := memberChars_inj hindent (depth + 1) members others hf hclear depth r _ (by simpa using h)
          simpa [core, rank, TypeForm.marks] using hrest
      | array items => exact absurd hcore (core_ne_array g items)

/-- The members of an object can be read off its lines up to the brace that closes it. -/
theorem memberChars_inj (hindent : Margin indent) (depth : Int) : (ms ns : List (String × Bool × TypeForm)) →
    ClearMembers ms → ClearMembers ns → (outer : Int) → (r r' : List Char) →
    memberChars indent depth ms ++ (marginChars indent outer ++ '\x7d' :: r) =
      memberChars indent depth ns ++ (marginChars indent outer ++ '\x7d' :: r') → ms = ns ∧ r = r'
  | [], [] => by
      intro _ _ outer r r' h
      simpa [memberChars] using h
  | [], (_, optional, _) :: ns => by
      intro _ hn outer r r' h
      simp only [ClearMembers] at hn
      simp only [memberChars, List.nil_append, List.append_assoc] at h
      exact absurd h (closing_ne_label hindent hn.1 optional _ _ _ _)
  | (_, optional, _) :: ms, [] => by
      intro hm _ outer r r' h
      simp only [ClearMembers] at hm
      simp only [memberChars, List.nil_append, List.append_assoc] at h
      exact absurd h.symm (closing_ne_label hindent hm.1 optional _ _ _ _)
  | (m, a, f) :: ms, (n, b, g) :: ns => by
      intro hm hn outer r r' h
      simp only [ClearMembers] at hm hn
      simp only [memberChars, List.append_assoc] at h
      obtain ⟨rfl, rfl, htypes⟩ := labelChars_inj hm.1 hn.1 (List.append_cancel_left h)
      have hends (rest : List Char) : Ends ([';', '\n'] ++ rest) := by simp [Ends]
      obtain ⟨hcore, hmarks⟩ :=
        TypeForm.core_inj hindent depth f g hm.2.1 hn.2.1 _ _ (hends _).closes (hends _).closes htypes
      obtain ⟨hrank, hrest⟩ := marks_inj (hends _) (hends _) hmarks
      obtain ⟨rfl, hr⟩ := memberChars_inj hindent depth ms ns hm.2.2 hn.2.2 outer r r' (by simpa using hrest)
      rw [eq_of_core_eq hcore hrank]
      exact ⟨rfl, hr⟩
end

theorem chars_inj (hindent : Margin indent) {depth : Int} {f g : TypeForm} (hf : f.Clear) (hg : g.Clear)
    (h : f.chars indent depth = g.chars indent depth) : f = g := by
  have hends : Ends [] := by simp [Ends]
  obtain ⟨hcore, hmarks⟩ := core_inj hindent depth f g hf hg [] [] hends.closes hends.closes (by simpa using h)
  exact eq_of_core_eq hcore (marks_inj hends hends hmarks).1

/-- Two shapes with clear names are written alike if and only if they say the same. -/
theorem Shape.typeText_eq_iff (hindent : Margin indent) {s t : Shape} (hs : s.Clear) (ht : t.Clear) (depth : Int) :
    ∃ a b, s.typeText (.str indent) depth = .ok a ∧ t.typeText (.str indent) depth = .ok b ∧
      (a = b ↔ s.form = t.form) := by
  refine ⟨_, _, Shape.typeText_eq indent depth s, Shape.typeText_eq indent depth t, ?_, ?_⟩
  · intro h
    exact chars_inj hindent hs.form ht.form (String.ofList_inj.1 h)
  · intro h
    rw [h]

/-- An object with an optional list of elements of any kind. -/
def ofAnyItems : Shape :=
  .object default [⟨"first.items", .array default (.unknown default), true, .null, default⟩]

/-- An object with an optional list of which no elements are described. -/
def ofBareItems : Shape :=
  .object default [⟨"first.items", .bareArray default, true, .null, default⟩]

theorem Shape.typeText_eq_iff_bareItems : Margin "\t " ∧ ofAnyItems.Clear ∧ ofBareItems.Clear ∧
    ∃ a b, ofAnyItems.typeText (.str "\t ") 2 = .ok a ∧ ofBareItems.typeText (.str "\t ") 2 = .ok b ∧
      (a = b ↔ ofAnyItems.form = ofBareItems.form) := by
  have hmargin : Margin "\t " := by decide
  have hany : ofAnyItems.Clear := by
    simp only [ofAnyItems, Shape.Clear, ClearAll, Property.Clear]
    decide
  have hbare : ofBareItems.Clear := by
    simp only [ofBareItems, Shape.Clear, ClearAll, Property.Clear]
    decide
  exact ⟨hmargin, hany, hbare, Shape.typeText_eq_iff hmargin hany hbare 2⟩

end ProtocolTypings
