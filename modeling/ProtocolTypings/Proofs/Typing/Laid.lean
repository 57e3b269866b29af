import ProtocolTypings.Proofs.Artifact.Alignment
import ProtocolTypings.Proofs.Typing.MadeOf
import ProtocolTypings.Proofs.Typing.Written

/-!
# Items that stand where their braces say

The depth of a sheet and the depth that the text of a shape starts from are the same, so the lines of a type that spreads
over several of them stand among the others as their braces say.
-/

namespace ProtocolTypings

open Artifact
open Text (OneLine Neat Flush Headed)

theorem nameKind_neat : NameKind Neat Flush where
  append := .append
  capitalize := .capitalize
  fixed := by decide
  member := by
    intro domain name h
    have hpoint : Headed (Text.capitalize domain ++ ".") := h.capitalize.headed ⟨'.', rfl, by decide⟩
    exact (hpoint.append name).flush
  entry := by decide

theorem flush_property {name : String} (h : Flush name) : Flush (Name.property name) := by
  unfold Name.property
  split
  · have hquote : Headed "'" := ⟨'\'', rfl, by decide⟩
    exact ((hquote.append _).append _).flush
  · exact h

theorem indentation_margin (indent : String) (d : Nat) : indentation (.str indent) d = .ok (margin indent d) :=
  rfl

variable {indent : String}

/-! ## Type expressions -/

/-- The lines are laid whatever stands before the text on its first line and behind it on its last. -/
def LaysWithin (indent : String) (d : Nat) (text : String) : Prop :=
  ∀ pre post, Neat pre → Headed pre → Neat post → Lays indent (margin indent d ++ (pre ++ text ++ post) ++ "\n") d d

theorem laysWithin_of_neat (hindent : Margin indent) {text : String} (h : Neat text) (d : Nat) :
    LaysWithin indent d text := by
  intro pre post hpre hhead hpost
  exact .flat hindent ((hpre.append h).append hpost) ((hhead.append _).append _)

mutual
theorem Shape.lays_typeText (hindent : Margin indent) (d : Nat) :
    (s : Shape) → (∀ t ∈ s.strings, Neat t) → (∀ t ∈ s.labels, Flush t) →
    ∃ t, s.typeText (.str indent) d = .ok t ∧ LaysWithin indent d t
  | .ref _ target, h, _ =>
      ⟨target, by simp [Shape.typeText], laysWithin_of_neat hindent (h target (by simp [Shape.strings])) d⟩
  | .array _ items, h, hl => by
      obtain ⟨t, ht, hlays⟩ :=
        Shape.lays_typeText hindent d items (by simpa [Shape.strings] using h) (by simpa [Shape.labels] using hl)
      refine ⟨t ++ "[]", by simp [Shape.typeText, ht], fun pre post hpre hhead hpost => ?_⟩
      have hbrackets : Neat "[]" := by decide
      have hitems := hlays pre ("[]" ++ post) hpre hhead (hbrackets.append hpost)
      simpa only [String.append_assoc] using hitems
  | .bareArray _, _, _ => ⟨"any[]", by simp [Shape.typeText], laysWithin_of_neat hindent (by decide) d⟩
  | .object _ properties, h, hl => by
      obtain ⟨members, hmembers, hlays⟩ :=
        lays_membersText hindent (d + 1) properties (by simpa [Shape.strings] using h)
          (by simpa [Shape.labels] using hl)
      refine ⟨"\x7b\n" ++ members ++ margin indent d ++ "\x7d", ?_, fun pre post hpre hhead hpost => ?_⟩
      · rw [Shape.typeText, ← Int.natCast_succ, hmembers, indentation_margin]
        rfl
      · have hblock := (Lays.opening hindent hpre hhead).append (hlays.append (Lays.closing hindent hpost))
        have hfeed : "\x7b\n" = "\x7b" ++ "\n" := rfl
        simpa only [hfeed, String.append_assoc] using hblock
  | .openObject _, _, _ => ⟨"any", by simp [Shape.typeText], laysWithin_of_neat hindent (by decide) d⟩
  | .primitive _ kind none, h, _ =>
      ⟨kind, by simp [Shape.typeText], laysWithin_of_neat hindent (h kind (by simp [Shape.strings])) d⟩
  | .primitive _ kind (some values), h, _ => by
      by_cases hkind : kind = "string"
      · subst hkind
        have hvalues : ∀ v ∈ values, Neat v := fun v hv => h v (by simp [Shape.strings, hv])
        exact ⟨unionText values, by simp [Shape.typeText],
          laysWithin_of_neat hindent (nameKind_neat.unionText hvalues) d⟩
      · exact ⟨kind, by simp [Shape.typeText, hkind],
          laysWithin_of_neat hindent (h kind (by simp [Shape.strings])) d⟩
  | .unknown _, _, _ => ⟨"any", by simp [Shape.typeText], laysWithin_of_neat hindent (by decide) d⟩

theorem lays_membersText (hindent : Margin indent) (d : Nat) :
    (ps : List Property) → (∀ t ∈ stringsOfAll ps, Neat t) → (∀ t ∈ labelsOfAll ps, Flush t) →
    ∃ t, membersText (.str indent) d ps = .ok t ∧ Lays indent t d d
  | [], _, _ => ⟨"", by simp [membersText], .empty⟩
  | p :: ps, h, hl => by
      obtain ⟨first, hfirst, hfirstLays⟩ := Property.lays_typeText hindent d p
        (fun t ht => h t (by simp [stringsOfAll, ht])) (fun t ht => hl t (by simp [labelsOfAll, ht]))
      obtain ⟨others, hothers, hothersLays⟩ := lays_membersText hindent d ps
        (fun t ht => h t (by simp [stringsOfAll, ht])) (fun t ht => hl t (by simp [labelsOfAll, ht]))
      refine ⟨margin indent d ++ first ++ ";\n" ++ others,
        by simp [membersText, indentation_margin, hfirst, hothers], ?_⟩
      have hfeed : ";\n" = ";" ++ "\n" := rfl
      have hmembers := hfirstLays.append hothersLays
      simpa only [hfeed, String.append_assoc] using hmembers

theorem Property.lays_typeText (hindent : Margin indent) (d : Nat) :
    (p : Property) → (∀ t ∈ p.strings, Neat t) → (∀ t ∈ p.labels, Flush t) →
    ∃ t, p.typeText (.str indent) d = .ok t ∧ Lays indent (margin indent d ++ (t ++ ";") ++ "\n") d d
  | ⟨name, shape, optional, _, _⟩, h, hl => by
      have hname : Neat (Name.property name) := nameKind_neat.property (h name (by simp [Property.strings]))
      have hflush : Flush (Name.property name) := flush_property (hl name (by simp [Property.labels]))
      obtain ⟨t, ht, hlays⟩ := Shape.lays_typeText hindent d shape
        (fun t ht => h t (by simp [Property.strings, ht])) (fun t ht => hl t (by simp [Property.labels, ht]))
      have hmark : Neat ((if optional then "?" else "") ++ ": ") := by cases optional <;> decide
      have hhead : Headed ((if optional then "?" else "") ++ ": ") := by
        cases optional
        · exact ⟨':', rfl, by decide⟩
        · exact ⟨'?', rfl, by decide⟩
      refine ⟨Name.property name ++ (if optional then "?" else "") ++ ": " ++ t, by simp [Property.typeText, ht], ?_⟩
      have hline := hlays _ ";" (hname.append hmark) (hflush.headed hhead) (by decide)
      simpa only [String.append_assoc] using hline
end

/-! ## Items -/

section

variable (hindent : Margin indent)
include hindent

/-- The item is written at any depth, and its lines stand as their braces say. -/
def Item.Laid (indent : String) (item : Item) : Prop :=
  ∀ d, ∃ t, item.text (.str indent) d = .ok t ∧ Lays indent t d d

omit hindent in
theorem laid_itemsText {items : List Item} (h : ∀ item ∈ items, item.Laid indent) (d : Nat) :
    ∃ t, itemsText (.str indent) d items = .ok t ∧ Lays indent t d d := by
  induction items with
  | nil => exact ⟨"", rfl, .empty⟩
  | cons item rest ih =>
      obtain ⟨t, ht, hlays⟩ := h item List.mem_cons_self d
      obtain ⟨u, hu, hrest⟩ := ih fun other hother => h other (List.mem_cons_of_mem _ hother)
      exact ⟨t ++ u, by rw [itemsText_cons, ht, hu]; rfl, hlays.append hrest⟩

omit hindent in
theorem lineText_margin (d : Nat) (text : String) :
    lineText (.str indent) d text = .ok (margin indent d ++ text ++ "\n") :=
  rfl

theorem laid_lineText {text : String} (h : Neat text) (hhead : Headed text) (d : Nat) :
    ∃ t, lineText (.str indent) d text = .ok t ∧ Lays indent t d d :=
  ⟨_, lineText_margin d text, .flat hindent h hhead⟩

theorem lays_commentLinesText {lines : List String} (hlines : ∀ line ∈ lines, OneLine line) (d : Nat) :
    ∃ t, commentLinesText (.str indent) d lines = .ok t ∧ Lays indent t d d := by
  induction lines with
  | nil => exact ⟨"", rfl, .empty⟩
  | cons line rest ih =>
      have hcomment := isCommentLine_starred line
      have hline := oneLine_starred (hlines line List.mem_cons_self)
      obtain ⟨u, hu, hrest⟩ := ih fun other hother => hlines other (List.mem_cons_of_mem _ hother)
      refine ⟨_, by rw [commentLinesText_cons, lineText_margin, hu]; rfl, ?_⟩
      exact (Lays.comment hindent hcomment hline ⟨" " ++ line, .inr (by rw [← String.append_assoc]; rfl)⟩).append hrest

theorem Item.laid_comment {description : Json} (h : IsDescription description) :
    Item.Laid indent (.comment description) := by
  intro d
  rcases h with rfl | ⟨s, rfl⟩
  · exact ⟨"", Item.text_comment_of_not_truthy _ _ rfl, .empty⟩
  by_cases hs : s = ""
  · subst hs
    exact ⟨"", Item.text_comment_of_not_truthy _ _ rfl, .empty⟩
  · have hlines : ∀ line ∈ Text.lines s, OneLine line := fun line hline => Text.oneLine_of_mem_lines hline
    obtain ⟨inner, hinner, hinnerLays⟩ := lays_commentLinesText hindent hlines d
    have hfirst := @Lays.comment indent "/**" hindent d (by decide) (by decide) ⟨"", .inl rfl⟩
    have hlast := @Lays.comment indent " */" hindent d (by decide) (by decide) ⟨"/", .inr rfl⟩
    refine ⟨_, ?_, hfirst.append (hinnerLays.append hlast)⟩
    rw [Item.text_comment_str _ _ hs, lineText_margin, hinner, lineText_margin]
    rfl

theorem Item.laid_block {kind : BlockKind} {name : String} {body : List Item} (hname : Neat name)
    (hbody : ∀ item ∈ body, item.Laid indent) : Item.Laid indent (.block kind name body) := by
  intro d
  obtain ⟨t, ht, hlays⟩ := laid_itemsText hbody (d + 1)
  have hkeyword : Neat kind.keyword ∧ Headed kind.keyword := by
    cases kind
    · exact ⟨by decide, 'e', rfl, by decide⟩
    · exact ⟨by decide, 'e', rfl, by decide⟩
  have hheader := (hkeyword.1.append hname).append (by decide : Neat " ")
  have hopening := Lays.opening (d := d) hindent hheader ((hkeyword.2.append name).append " ")
  have hclosing := @Lays.closing indent "" hindent d (by decide)
  rw [String.append_empty] at hclosing
  refine ⟨_, ?_, hopening.append (hlays.append hclosing)⟩
  have hbrace : kind.keyword ++ name ++ " \x7b" = kind.keyword ++ name ++ " " ++ "\x7b" :=
    (@String.append_assoc (kind.keyword ++ name) " " "\x7b").symm
  rw [Item.text_block, ht, lineText_margin, lineText_margin, hbrace]
  rfl

/-- What is made of neat names is laid, if no name at the start of a line starts with a blank. -/
theorem Item.MadeOf.laid {item : Item} (h : item.MadeOf Neat Flush) : item.Laid indent := by
  induction h with
  | blank => exact fun d => ⟨"\n", Item.text_blank _ _, .feed⟩
  | comment hdescription => exact Item.laid_comment hindent hdescription
  | integerAlias =>
      intro d
      rw [Item.text_integerAlias]
      exact laid_lineText hindent (by decide) ⟨'e', rfl, by decide⟩ d
  | typeAlias hname hstrings hlabels =>
      intro d
      obtain ⟨t, ht, hlays⟩ := Shape.lays_typeText hindent d _ hstrings hlabels
      have hkeyword : Neat "export type " := by decide
      have hheader := (hkeyword.append hname).append (by decide : Neat " = ")
      have hhead : Headed "export type " := ⟨'e', rfl, by decide⟩
      rw [Item.text_typeAlias, ht]
      exact ⟨_, lineText_margin d _, hlays _ ";" hheader ((hhead.append _).append _) (by decide)⟩
  | property hstrings hlabels =>
      intro d
      obtain ⟨t, ht, hlays⟩ := Property.lays_typeText hindent d _ hstrings hlabels
      rw [Item.text_property, ht]
      exact ⟨_, lineText_margin d _, hlays⟩
  | openProperties =>
      intro d
      rw [Item.text_openProperties]
      exact laid_lineText hindent (by decide) ⟨'[', rfl, by decide⟩ d
  | field hname hlabel htype =>
      intro d
      have hcolon : Headed ": " := ⟨':', rfl, by decide⟩
      rw [Item.text_field]
      refine laid_lineText hindent ?_ (((hlabel.headed hcolon).append _).append _) d
      exact ((hname.append (by decide)).append htype).append (by decide)
  | @method name payload result hname hlabel hpayload hresult =>
      intro d
      have hparams : Neat (payload.elim "" ("params: " ++ ·)) := by
        cases payload with
        | none => exact (by decide : Neat "")
        | some t => exact (by decide : Neat "params: ").append (hpayload t rfl)
      have hpromised : Neat (result.getD "void") := by
        cases result with
        | none => exact (by decide : Neat "void")
        | some t => exact hresult t rfl
      have hparenthesis : Headed "(" := ⟨'(', rfl, by decide⟩
      rw [Item.text_method]
      refine laid_lineText hindent ?_ (((((hlabel.headed hparenthesis).append _).append _).append _).append _) d
      exact ((((hname.append (by decide)).append hparams).append (by decide)).append hpromised).append (by decide)
  | listener hevent hpayload =>
      intro d
      have hon : Neat "on(event: '" ∧ Headed "on(event: '" := ⟨by decide, 'o', rfl, by decide⟩
      rw [Item.text_listener]
      refine laid_lineText hindent ?_ ((((hon.2.append _).append _).append _).append _) d
      exact (((hon.1.append hevent).append (by decide)).append hpayload).append (by decide)
  | block hname _ ih => exact Item.laid_block hindent hname ih

end

end ProtocolTypings
