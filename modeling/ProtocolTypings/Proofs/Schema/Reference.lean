import ProtocolTypings.Proofs.Text.Capital
import ProtocolTypings.Proofs.Schema.Protocol

/-!
# References of an accepted protocol

A strict reading accepts a reference if a domain of the very name that the reference gives declares its type. The
protocol module declares the type in the namespace that the capitalized name gives, and the reference is written as it
stands. It denotes a type of the module under conditions that are found here.
-/

namespace ProtocolTypings

open Schema (qualify declaredTypes qualifiedReferences insertOrdered unresolved readProtocol)

/-! ## Reachable references -/

/-- The shape refers to the target, at whatever depth. -/
inductive Shape.Refers : Shape → String → Prop
  | ref {place : Place} {target : String} : Refers (.ref place target) target
  | array {place : Place} {items : Shape} {target : String} : Refers items target → Refers (.array place items) target
  | object {place : Place} {properties : List Property} {p : Property} {target : String} :
      p ∈ properties → Refers p.shape target → Refers (.object place properties) target

/-- A type, a command or an event of the domain refers to the target. -/
inductive Domain.Refers (d : Domain) (target : String) : Prop
  | type {t : TypeDecl} : t ∈ d.types → t.shape.Refers target → Refers d target
  | parameter {c : Command} {ps : List Property} {p : Property} :
      c ∈ d.commands → c.parameters = some ps → p ∈ ps → p.shape.Refers target → Refers d target
  | result {c : Command} {ps : List Property} {p : Property} :
      c ∈ d.commands → c.returns = some ps → p ∈ ps → p.shape.Refers target → Refers d target
  | carried {ev : Event} {ps : List Property} {p : Property} :
      ev ∈ d.events → ev.parameters = some ps → p ∈ ps → p.shape.Refers target → Refers d target

theorem mem_referencesOfAll {ps : List Property} {p : Property} (hp : p ∈ ps) {target : String}
    (h : target ∈ p.shape.references) : target ∈ referencesOfAll ps := by
  induction ps with
  | nil => cases hp
  | cons q ps ih =>
      rw [referencesOfAll]
      rcases List.mem_cons.1 hp with rfl | hp
      · cases p
        exact List.mem_append_left _ h
      · exact List.mem_append_right _ (ih hp)

/-- The list of references misses none. -/
theorem Shape.Refers.mem_references {s : Shape} {target : String} (h : s.Refers target) : target ∈ s.references := by
  induction h with
  | ref => exact List.mem_singleton_self _
  | array _ ih => exact ih
  | object hp _ ih => exact mem_referencesOfAll hp ih

theorem Domain.Refers.exists_shape {d : Domain} {target : String} (h : d.Refers target) :
    ∃ s ∈ d.shapes, target ∈ s.references := by
  cases h with
  | type ht h =>
      exact ⟨_, List.mem_append_left _ (List.mem_append_left _ (List.mem_map.2 ⟨_, ht, rfl⟩)), h.mem_references⟩
  | parameter hc hps hp h =>
      refine ⟨_, List.mem_append_left _ (List.mem_append_right _ (List.mem_flatMap.2 ⟨_, hc, ?_⟩)), h.mem_references⟩
      rw [hps]
      exact List.mem_map.2 ⟨_, List.mem_append_left _ hp, rfl⟩
  | result hc hps hp h =>
      refine ⟨_, List.mem_append_left _ (List.mem_append_right _ (List.mem_flatMap.2 ⟨_, hc, ?_⟩)), h.mem_references⟩
      rw [hps]
      exact List.mem_map.2 ⟨_, List.mem_append_right _ hp, rfl⟩
  | carried hev hps hp h =>
      refine ⟨_, List.mem_append_right _ (List.mem_flatMap.2 ⟨_, hev, ?_⟩), h.mem_references⟩
      rw [hps]
      exact List.mem_map.2 ⟨_, hp, rfl⟩

/-! ## The check -/

theorem insertOrdered_ne_nil (s : String) (ts : List String) : insertOrdered s ts ≠ [] := by
  cases ts with
  | nil => exact List.cons_ne_nil _ _
  | cons t ts =>
      rw [insertOrdered]
      split
      · exact List.cons_ne_nil _ _
      · split <;> exact List.cons_ne_nil _ _

theorem mem_declaredTypes_of_unresolved {domains : List Domain} (h : unresolved domains = []) :
    ∀ reference ∈ qualifiedReferences domains, reference ∈ declaredTypes domains := by
  intro reference hreference
  refine Decidable.byContradiction fun hnot => ?_
  have hmem : reference ∈ (qualifiedReferences domains).filter (!(declaredTypes domains).contains ·) := by
    rw [List.mem_filter]
    exact ⟨hreference, by simpa using hnot⟩
  cases hlist : (qualifiedReferences domains).filter (!(declaredTypes domains).contains ·) with
  | nil =>
      rw [hlist] at hmem
      cases hmem
  | cons first rest =>
      rw [unresolved, hlist, List.foldr_cons] at h
      exact insertOrdered_ne_nil _ _ h

theorem unresolved_eq_nil_of_strict {documents : List Json} {domains : List Domain}
    (h : (readProtocol true documents).result = .ok domains) : unresolved domains = [] :=
  (Schema.readProtocol_eq_ok.1 h).2 rfl

/-- What a strict reading makes sure of. -/
theorem exists_declared_of_strict {documents : List Json} {domains : List Domain}
    (h : (readProtocol true documents).result = .ok domains) {d : Domain} (hd : d ∈ domains) {target : String}
    (ht : d.Refers target) : ∃ d' ∈ domains, ∃ t ∈ d'.types, qualify d.name target = d'.name ++ "." ++ t.id := by
  obtain ⟨s, hs, htarget⟩ := ht.exists_shape
  have hreference : qualify d.name target ∈ qualifiedReferences domains :=
    List.mem_flatMap.2 ⟨d, hd, List.mem_flatMap.2 ⟨s, hs, List.mem_map.2 ⟨target, htarget, rfl⟩⟩⟩
  have hdeclared := mem_declaredTypes_of_unresolved (unresolved_eq_nil_of_strict h) _ hreference
  obtain ⟨d', hd', hdeclared⟩ := List.mem_flatMap.1 hdeclared
  obtain ⟨t, ht', heq⟩ := List.mem_map.1 hdeclared
  exact ⟨d', hd', t, ht', heq.symm⟩

/-! ## What a reference denotes -/

/-- Is there a point in the text? -/
def Dotted (s : String) : Prop :=
  '.' ∈ s.toList

instance (s : String) : Decidable (Dotted s) :=
  inferInstanceAs (Decidable ('.' ∈ s.toList))

/-- The target, written in the namespace of the domain, denotes a type that the protocol module declares. -/
def Denotes (domains : List Domain) (d : Domain) (target : String) : Prop :=
  if Dotted target then
    ∃ d' ∈ domains, ∃ t ∈ d'.types, target = Text.capitalize d'.name ++ "." ++ t.id
  else
    ∃ d' ∈ domains, Text.capitalize d'.name = Text.capitalize d.name ∧ ∃ t ∈ d'.types, t.id = target

theorem qualify_of_dotted {target : String} (h : Dotted target) (domain : String) : qualify domain target = target := by
  rw [qualify, if_pos (List.contains_iff_mem.2 h)]

theorem qualify_of_not_dotted {target : String} (h : ¬ Dotted target) (domain : String) :
    qualify domain target = domain ++ "." ++ target := by
  rw [qualify, if_neg fun hc => h (List.contains_iff_mem.1 hc)]

theorem append_point_inj {xs ys s t : List Char} (hs : '.' ∉ s) (ht : '.' ∉ t) (h : xs ++ '.' :: s = ys ++ '.' :: t) :
    xs = ys ∧ s = t := by
  rcases List.append_eq_append_iff.1 h with ⟨as, rfl, has⟩ | ⟨bs, rfl, hbs⟩
  · cases as with
    | nil =>
        obtain ⟨-, hst⟩ := List.cons.inj has
        exact ⟨(List.append_nil xs).symm, hst⟩
    | cons a as =>
        obtain ⟨-, hst⟩ := List.cons.inj has
        rw [hst] at hs
        exact absurd (List.mem_append_right as List.mem_cons_self) hs
  · cases bs with
    | nil =>
        obtain ⟨-, hst⟩ := List.cons.inj hbs
        exact ⟨List.append_nil ys, hst.symm⟩
    | cons b bs =>
        obtain ⟨-, hst⟩ := List.cons.inj hbs
        rw [hst] at ht
        exact absurd (List.mem_append_right bs List.mem_cons_self) ht

/-- What stands before and behind the last point of a text is determined by it. -/
theorem eq_of_append_point_eq {m n s t : String} (hs : ¬ Dotted s) (ht : ¬ Dotted t)
    (h : m ++ "." ++ s = n ++ "." ++ t) : m = n ∧ s = t := by
  have hchars : m.toList ++ '.' :: s.toList = n.toList ++ '.' :: t.toList := by
    simpa using congrArg String.toList h
  obtain ⟨hfront, hback⟩ := append_point_inj hs ht hchars
  exact ⟨String.toList_inj.1 hfront, String.toList_inj.1 hback⟩

/-- A name with a type behind it has its capital letter if the name has. -/
theorem capitalize_point_append (name id : String) :
    Text.capitalize (name ++ "." ++ id) = name ++ "." ++ id ↔ Text.capitalize name = name := by
  by_cases hname : name = ""
  · subst hname
    simp [Text.capitalize, Text.capital]
  · rw [String.append_assoc, Text.capitalize_append_eq_self hname]

/-- A reference with a point that the check accepts denotes a type exactly if it begins with a capital letter. -/
theorem denotes_iff_of_dotted {domains : List Domain} {d d' : Domain} {t : TypeDecl} {target : String}
    (hd' : d' ∈ domains) (ht : t ∈ d'.types) (hdotted : Dotted target) (htarget : target = d'.name ++ "." ++ t.id) :
    Denotes domains d target ↔ Text.capitalize target = target := by
  rw [Denotes, if_pos hdotted]
  constructor
  · rintro ⟨d₁, -, t₁, -, hdenoted⟩
    rw [hdenoted, capitalize_point_append]
    exact Text.capitalize_capitalize d₁.name
  · intro hcapital
    rw [htarget, capitalize_point_append] at hcapital
    exact ⟨d', hd', t, ht, by rw [hcapital, htarget]⟩

/-- A reference without a point denotes a type of its own domain if that is what the check found. -/
theorem denotes_of_not_dotted {domains : List Domain} {d d' : Domain} {t : TypeDecl} {target : String}
    (hd' : d' ∈ domains) (ht : t ∈ d'.types) (hdotted : ¬ Dotted target) (hid : ¬ Dotted t.id)
    (htarget : d.name ++ "." ++ target = d'.name ++ "." ++ t.id) : Denotes domains d target := by
  obtain ⟨hname, hid'⟩ := eq_of_append_point_eq hdotted hid htarget
  rw [Denotes, if_neg hdotted]
  exact ⟨d', hd', by rw [hname], t, ht, hid'.symm⟩

/-- Which references of an accepted protocol denote a type. The check compares them with names that the module does not
keep: a reference with a point denotes a type exactly if it begins with a capital letter, and one without a point does
unless all that the check has found for it are types with a point in their own name. -/
theorem strict_references_denote {documents : List Json} {domains : List Domain}
    (h : (readProtocol true documents).result = .ok domains) {d : Domain} (hd : d ∈ domains) {target : String}
    (ht : d.Refers target) :
    (∃ d' ∈ domains, ∃ t ∈ d'.types, qualify d.name target = d'.name ++ "." ++ t.id) ∧
    (Dotted target → (Denotes domains d target ↔ Text.capitalize target = target)) ∧
    (¬ Dotted target → Denotes domains d target ∨
      ∀ d' ∈ domains, ∀ t ∈ d'.types, d.name ++ "." ++ target = d'.name ++ "." ++ t.id → Dotted t.id) ∧
    ((∀ d' ∈ domains, Text.capitalize d'.name = d'.name ∧ ∀ t ∈ d'.types, ¬ Dotted t.id) →
      Denotes domains d target) := by
  obtain ⟨d', hd', t, ht', heq⟩ := exists_declared_of_strict h hd ht
  refine ⟨⟨d', hd', t, ht', heq⟩, fun hdotted => ?_, fun hdotted => ?_, fun hnames => ?_⟩
  · rw [qualify_of_dotted hdotted] at heq
    exact denotes_iff_of_dotted hd' ht' hdotted heq
  · by_cases hdenotes : Denotes domains d target
    · exact .inl hdenotes
    · refine .inr fun d₁ hd₁ t₁ ht₁ heq₁ => ?_
      refine Decidable.byContradiction fun hid => ?_
      exact hdenotes (denotes_of_not_dotted hd₁ ht₁ hdotted hid heq₁)
  · obtain ⟨hcapital, hids⟩ := hnames d' hd'
    by_cases hdotted : Dotted target
    · rw [qualify_of_dotted hdotted] at heq
      rw [denotes_iff_of_dotted hd' ht' hdotted heq, heq, capitalize_point_append]
      exact hcapital
    · rw [qualify_of_not_dotted hdotted] at heq
      exact denotes_of_not_dotted hd' ht' hdotted (hids t ht') heq

/-- A document with a domain `page`, in which a type refers to another by the name of the domain. -/
def pageDocument : Json :=
  .obj [("domains", .arr [.obj [
    ("domain", .str "page"),
    ("types", .arr [
      .obj [("id", .str "T"), ("type", .str "string")],
      .obj [("id", .str "U"), ("$ref", .str "page.T")]])]])]

def pageDomain : Domain :=
  let types := ((Place.document 0).key "domains").position 0 |>.key "types"
  { name := "page"
    description := .null
    types := [⟨"T", .primitive (types.position 0) "string" none, .null, ⟨false, false⟩⟩,
      ⟨"U", .ref (types.position 1) "page.T", .null, ⟨false, false⟩⟩]
    commands := []
    events := []
    dependencies := []
    marks := ⟨false, false⟩ }

theorem readProtocol_pageDocument : (readProtocol true [pageDocument]).result = .ok [pageDomain] := rfl

theorem pageDomain_refers : pageDomain.Refers "page.T" :=
  .type (List.mem_cons_of_mem _ List.mem_cons_self) .ref

theorem strict_references_denote_page :
    (readProtocol true [pageDocument]).result = .ok [pageDomain] ∧ pageDomain.Refers "page.T" ∧
      (Denotes [pageDomain] pageDomain "page.T" ↔ Text.capitalize "page.T" = "page.T") := by
  have h := strict_references_denote readProtocol_pageDocument List.mem_cons_self pageDomain_refers
  exact ⟨readProtocol_pageDocument, pageDomain_refers, h.2.1 (by decide)⟩

/-- The check accepts the reference, which denotes nothing: the type is declared in the namespace `Page`. -/
theorem accepted_reference_without_type :
    (readProtocol true [pageDocument]).result = .ok [pageDomain] ∧ pageDomain.Refers "page.T" ∧
      ¬ Denotes [pageDomain] pageDomain "page.T" := by
  refine ⟨readProtocol_pageDocument, pageDomain_refers, fun hdenotes => ?_⟩
  have hmem : (⟨"T", .primitive ((((Place.document 0).key "domains").position 0 |>.key "types").position 0) "string"
      none, .null, ⟨false, false⟩⟩ : TypeDecl) ∈ pageDomain.types := List.mem_cons_self
  have hcapital := (denotes_iff_of_dotted List.mem_cons_self hmem (by decide) rfl).1 hdenotes
  exact absurd hcapital (by decide +kernel)

end ProtocolTypings
