import ProtocolTypings.Text.Lines

/-!
# The lines of a text put together

A line feed divides a text into parts whose lines follow one another, and nothing but the boundaries is lost in the
lines.
-/

namespace ProtocolTypings.Text

/-- A carriage return and the line feed after it are one boundary; any other character stands for itself. -/
theorem linesFrom_cons {c : Char} {rest : List Char} (h : ∀ after, c = '\r' → rest = '\n' :: after → False)
    (current : List Char) :
    linesFrom current (c :: rest) =
      if endsLine c then current.reverse :: linesFrom [] rest else linesFrom (c :: current) rest := by
  rw [linesFrom.eq_3]
  rintro after rfl rfl
  exact h after rfl rfl

theorem linesFrom_lineFeed (current b : List Char) :
    linesFrom current ('\n' :: b) = current.reverse :: linesFrom [] b := by
  rw [linesFrom_cons (by simp), if_pos (by decide)]

/-- The lines behind a line feed do not depend on what stands before it. -/
theorem linesFrom_append (current a b : List Char) :
    linesFrom current (a ++ '\n' :: b) = linesFrom current (a ++ ['\n']) ++ linesFrom [] b := by
  fun_induction linesFrom current a with
  | case1 current _ =>
      rw [List.nil_append, List.nil_append, linesFrom_lineFeed, linesFrom_lineFeed]
      rfl
  | case2 current _ =>
      rw [List.nil_append, List.nil_append, linesFrom_lineFeed, linesFrom_lineFeed]
      rfl
  | case3 current rest ih =>
      exact congrArg (current.reverse :: ·) ih
  | case4 current c rest hboth hends ih =>
      cases rest with
      | nil =>
          by_cases hc : c = '\r'
          -- the line feed behind a carriage return at the end belongs to the same boundary
          · subst hc
            rfl
          · have hne : ∀ after tail, c = '\r' → tail = '\n' :: after → False := fun _ _ h _ => hc h
            simp only [List.cons_append, List.nil_append] at ih ⊢
            rw [linesFrom_cons (hne · ('\n' :: b)), linesFrom_cons (hne · ['\n']), if_pos hends, if_pos hends, ih]
            rfl
      | cons d rest =>
          have hne : ∀ after tail, c = '\r' → d :: tail = '\n' :: after → False := by
            intro after tail hc hd
            exact hboth rest hc (by rw [(List.cons.inj hd).1])
          simp only [List.cons_append] at ih ⊢
          rw [linesFrom_cons (hne · _), linesFrom_cons (hne · _), if_pos hends, if_pos hends, ih]
          rfl
  | case5 current c rest hboth hends ih =>
      have hne : c ≠ '\r' := by
        rintro rfl
        exact hends (by decide)
      simp only [List.cons_append] at ih ⊢
      rw [linesFrom_cons (by simp [hne]), linesFrom_cons (by simp [hne]), if_neg hends, if_neg hends, ih]

/-- A character that is no boundary occurs as often in the lines as in the text. -/
theorem count_linesFrom {c : Char} (hc : endsLine c = false) (current s : List Char) :
    (linesFrom current s).flatten.count c = current.count c + s.count c := by
  fun_induction linesFrom current s with
  | case1 current h => simp_all
  | case2 current h => simp
  | case3 current rest ih =>
      have hr : '\r' ≠ c := by rintro rfl; exact absurd hc (by decide)
      have hn : '\n' ≠ c := by rintro rfl; exact absurd hc (by decide)
      simp [ih, hr, hn]
  | case4 current d rest hboth hends ih =>
      have hd : d ≠ c := by rintro rfl; rw [hc] at hends; cases hends
      simp [ih, hd]
  | case5 current d rest hboth hends ih =>
      rw [ih]
      simp only [List.count_cons]
      omega

theorem mem_of_mem_linesFrom {current s line : List Char} (h : line ∈ linesFrom current s) :
    ∀ c ∈ line, c ∈ current ∨ c ∈ s := by
  fun_induction linesFrom current s with
  | case1 current _ => cases h
  | case2 current _ =>
      intro c hc
      rw [List.mem_singleton.1 h, List.mem_reverse] at hc
      exact .inl hc
  | case3 current rest ih =>
      intro c hc
      rcases List.mem_cons.1 h with rfl | h
      · exact .inl (List.mem_reverse.1 hc)
      · rcases ih h c hc with hnil | hrest
        · cases hnil
        · exact .inr (List.mem_cons_of_mem _ (List.mem_cons_of_mem _ hrest))
  | case4 current d rest hboth hends ih =>
      intro c hc
      rcases List.mem_cons.1 h with rfl | h
      · exact .inl (List.mem_reverse.1 hc)
      · rcases ih h c hc with hnil | hrest
        · cases hnil
        · exact .inr (List.mem_cons_of_mem _ hrest)
  | case5 current d rest hboth hends ih =>
      intro c hc
      rcases ih h c hc with hcurrent | hrest
      · rcases List.mem_cons.1 hcurrent with rfl | hcurrent
        · exact .inr List.mem_cons_self
        · exact .inl hcurrent
      · exact .inr (List.mem_cons_of_mem _ hrest)

theorem endsLine_of_mem_linesFrom {current s line : List Char} (hcurrent : ∀ c ∈ current, endsLine c = false)
    (h : line ∈ linesFrom current s) : ∀ c ∈ line, endsLine c = false := by
  fun_induction linesFrom current s with
  | case1 current _ => cases h
  | case2 current _ =>
      intro c hc
      rw [List.mem_singleton.1 h, List.mem_reverse] at hc
      exact hcurrent c hc
  | case3 current rest ih =>
      rcases List.mem_cons.1 h with rfl | h
      · exact fun c hc => hcurrent c (List.mem_reverse.1 hc)
      · exact ih (by simp) h
  | case4 current d rest hboth hends ih =>
      rcases List.mem_cons.1 h with rfl | h
      · exact fun c hc => hcurrent c (List.mem_reverse.1 hc)
      · exact ih (by simp) h
  | case5 current d rest hboth hends ih =>
      refine ih (fun c hc => ?_) h
      rcases List.mem_cons.1 hc with rfl | hc
      · simpa using hends
      · exact hcurrent c hc

/-- A text without the end of a line. -/
def OneLine (s : String) : Prop :=
  ∀ c ∈ s.toList, endsLine c = false

instance (s : String) : Decidable (OneLine s) :=
  List.decidableBAll (fun c => endsLine c = false) s.toList

theorem OneLine.append {s t : String} (hs : OneLine s) (ht : OneLine t) : OneLine (s ++ t) := by
  intro c hc
  rw [String.toList_append] at hc
  rcases List.mem_append.1 hc with hc | hc
  · exact hs c hc
  · exact ht c hc

theorem oneLine_of_mem_lines {s line : String} (h : line ∈ lines s) : OneLine line := by
  intro c hc
  obtain ⟨chars, hchars, rfl⟩ := List.mem_map.1 h
  rw [String.toList_ofList] at hc
  exact endsLine_of_mem_linesFrom (by simp) hchars c hc

/-- A text without boundaries is the one line before the line feed that follows it. -/
theorem linesFrom_of_noBoundary {line : List Char} (h : ∀ c ∈ line, endsLine c = false) (current : List Char) :
    linesFrom current (line ++ ['\n']) = [current.reverse ++ line] := by
  induction line generalizing current with
  | nil =>
      rw [List.nil_append, linesFrom_lineFeed]
      simp [linesFrom]
  | cons c rest ih =>
      have hc : endsLine c = false := h c List.mem_cons_self
      have hne : c ≠ '\r' := by rintro rfl; exact absurd hc (by decide)
      rw [List.cons_append, linesFrom_cons (by simp [hne]), hc, if_neg (by simp),
        ih fun d hd => h d (List.mem_cons_of_mem _ hd)]
      simp

end ProtocolTypings.Text
