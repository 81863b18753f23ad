import PluginDiscovery.Proofs.KeyPosition

/-!
# Lines of texts

A text is cut into lines in one way: a line feed ends every line but the last, and stands nowhere
else (`AreLines`, `areLines_linesOf`, `linesOf_flatten`). Wherever a text is cut in two, there are
whole lines before the cut, and then the opening of the line that the cut is in
(`exists_linesOf_append`).
-/

namespace PluginDiscovery.Config

/-- Lines as a text has them: a line feed ends every line but the last, and stands nowhere else. -/
inductive AreLines : List (List Char) → Prop
  /-- There are no lines. -/
  | nil : AreLines []
  /-- The text ends within its last line. -/
  | last {line : List Char} : line ≠ [] → '\n' ∉ line → AreLines [line]
  /-- A line that is ended, and those after it. -/
  | cons {line : List Char} {rest : List (List Char)} : '\n' ∉ line → AreLines rest →
      AreLines ((line ++ ['\n']) :: rest)

theorem linesOf_of_not_mem {line : List Char} (hne : line ≠ []) (h : '\n' ∉ line) :
    linesOf line = [line] := by
  induction line with
  | nil => exact absurd rfl hne
  | cons c rest ih =>
    have hc : c ≠ '\n' := fun heq => h (heq ▸ List.mem_cons_self)
    have hrest : '\n' ∉ rest := fun hmem => h (List.mem_cons_of_mem _ hmem)
    unfold linesOf
    rw [if_neg hc]
    by_cases hnil : rest = []
    · rw [hnil]
      rfl
    · rw [ih hnil hrest]

theorem linesOf_append_cons {line : List Char} (h : '\n' ∉ line) (rest : List Char) :
    linesOf (line ++ '\n' :: rest) = (line ++ ['\n']) :: linesOf rest := by
  induction line with
  | nil => rfl
  | cons c line ih =>
    have hc : c ≠ '\n' := fun heq => h (heq ▸ List.mem_cons_self)
    have hline : '\n' ∉ line := fun hmem => h (List.mem_cons_of_mem _ hmem)
    rw [List.cons_append, linesOf, if_neg hc, ih hline]
    rfl

theorem areLines_linesOf (text : List Char) : AreLines (linesOf text) := by
  induction text using line_induction '\n' with
  | last line hline =>
    by_cases hnil : line = []
    · rw [hnil]
      exact .nil
    · rw [linesOf_of_not_mem hnil hline]
      exact .last hnil hline
  | more line rest hline ih =>
    rw [linesOf_append_cons hline]
    exact .cons hline ih

theorem linesOf_flatten {lines : List (List Char)} (h : AreLines lines) :
    linesOf lines.flatten = lines := by
  induction h with
  | nil => rfl
  | last hne hline =>
    rw [List.flatten_singleton]
    exact linesOf_of_not_mem hne hline
  | @cons line rest hline _ ih =>
    have hflatten : ((line ++ ['\n']) :: rest).flatten = line ++ '\n' :: rest.flatten := by
      rw [List.flatten_cons, List.append_assoc]
      rfl
    rw [hflatten, linesOf_append_cons hline, ih]

theorem AreLines.tail {line : List Char} {rest : List (List Char)} (h : AreLines (line :: rest)) :
    AreLines rest := by
  cases h with
  | last => exact .nil
  | cons _ hrest => exact hrest

/-- Before another line there is nothing or a line feed. -/
theorem AreLines.feed_of_append_cons {first : List (List Char)} {line : List Char}
    {rest : List (List Char)} (h : AreLines (first ++ line :: rest)) (hne : first ≠ []) :
    ∃ text, first.flatten = text ++ ['\n'] := by
  induction first with
  | nil => exact absurd rfl hne
  | cons head first ih =>
    by_cases hnil : first = []
    · subst hnil
      rw [List.flatten_singleton]
      generalize hlines : [head] ++ line :: rest = lines at h
      cases h with
      | nil => cases hlines
      | last => cases hlines
      | @cons body _ _ _ =>
        cases hlines
        exact ⟨body, rfl⟩
    · obtain ⟨text, htext⟩ := ih h.tail hnil
      exact ⟨head ++ text, by rw [List.flatten_cons, htext, List.append_assoc]⟩

/-- A line goes on where a text does that has no line feed. -/
theorem linesOf_append_of_not_mem {opening : List Char} (h : '\n' ∉ opening) {rest line : List Char}
    {lines : List (List Char)} (hrest : linesOf rest = line :: lines) :
    linesOf (opening ++ rest) = (opening ++ line) :: lines := by
  induction opening with
  | nil => exact hrest
  | cons c opening ih =>
    have hc : c ≠ '\n' := fun heq => h (heq ▸ List.mem_cons_self)
    have hopening : '\n' ∉ opening := fun hmem => h (List.mem_cons_of_mem _ hmem)
    rw [List.cons_append, linesOf, if_neg hc, ih hopening]
    rfl

/-- Before a cut in a text there are whole lines and the opening of the line that comes next. -/
theorem exists_linesOf_append (before : List Char) :
    ∃ above opening, before = above.flatten ++ opening ∧
      ∀ rest line lines, linesOf rest = line :: lines →
        linesOf (before ++ rest) = above ++ (opening ++ line) :: lines := by
  induction before using line_induction '\n' with
  | last opening hopening =>
    exact ⟨[], opening, rfl, fun _ _ _ => linesOf_append_of_not_mem hopening⟩
  | more first before hfirst ih =>
    obtain ⟨above, opening, rfl, hlines⟩ := ih
    refine ⟨(first ++ ['\n']) :: above, opening, by simp, ?_⟩
    intro rest line lines hrest
    rw [List.append_assoc, List.cons_append, linesOf_append_cons hfirst,
      hlines rest line lines hrest]
    rfl

end PluginDiscovery.Config
