/-!
# Blank text

Blank characters are the twenty-five that Unicode gives the property White_Space. Trimming removes
them from the ends of a text, and from nowhere else.
-/

namespace PluginDiscovery.Text

/-- The code points with the property White_Space, as first and last of each run. -/
def blankRanges : List (Nat × Nat) :=
  [(0x9, 0xD), (0x20, 0x20), (0x85, 0x85), (0xA0, 0xA0), (0x1680, 0x1680), (0x2000, 0x200A),
    (0x2028, 0x2029), (0x202F, 0x202F), (0x205F, 0x205F), (0x3000, 0x3000)]

/-- Whether a character has the property White_Space. -/
def isBlank (c : Char) : Bool := blankRanges.any fun run => run.1 ≤ c.toNat && c.toNat ≤ run.2

/-- No visible character of ASCII is blank. -/
theorem isBlank_of_visible {c : Char} (h : 33 ≤ c.toNat ∧ c.toNat ≤ 126) : isBlank c = false := by
  simp only [isBlank, blankRanges, List.any_cons, List.any_nil, Bool.or_false,
    Bool.or_eq_false_iff, Bool.and_eq_false_iff, decide_eq_false_iff_not]
  omega

/-- The text without the blanks at its start. -/
def trimStart (text : List Char) : List Char := text.dropWhile isBlank

/-- The text without the blanks at its end. -/
def trimEnd (text : List Char) : List Char := (text.reverse.dropWhile isBlank).reverse

/-- The text without the blanks at its ends. -/
def trim (text : String) : String := String.ofList (trimEnd (trimStart text.toList))

/-! ## Texts without blanks -/

theorem trimStart_eq_self {text : List Char} (h : ∀ c ∈ text, isBlank c = false) :
    trimStart text = text := by
  cases text with
  | nil => rfl
  | cons c rest => simp [trimStart, h c List.mem_cons_self]

theorem trimEnd_eq_self {text : List Char} (h : ∀ c ∈ text, isBlank c = false) :
    trimEnd text = text := by
  have hreverse : trimStart text.reverse = text.reverse :=
    trimStart_eq_self fun c hc => h c (List.mem_reverse.1 hc)
  have htrim : trimEnd text = (trimStart text.reverse).reverse := rfl
  rw [htrim, hreverse, List.reverse_reverse]

theorem trim_eq_self {text : String} (h : ∀ c ∈ text.toList, isBlank c = false) :
    trim text = text := by
  rw [trim, trimStart_eq_self h, trimEnd_eq_self h, String.ofList_toList]

/-! ## What trimming takes away -/

/-- Trimming takes away nothing but blanks. -/
theorem exists_append_trim (text : List Char) :
    ∃ first last, text = first ++ trimEnd (trimStart text) ++ last ∧
      (∀ c ∈ first, isBlank c = true) ∧ ∀ c ∈ last, isBlank c = true := by
  have hstart : text.takeWhile isBlank ++ trimStart text = text :=
    List.takeWhile_append_dropWhile
  have hend : trimEnd (trimStart text) ++ ((trimStart text).reverse.takeWhile isBlank).reverse =
      trimStart text := by
    rw [trimEnd, ← List.reverse_append, List.takeWhile_append_dropWhile, List.reverse_reverse]
  refine ⟨text.takeWhile isBlank, ((trimStart text).reverse.takeWhile isBlank).reverse, ?_, ?_, ?_⟩
  · rw [List.append_assoc, hend, hstart]
  · intro c hc
    exact List.all_eq_true.1 List.all_takeWhile c hc
  · intro c hc
    exact List.all_eq_true.1 List.all_takeWhile c (List.mem_reverse.1 hc)

theorem trimEnd_concat (text : List Char) {c : Char} (h : isBlank c = true) :
    trimEnd (text ++ [c]) = trimEnd text := by
  unfold trimEnd
  rw [List.reverse_concat, List.dropWhile_cons_of_pos h]

/-- Trimming takes away a blank that is put at the end. -/
theorem trim_concat (text : List Char) {c : Char} (h : isBlank c = true) :
    trim (String.ofList (text ++ [c])) = trim (String.ofList text) := by
  unfold trim trimStart
  rw [String.toList_ofList, String.toList_ofList, List.dropWhile_append]
  by_cases hblank : (text.dropWhile isBlank).isEmpty = true
  · have hnil : text.dropWhile isBlank = [] := List.isEmpty_iff.1 hblank
    rw [if_pos hblank, hnil, List.dropWhile_cons_of_pos h, List.dropWhile_nil]
  · rw [if_neg hblank, trimEnd_concat _ h]

end PluginDiscovery.Text
