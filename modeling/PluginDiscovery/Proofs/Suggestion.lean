import Mathlib
import PluginDiscovery.Config.Suggestion

/-!
# The suggested key

The valid keys are gone through once, with the best key so far at hand. One more key takes its
place if it scores above the threshold and no lower than the best one (`closest?_concat`). So what
is at hand in the end is the last of the best keys above the threshold, and nothing only if no key
scores above it (`closest?_eq_some_iff`, `closest?_eq_none_iff`). In another order of the keys
another key may be suggested, but none with another score (`map_score_closest?`).

All this holds for scores in any linear order. Floating-point numbers are not linearly ordered, for
there is one that is not a number and there are two zeros. But they have ranks that are, and a
suggestion goes by the ranks of the similarities (`suggest?_eq_closest?`).
-/

namespace PluginDiscovery.Config

/-! ## One more key -/

section Step

variable {α : Type} [LT α] [DecidableLT α] {score : String → α} {threshold : α}

theorem bestAbove_concat (keys : List String) (key : String) :
    bestAbove score threshold (keys ++ [key]) =
      if threshold < score key then
        match bestAbove score threshold keys with
        | none => some (key, score key)
        | some (best, high) => if score key < high then some (best, high) else some (key, score key)
      else bestAbove score threshold keys := by
  rw [bestAbove, List.foldl_append, ← bestAbove]
  cases bestAbove score threshold keys <;> rfl

/-- The best key so far is at hand with its own score. -/
theorem snd_of_bestAbove {keys : List String} {best : String} {high : α}
    (h : bestAbove score threshold keys = some (best, high)) : high = score best := by
  induction keys using List.reverseRecOn generalizing best high with
  | nil => cases h
  | append_singleton keys key ih =>
    rw [bestAbove_concat] at h
    split at h
    · split at h
      · cases h
        rfl
      · next hbefore =>
        split at h
        · cases h
          exact ih hbefore
        · cases h
          rfl
    · exact ih h

/-- One more key is suggested if it scores above the threshold and not lower than the key that is
suggested without it. -/
theorem closest?_concat (keys : List String) (key : String) :
    closest? score threshold (keys ++ [key]) =
      if threshold < score key ∧
          ∀ best ∈ closest? score threshold keys, ¬ score key < score best then some key
      else closest? score threshold keys := by
  rw [closest?, closest?, bestAbove_concat]
  cases hbest : bestAbove score threshold keys with
  | none => by_cases habove : threshold < score key <;> simp [habove]
  | some entry =>
    obtain ⟨best, high⟩ := entry
    obtain rfl := snd_of_bestAbove hbest
    by_cases habove : threshold < score key <;>
      by_cases hlower : score key < score best <;> simp [habove, hlower]

/-- Other scores choose the same key if they are above their threshold where the first ones are, and
compare alike there. -/
theorem closest?_comp {β : Type} [LT β] [DecidableLT β] {f : α → β}
    (hthreshold : ∀ x, threshold < x ↔ f threshold < f x)
    (habove : ∀ x y, threshold < x → (x < y ↔ f x < f y)) (keys : List String) :
    closest? (fun key => f (score key)) (f threshold) keys = closest? score threshold keys := by
  induction keys using List.reverseRecOn with
  | nil => rfl
  | append_singleton keys key ih =>
    rw [closest?_concat, closest?_concat, ih]
    have hiff : (f threshold < f (score key) ∧
        ∀ best ∈ closest? score threshold keys, ¬ f (score key) < f (score best)) ↔
        (threshold < score key ∧
          ∀ best ∈ closest? score threshold keys, ¬ score key < score best) := by
      rw [← hthreshold]
      refine and_congr_right ?_
      intro hkey
      exact forall₂_congr fun best _ => not_congr (habove _ _ hkey).symm
    exact if_congr hiff rfl rfl

end Step

/-! ## The last of the best keys -/

section LinearOrder

variable {α : Type} [LinearOrder α] {score : String → α} {threshold : α}

/-- One of the keys scores above the threshold and no key scores higher, and every key after its
last occurrence scores lower. -/
structure LastBest (score : String → α) (threshold : α) (keys : List String) (key : String) :
    Prop where
  /-- The key scores above the threshold. -/
  above : threshold < score key
  /-- No key scores higher. -/
  highest : ∀ other ∈ keys, score other ≤ score key
  /-- After its last occurrence every key scores lower. -/
  last : ∃ before after, keys = before ++ key :: after ∧ key ∉ after ∧
    ∀ other ∈ after, score other < score key

namespace LastBest

variable {keys : List String} {key best : String}

theorem mem (h : LastBest score threshold keys key) : key ∈ keys := by
  obtain ⟨before, after, rfl, -, -⟩ := h.last
  exact List.mem_append_right _ List.mem_cons_self

/-- A key at the end is the last of the best ones if none scores higher. -/
theorem concat_self (habove : threshold < score key)
    (hhighest : ∀ other ∈ keys, score other ≤ score key) :
    LastBest score threshold (keys ++ [key]) key where
  above := habove
  highest := by
    rw [List.forall_mem_append, List.forall_mem_singleton]
    exact ⟨hhighest, le_rfl⟩
  last := ⟨keys, [], rfl, List.not_mem_nil, fun _ hother => absurd hother List.not_mem_nil⟩

/-- The last of the best keys stays so when one more key scores lower. -/
theorem concat_lower (h : LastBest score threshold keys best) (hlower : score key < score best) :
    LastBest score threshold (keys ++ [key]) best where
  above := h.above
  highest := by
    rw [List.forall_mem_append, List.forall_mem_singleton]
    exact ⟨h.highest, hlower.le⟩
  last := by
    obtain ⟨before, after, rfl, hnot, hafter⟩ := h.last
    refine ⟨before, after ++ [key], by simp, ?_, ?_⟩
    · rw [List.mem_append, List.mem_singleton, not_or]
      exact ⟨hnot, fun hsame => hlower.ne (congrArg score hsame.symm)⟩
    · rw [List.forall_mem_append, List.forall_mem_singleton]
      exact ⟨hafter, hlower⟩

/-- If every key after the first one scores lower, only the first key itself scores as high. -/
theorem eq_of_cons_eq_append {after between rest : List String}
    (hafter : ∀ other ∈ after, score other < score key) (hsame : score best = score key)
    (hsplit : key :: after = between ++ best :: rest) : key = best := by
  cases between with
  | nil => exact (List.cons.inj hsplit).1
  | cons _ between =>
    have hmem : best ∈ after := by
      rw [(List.cons.inj hsplit).2]
      exact List.mem_append_right _ List.mem_cons_self
    exact absurd hsame (hafter best hmem).ne

/-- Only one key is the last of the best ones. -/
theorem unique (h : LastBest score threshold keys key)
    (hbest : LastBest score threshold keys best) : key = best := by
  have hsame : score key = score best :=
    le_antisymm (hbest.highest key h.mem) (h.highest best hbest.mem)
  obtain ⟨before, after, rfl, -, hafter⟩ := h.last
  obtain ⟨before', after', hsplit, -, hafter'⟩ := hbest.last
  -- Both are splits of one list, so one occurrence is the other one or stands after it.
  rcases List.append_eq_append_iff.1 hsplit with ⟨between, -, hrest⟩ | ⟨between, -, hrest⟩
  · exact eq_of_cons_eq_append hafter hsame.symm hrest
  · exact (eq_of_cons_eq_append hafter' hsame hrest).symm

end LastBest

/-- What is at hand after any number of keys is the last of the best ones, and nothing is at hand
only while none scores above the threshold. -/
theorem closest?_run (score : String → α) (threshold : α) (keys : List String) :
    (∀ key ∈ closest? score threshold keys, LastBest score threshold keys key) ∧
      (closest? score threshold keys = none → ∀ key ∈ keys, ¬ threshold < score key) := by
  induction keys using List.reverseRecOn with
  | nil => exact ⟨nofun, fun _ _ hkey => absurd hkey List.not_mem_nil⟩
  | append_singleton keys key ih =>
    obtain ⟨hsome, hnone⟩ := ih
    rw [closest?_concat]
    split
    · next htaken =>
      obtain ⟨habove, hnotLower⟩ := htaken
      refine ⟨?_, nofun⟩
      rintro _ ⟨⟩
      refine LastBest.concat_self habove ?_
      intro other hother
      cases hbest : closest? score threshold keys with
      | none => exact (not_lt.1 (hnone hbest other hother)).trans habove.le
      | some best =>
        exact ((hsome best hbest).highest other hother).trans (not_lt.1 (hnotLower best hbest))
    · next hleft =>
      refine ⟨?_, ?_⟩
      · intro best hbest
        refine (hsome best hbest).concat_lower ?_
        -- A key that scores as high as the best one is above the threshold, so it would be taken.
        by_contra hnotLower
        refine hleft ⟨(hsome best hbest).above.trans_le (not_lt.1 hnotLower), ?_⟩
        intro other hother
        rw [Option.mem_unique hother hbest]
        exact hnotLower
      · intro hbest
        rw [List.forall_mem_append, List.forall_mem_singleton]
        refine ⟨hnone hbest, ?_⟩
        intro habove
        exact hleft ⟨habove, fun best hmem => absurd (hbest.symm.trans hmem) nofun⟩

theorem closest?_eq_none_iff {keys : List String} :
    closest? score threshold keys = none ↔ ∀ key ∈ keys, ¬ threshold < score key := by
  refine ⟨(closest?_run score threshold keys).2, ?_⟩
  intro hnone
  rw [Option.eq_none_iff_forall_not_mem]
  intro key hkey
  have hbest := (closest?_run score threshold keys).1 key hkey
  exact hnone key hbest.mem hbest.above

theorem closest?_eq_some_iff {keys : List String} {key : String} :
    closest? score threshold keys = some key ↔ LastBest score threshold keys key := by
  refine ⟨(closest?_run score threshold keys).1 key, ?_⟩
  intro hkey
  cases hbest : closest? score threshold keys with
  | none => exact absurd hkey.above (closest?_eq_none_iff.1 hbest key hkey.mem)
  | some best => rw [((closest?_run score threshold keys).1 best hbest).unique hkey]

/-- How high the suggested key scores depends only on which keys there are. -/
theorem map_score_closest? {keys others : List String} (h : ∀ key, key ∈ keys ↔ key ∈ others) :
    (closest? score threshold keys).map score = (closest? score threshold others).map score := by
  cases hkeys : closest? score threshold keys with
  | none =>
    have hothers : closest? score threshold others = none :=
      closest?_eq_none_iff.2 fun key hkey => closest?_eq_none_iff.1 hkeys key ((h key).2 hkey)
    rw [hothers]
  | some key =>
    have hkey := closest?_eq_some_iff.1 hkeys
    cases hothers : closest? score threshold others with
    | none => exact absurd hkey.above (closest?_eq_none_iff.1 hothers key ((h key).1 hkey.mem))
    | some other =>
      have hother := closest?_eq_some_iff.1 hothers
      have hle := hkey.highest other ((h other).2 hother.mem)
      have hge := hother.highest key ((h key).1 hkey.mem)
      exact congrArg some (le_antisymm hge hle)

/-- A choice among keys goes by their scores: nothing is chosen only where no key scores above the
threshold, else the last of the best keys, with the same score in every order of the keys. -/
structure ByScore (score : String → α) (threshold : α) (choose : List String → Option String) :
    Prop where
  /-- Nothing is chosen if and only if no key scores above the threshold. -/
  eq_none_iff : ∀ keys, choose keys = none ↔ ∀ key ∈ keys, ¬ threshold < score key
  /-- A key is chosen if and only if it is the last of the best ones. -/
  eq_some_iff : ∀ keys key, choose keys = some key ↔ LastBest score threshold keys key
  /-- The order of the keys makes no difference to the score. -/
  map_score_eq : ∀ keys others, keys.Perm others →
    (choose keys).map score = (choose others).map score

theorem byScore_closest? (score : String → α) (threshold : α) :
    ByScore score threshold (closest? score threshold) where
  eq_none_iff _ := closest?_eq_none_iff
  eq_some_iff _ _ := closest?_eq_some_iff
  map_score_eq _ _ hperm := map_score_closest? fun _ => hperm.mem_iff

end LinearOrder

/-! ## Floating-point scores -/

section Ranks

open Float.Model (UnpackedFloat)

/-- The rank of a floating-point number taken apart. It goes by what kind of number this is, then by
its exponent and its significand, which count downwards for a negative number. What is not a number
ranks lowest, and the two zeros rank alike. -/
def rankOf : UnpackedFloat → ℤ ×ₗ ℤ ×ₗ ℤ
  | .notANumber => toLex (-3, toLex (0, 0))
  | .infinity .negative => toLex (-2, toLex (0, 0))
  | .finite .negative significand exponent _ => toLex (-1, toLex (-exponent, -significand))
  | .zero _ => toLex (0, toLex (0, 0))
  | .finite .positive significand exponent _ => toLex (1, toLex (exponent, significand))
  | .infinity .positive => toLex (2, toLex (0, 0))

/-- The rank of a floating-point number. -/
def rank (x : Float) : ℤ ×ₗ ℤ ×ₗ ℤ := rankOf x.toModel.unpack

theorem compare_eq_lt_iff (a b : UnpackedFloat) :
    a.compare b = some .lt ↔ a.isNaN = false ∧ rankOf a < rankOf b := by
  have hsigns : compare UnpackedFloat.Sign.negative UnpackedFloat.Sign.positive = .lt := rfl
  -- Exponents and significands count only between two finite numbers of one sign.
  rcases a with (_ | _) | _ | _ | ⟨_ | _, _, _, _⟩ <;>
    rcases b with (_ | _) | _ | _ | ⟨_ | _, _, _, _⟩ <;>
      simp [UnpackedFloat.compare, UnpackedFloat.isNaN, rankOf, Prod.Lex.toLex_lt_toLex, hsigns,
        Ordering.then_eq_lt, Ordering.then_eq_gt, compare_lt_iff_lt, compare_gt_iff_gt]

/-- Numbers are ordered as their ranks. -/
theorem lt_iff_rank_lt (a b : Float) : a < b ↔ a.isNaN = false ∧ rank a < rank b := by
  change decide (a.toModel < b.toModel) = true ↔ _
  rw [decide_eq_true_iff]
  change a.toModel.unpack.lt b.toModel.unpack = true ↔ _
  rw [UnpackedFloat.lt, beq_iff_eq]
  exact compare_eq_lt_iff _ _

theorem isNaN_of_rankOf_lt {a b : UnpackedFloat} (h : rankOf a < rankOf b) : b.isNaN = false := by
  cases b with
  | notANumber =>
    rcases a with (_ | _) | _ | _ | ⟨_ | _, _, _, _⟩ <;>
      simp [rankOf, Prod.Lex.toLex_lt_toLex] at h
  | infinity => rfl
  | zero => rfl
  | finite => rfl

theorem isNaN_of_lt {a b : Float} (h : a < b) : b.isNaN = false :=
  isNaN_of_rankOf_lt ((lt_iff_rank_lt a b).1 h).2

theorem isNaN_suggestionThreshold : suggestionThreshold.isNaN = false := by decide

/-- Suggestions go by the ranks of the similarities. -/
theorem suggest?_eq_closest? (unknown : String) :
    suggest? unknown =
      closest? (fun key => rank (Text.similarity unknown key)) (rank suggestionThreshold) := by
  funext valid
  refine (closest?_comp ?_ ?_ valid).symm
  · intro x
    rw [lt_iff_rank_lt]
    exact and_iff_right isNaN_suggestionThreshold
  · intro x y hx
    rw [lt_iff_rank_lt]
    exact and_iff_right (isNaN_of_lt hx)

end Ranks

/-- Among keys with scores in any linear order the choice goes by their scores. So do suggestions,
by the ranks of the similarities, and floating-point numbers are ordered as their ranks. -/
theorem suggestions_by_score {α : Type} [LinearOrder α] (score : String → α) (threshold : α) :
    ByScore score threshold (closest? score threshold) ∧
      (∀ unknown, ByScore (fun key => rank (Text.similarity unknown key)) (rank suggestionThreshold)
        (suggest? unknown)) ∧
      ∀ a b : Float, a < b ↔ a.isNaN = false ∧ rank a < rank b := by
  refine ⟨byScore_closest? score threshold, ?_, lt_iff_rank_lt⟩
  intro unknown
  rw [suggest?_eq_closest? unknown]
  exact byScore_closest? _ _

/-- Of equally good keys the last one is chosen. -/
example : closest? String.length 1 ["ab", "abc", "xyz", "a"] = some "xyz" := by decide

example : suggest? "serch_path" ["filter", "search_path", "standard_namespace"] =
    some "search_path" := by decide +kernel

end PluginDiscovery.Config
