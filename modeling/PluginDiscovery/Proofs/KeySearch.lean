import Mathlib.Order.Nat
import PluginDiscovery.Proofs.Lines

/-!
# The search for a key, line by line

The search for a key is told here without the functions that carry it out. It starts at the start
of a text or at the end of the first occurrence of the header of a table, as bytes
(`SearchStart`). From there on the text is cut into lines (`LinesFrom`), and a line gives a key if,
its leading blanks apart, it starts with the key and a character that may follow it (`GivesKey`).
Such a start is never within a character, and the search finds the key in the first line that gives
it (`key_found_line_by_line`).
-/

namespace PluginDiscovery.Config

/-! ## First occurrences -/

/-- A part occurs in a list after some items and before others, and nowhere earlier. -/
structure FirstAfter {α : Type} (part whole first rest : List α) : Prop where
  /-- The part occurs there. -/
  occurs : whole = first ++ part ++ rest
  /-- Wherever else it occurs, there are at least as many items before it. -/
  least : ∀ other after, whole = other ++ part ++ after → first.length ≤ other.length

section FirstAfter

variable {α : Type} {part whole first rest : List α}

theorem exists_firstAfter (h : part <:+: whole) :
    ∃ first rest, FirstAfter part whole first rest := by
  classical
  have hoccurs : ∃ n, ∃ first rest, whole = first ++ part ++ rest ∧ first.length = n := by
    obtain ⟨first, rest, hwhole⟩ := h
    exact ⟨first.length, first, rest, hwhole.symm, rfl⟩
  obtain ⟨first, rest, hwhole, hlength⟩ := Nat.find_spec hoccurs
  refine ⟨first, rest, hwhole, ?_⟩
  intro other after hother
  rw [hlength]
  exact Nat.find_min' hoccurs ⟨other, after, hother, rfl⟩

theorem FirstAfter.not_prefix_drop (h : FirstAfter part whole first rest) {k : Nat}
    (hk : k < first.length) : ¬part <+: whole.drop k := by
  rintro ⟨after, hafter⟩
  have hwhole : whole = whole.take k ++ part ++ after := by
    rw [List.append_assoc, hafter, List.take_append_drop]
  have hle := h.least _ _ hwhole
  have htake : (whole.take k).length ≤ k := List.length_take_le k whole
  omega

end FirstAfter

theorem after?_of_not_prefix {part text : List Char} {c : Char} (h : ¬part <+: c :: text) :
    after? part (c :: text) =
      (after? part text).map fun (offset, left) => (offset + c.utf8Size, left) := by
  have hnot : ¬part.isPrefixOf (c :: text) = true := fun hpart =>
    h (List.isPrefixOf_iff_prefix.1 hpart)
  rw [after?, if_neg hnot]

/-- What comes after a part is found where the part occurs first. -/
theorem after?_append {part first rest : List Char}
    (h : ∀ k < first.length, ¬part <+: (first ++ part ++ rest).drop k) :
    after? part (first ++ part ++ rest) = some (byteLength (first ++ part), rest) := by
  induction first with
  | nil =>
    rw [List.nil_append]
    cases part with
    | nil => cases rest <;> rfl
    | cons c part =>
      have hprefix : (c :: part).isPrefixOf (c :: part ++ rest) = true :=
        List.isPrefixOf_iff_prefix.2 (List.prefix_append _ _)
      rw [List.cons_append] at hprefix ⊢
      rw [after?, if_pos hprefix, ← List.cons_append, List.drop_left]
  | cons c first ih =>
    have hhead : ¬part <+: c :: (first ++ part ++ rest) := h 0 (Nat.zero_lt_succ _)
    have hrest : ∀ k < first.length, ¬part <+: (first ++ part ++ rest).drop k := by
      intro k hk
      exact h (k + 1) (Nat.succ_lt_succ hk)
    rw [List.cons_append, List.cons_append, after?_of_not_prefix hhead, ih hrest, Option.map_some,
      byteLength_cons, Nat.add_comm]

/-- What comes after a part is what follows its first occurrence. -/
theorem after?_eq_some_iff {part text rest : List Char} {offset : Nat} :
    after? part text = some (offset, rest) ↔
      ∃ first, FirstAfter part text first rest ∧ offset = (encode (first ++ part)).length := by
  have hfound : ∀ {first rest}, FirstAfter part text first rest →
      after? part text = some ((encode (first ++ part)).length, rest) := by
    intro first rest h
    have hnot : ∀ k < first.length, ¬part <+: (first ++ part ++ rest).drop k := by
      intro k hk
      rw [← h.occurs]
      exact h.not_prefix_drop hk
    rw [h.occurs, after?_append hnot, byteLength_eq_length_encode]
  constructor
  · intro h
    obtain ⟨before, htext, -⟩ := after?_eq_some h
    obtain ⟨first, left, hfirst⟩ := exists_firstAfter ⟨before, rest, htext.symm⟩
    rw [hfound hfirst] at h
    cases h
    exact ⟨first, hfirst, rfl⟩
  · rintro ⟨first, h, rfl⟩
    exact hfound h

/-- A text that starts with a character of ASCII occurs first where its bytes do. -/
theorem firstAfter_encode_iff {c : Char} (hc : c.toNat ≤ 127) {part text : List Char}
    {first rest : List UInt8} :
    FirstAfter (encode (c :: part)) (encode text) first rest ↔
      ∃ before after, FirstAfter (c :: part) text before after ∧ encode before = first ∧
        encode after = rest := by
  constructor
  · intro h
    obtain ⟨before, after, htext, rfl, rfl⟩ := (encode_eq_append_encode_iff hc).1 h.occurs
    refine ⟨before, after, ⟨htext, ?_⟩, rfl, rfl⟩
    intro other more hother
    have hle := h.least (encode other) (encode more)
      ((encode_eq_append_encode_iff hc).2 ⟨other, more, hother, rfl, rfl⟩)
    have hbefore : before <+: text := ⟨c :: part ++ after, by rw [htext, List.append_assoc]⟩
    have hprefix : other <+: text := ⟨c :: part ++ more, by rw [hother, List.append_assoc]⟩
    exact (length_encode_le_iff hbefore hprefix).1 hle
  · rintro ⟨before, after, h, rfl, rfl⟩
    refine ⟨(encode_eq_append_encode_iff hc).2 ⟨before, after, h.occurs, rfl, rfl⟩, ?_⟩
    intro bytes more hbytes
    obtain ⟨other, others, hother, rfl, -⟩ := (encode_eq_append_encode_iff hc).1 hbytes
    have hle := h.least other others hother
    have hbefore : before <+: text := ⟨c :: part ++ after, by rw [h.occurs, List.append_assoc]⟩
    have hprefix : other <+: text := ⟨c :: part ++ others, by rw [hother, List.append_assoc]⟩
    exact (length_encode_le_iff hbefore hprefix).2 hle

/-! ## Where the search starts -/

/-- The offset in bytes at which the search for the key of a path starts: that of the whole text, or
that of what follows the first occurrence of the header of the table. -/
inductive SearchStart (content : String) : List String → Nat → Prop
  /-- Without a path the whole text is searched. -/
  | top : SearchStart content [] 0
  /-- A path names a table by its first component. -/
  | table {name : String} {path : List String} {first rest : List UInt8} :
      FirstAfter (bytesOf ("[" ++ name ++ "]")) (bytesOf content) first rest →
      SearchStart content (name :: path) (first ++ bytesOf ("[" ++ name ++ "]")).length

theorem bytesOf_header (name : String) :
    bytesOf ("[" ++ name ++ "]") = encode ('[' :: (name.toList ++ [']'])) := by
  rw [bytesOf_eq_encode, String.toList_append, String.toList_append]
  rfl

theorem searchStart_table_iff {content name : String} {path : List String} {start : Nat} :
    SearchStart content (name :: path) start ↔
      ∃ rest, after? (header name) content.toList = some (start, rest) := by
  have hascii : '['.toNat ≤ 127 := by decide
  constructor
  · intro h
    cases h with
    | table hfirst =>
      rw [bytesOf_header, bytesOf_eq_encode] at hfirst
      obtain ⟨before, after, hbefore, rfl, -⟩ := (firstAfter_encode_iff hascii).1 hfirst
      refine ⟨after, after?_eq_some_iff.2 ⟨before, hbefore, ?_⟩⟩
      rw [bytesOf_header, ← encode_append]
      rfl
  · rintro ⟨rest, hrest⟩
    obtain ⟨before, hbefore, rfl⟩ := after?_eq_some_iff.1 hrest
    have hfirst : FirstAfter (bytesOf ("[" ++ name ++ "]")) (bytesOf content) (encode before)
        (encode rest) := by
      rw [bytesOf_header, bytesOf_eq_encode]
      exact (firstAfter_encode_iff hascii).2 ⟨before, rest, hbefore, rfl, rfl⟩
    have hlength : (encode (before ++ header name)).length =
        (encode before ++ bytesOf ("[" ++ name ++ "]")).length := by
      rw [encode_append, bytesOf_header]
      rfl
    rw [hlength]
    exact .table hfirst

/-- The lines of a text from an offset in bytes on. The offset is between two characters. -/
def LinesFrom (content : String) (start : Nat) (lines : List (List Char)) : Prop :=
  AreLines lines ∧ ∃ before, content.toList = before ++ lines.flatten ∧
    start = (encode before).length

/-- There is one way to cut what follows some characters into lines. -/
theorem linesFrom_iff {content : String} {before rest : List Char}
    (hcontent : content.toList = before ++ rest) {lines : List (List Char)} :
    LinesFrom content (encode before).length lines ↔ lines = linesOf rest := by
  constructor
  · rintro ⟨hlines, other, hother, hlength⟩
    have hbefore : before <+: content.toList := ⟨rest, hcontent.symm⟩
    have hprefix : other <+: content.toList := ⟨lines.flatten, hother.symm⟩
    rw [eq_of_length_encode hprefix hbefore hlength.symm] at hother
    have hrest := List.append_cancel_left (hcontent.symm.trans hother)
    rw [hrest, linesOf_flatten hlines]
  · rintro rfl
    exact ⟨areLines_linesOf rest, before, by rw [flatten_linesOf, hcontent], rfl⟩

/-- A search starts between two characters and goes through the lines of the rest. -/
theorem SearchStart.keyOffset?_eq {content : String} {path : List String} {start : Nat}
    (h : SearchStart content path start) (key : String) :
    ∃ before rest, content.toList = before ++ rest ∧ start = (encode before).length ∧
      keyOffset? content path key = offsetFrom? key.toList start (linesOf rest) := by
  cases path with
  | nil =>
    cases h
    exact ⟨[], content.toList, rfl, rfl, rfl⟩
  | cons name path =>
    obtain ⟨rest, hafter⟩ := searchStart_table_iff.1 h
    obtain ⟨first, hfirst, hstart⟩ := after?_eq_some_iff.1 hafter
    refine ⟨first ++ header name, rest, hfirst.occurs, hstart, ?_⟩
    simp only [keyOffset?, hafter, Option.bind_eq_bind, Option.bind_some]

/-- A key is only found if the search starts somewhere. -/
theorem exists_searchStart {content : String} {path : List String} {key : String} {offset : Nat}
    (h : keyOffset? content path key = some offset) : ∃ start, SearchStart content path start := by
  cases path with
  | nil => exact ⟨0, .top⟩
  | cons name path =>
    obtain ⟨⟨start, rest⟩, hafter, -⟩ := Option.bind_eq_some_iff.1 h
    exact ⟨start, searchStart_table_iff.2 ⟨rest, hafter⟩⟩

/-! ## Lines that give a key -/

/-- A line gives a key after some blanks: from its first character on that is no blank it starts
with the key and a character that may follow it. -/
structure GivesKey (key line blanks : List Char) : Prop where
  /-- The blanks are blanks. -/
  blank : ∀ c ∈ blanks, Text.isBlank c = true
  /-- They are all the blanks that the line starts with, and the key comes after them. -/
  given : ∃ first body next, line = blanks ++ first :: body ∧ Text.isBlank first = false ∧
    FollowsKey next ∧ key ++ [next] <+: first :: body

theorem offsetIn?_eq_some_iff_trimStart {key line : List Char} {offset : Nat} :
    offsetIn? key line = some offset ↔
      (∃ next, FollowsKey next ∧ key ++ [next] <+: Text.trimStart line) ∧
        offset = byteLength line - byteLength (Text.trimStart line) := by
  unfold offsetIn?
  simp only
  generalize Text.trimStart line = text
  constructor
  · intro h
    split at h
    · next hkey =>
      obtain ⟨body, rfl⟩ := List.isPrefixOf_iff_prefix.1 hkey
      have hgives : ∀ next rest, (key ++ body).drop key.length = next :: rest →
          key ++ [next] <+: key ++ body := by
        intro next rest hdrop
        rw [List.drop_left] at hdrop
        exact ⟨rest, by rw [hdrop, List.append_assoc, List.singleton_append]⟩
      split at h
      · next rest hdrop =>
        cases h
        exact ⟨⟨' ', .inl rfl, hgives _ rest hdrop⟩, rfl⟩
      · next rest hdrop =>
        cases h
        exact ⟨⟨'=', .inr (.inl rfl), hgives _ rest hdrop⟩, rfl⟩
      · next rest hdrop =>
        cases h
        exact ⟨⟨'\t', .inr (.inr rfl), hgives _ rest hdrop⟩, rfl⟩
      · cases h
    · cases h
  · rintro ⟨⟨next, hnext, rest, rfl⟩, rfl⟩
    have hkey : key.isPrefixOf (key ++ [next] ++ rest) = true :=
      List.isPrefixOf_iff_prefix.2 ⟨[next] ++ rest, (List.append_assoc _ _ _).symm⟩
    have hdrop : (key ++ [next] ++ rest).drop key.length = next :: rest := by
      rw [List.append_assoc, List.drop_left, List.singleton_append]
    rw [if_pos hkey, hdrop]
    rcases hnext with rfl | rfl | rfl <;> rfl

theorem trimStart_append {blanks body : List Char} {first : Char}
    (hblanks : ∀ c ∈ blanks, Text.isBlank c = true) (hfirst : Text.isBlank first = false) :
    Text.trimStart (blanks ++ first :: body) = first :: body := by
  have hnot : ¬Text.isBlank first = true := by
    rw [hfirst]
    exact Bool.false_ne_true
  rw [Text.trimStart, List.dropWhile_append_of_pos hblanks, List.dropWhile_cons_of_neg hnot]

/-- The offset of a key in a line is the number of bytes of the blanks before it. -/
theorem offsetIn?_eq_some_iff {key line : List Char} {offset : Nat} :
    offsetIn? key line = some offset ↔
      ∃ blanks, GivesKey key line blanks ∧ offset = (encode blanks).length := by
  rw [offsetIn?_eq_some_iff_trimStart]
  constructor
  · rintro ⟨⟨next, hnext, hkey⟩, rfl⟩
    have hline : line.takeWhile Text.isBlank ++ Text.trimStart line = line :=
      List.takeWhile_append_dropWhile
    have hlength : byteLength line - byteLength (Text.trimStart line) =
        (encode (line.takeWhile Text.isBlank)).length := by
      have hsum := congrArg byteLength hline
      rw [byteLength_append] at hsum
      rw [← byteLength_eq_length_encode]
      omega
    have hne : Text.trimStart line ≠ [] := by
      intro hnil
      rw [hnil, List.prefix_nil] at hkey
      exact absurd hkey (List.append_ne_nil_of_right_ne_nil _ (List.cons_ne_nil _ _))
    obtain ⟨first, body, hbody⟩ := List.exists_cons_of_ne_nil hne
    have hfirst : Text.isBlank first = false := by
      have hhead : (Text.trimStart line).head hne = first := by
        simp only [hbody, List.head_cons]
      rw [← hhead]
      exact List.head_dropWhile_not Text.isBlank hne
    refine ⟨line.takeWhile Text.isBlank, ⟨?_, first, body, next, ?_, hfirst, hnext, ?_⟩, hlength⟩
    · intro c hc
      exact List.all_eq_true.1 List.all_takeWhile c hc
    · rw [← hbody, hline]
    · rw [← hbody]
      exact hkey
  · rintro ⟨blanks, ⟨hblanks, first, body, next, rfl, hfirst, hnext, hkey⟩, rfl⟩
    rw [trimStart_append hblanks hfirst, byteLength_append, Nat.add_sub_cancel,
      byteLength_eq_length_encode]
    exact ⟨⟨next, hnext, hkey⟩, rfl⟩

theorem offsetIn?_eq_none_iff {key line : List Char} :
    offsetIn? key line = none ↔ ∀ blanks, ¬GivesKey key line blanks := by
  rw [Option.eq_none_iff_forall_ne_some]
  constructor
  · intro h blanks hgives
    exact h _ (offsetIn?_eq_some_iff.2 ⟨blanks, hgives, rfl⟩)
  · intro h offset hoffset
    obtain ⟨blanks, hgives, -⟩ := offsetIn?_eq_some_iff.1 hoffset
    exact h blanks hgives

/-! ## The first line that gives a key -/

/-- Lines that do not give a key are passed over, and their bytes are added up. -/
theorem offsetFrom?_eq_some_iff {key : List Char} {start offset : Nat}
    {lines : List (List Char)} :
    offsetFrom? key start lines = some offset ↔
      ∃ before line rest blanks, lines = before ++ line :: rest ∧
        (∀ other ∈ before, ∀ first, ¬GivesKey key other first) ∧ GivesKey key line blanks ∧
        offset = start + (encode (before.flatten ++ blanks)).length := by
  induction lines generalizing start with
  | nil =>
    constructor
    · intro h
      cases h
    · rintro ⟨before, line, rest, blanks, hlines, -⟩
      exact absurd hlines.symm (List.append_ne_nil_of_right_ne_nil _ (List.cons_ne_nil _ _))
  | cons head lines ih =>
    unfold offsetFrom?
    cases hhead : offsetIn? key head with
    | some inLine =>
      obtain ⟨blanks, hgives, rfl⟩ := offsetIn?_eq_some_iff.1 hhead
      constructor
      · intro h
        cases h
        exact ⟨[], head, lines, blanks, rfl, List.forall_mem_nil _, hgives, rfl⟩
      · rintro ⟨before, line, rest, others, hlines, hbefore, hline, rfl⟩
        cases before with
        | nil =>
          cases hlines
          have hothers := offsetIn?_eq_some_iff.2 ⟨others, hline, rfl⟩
          rw [hhead] at hothers
          rw [Option.some.inj hothers]
          rfl
        | cons other before =>
          cases hlines
          exact absurd hgives (hbefore head List.mem_cons_self blanks)
    | none =>
      have hnot := offsetIn?_eq_none_iff.1 hhead
      have hsum : ∀ (before : List (List Char)) (blanks : List Char),
          start + byteLength head + (encode (before.flatten ++ blanks)).length =
            start + (encode ((head :: before).flatten ++ blanks)).length := by
        intro before blanks
        rw [byteLength_eq_length_encode, List.flatten_cons, List.append_assoc,
          encode_append head, List.length_append, Nat.add_assoc]
      constructor
      · intro h
        obtain ⟨before, line, rest, blanks, rfl, hbefore, hline, rfl⟩ := ih.1 h
        refine ⟨head :: before, line, rest, blanks, rfl, ?_, hline, hsum before blanks⟩
        exact List.forall_mem_cons.2 ⟨hnot, hbefore⟩
      · rintro ⟨before, line, rest, blanks, hlines, hbefore, hline, rfl⟩
        cases before with
        | nil =>
          cases hlines
          exact absurd hline (hnot blanks)
        | cons other before =>
          cases hlines
          have hrest := (List.forall_mem_cons.1 hbefore).2
          exact ih.2 ⟨before, line, rest, blanks, rfl, hrest, hline, (hsum before blanks).symm⟩

theorem offsetFrom?_eq_none_iff {key : List Char} {start : Nat} {lines : List (List Char)} :
    offsetFrom? key start lines = none ↔ ∀ line ∈ lines, offsetIn? key line = none := by
  induction lines generalizing start with
  | nil => exact iff_of_true rfl (List.forall_mem_nil _)
  | cons head lines ih =>
    unfold offsetFrom?
    rw [List.forall_mem_cons]
    cases hhead : offsetIn? key head with
    | some inLine => simp
    | none => simpa using ih

/-! ## The whole search -/

/-- A search never starts within a character. The offset found is that of the first character that
is no blank in the first line, from the start on, which from there on starts with the key and a
space, a tab or an equals sign. Nothing is found if no line does, or if the header of the table that
the path names does not occur. -/
theorem key_found_line_by_line (content : String) (path : List String) (key : String) :
    (∀ start, SearchStart content path start → ∃ lines, LinesFrom content start lines) ∧
      (∀ offset, keyOffset? content path key = some offset ↔
        ∃ start before line rest blanks, SearchStart content path start ∧
          LinesFrom content start (before ++ line :: rest) ∧
          (∀ other ∈ before, ∀ first, ¬GivesKey key.toList other first) ∧
          GivesKey key.toList line blanks ∧
          offset = start + (encode (before.flatten ++ blanks)).length) ∧
      (keyOffset? content path key = none ↔
        ∀ start lines, SearchStart content path start → LinesFrom content start lines →
          ∀ line ∈ lines, ∀ blanks, ¬GivesKey key.toList line blanks) := by
  refine ⟨?_, ?_, ?_⟩
  · intro start hstart
    obtain ⟨before, rest, hcontent, rfl, -⟩ := hstart.keyOffset?_eq key
    exact ⟨linesOf rest, (linesFrom_iff hcontent).2 rfl⟩
  · intro offset
    constructor
    · intro hfound
      obtain ⟨start, hstart⟩ := exists_searchStart hfound
      obtain ⟨text, rest, hcontent, rfl, hsearch⟩ := hstart.keyOffset?_eq key
      rw [hsearch] at hfound
      obtain ⟨before, line, others, blanks, hlines, hfirst, hline, hoffset⟩ :=
        offsetFrom?_eq_some_iff.1 hfound
      have hfrom := (linesFrom_iff hcontent).2 hlines.symm
      exact ⟨_, before, line, others, blanks, hstart, hfrom, hfirst, hline, hoffset⟩
    · rintro ⟨start, before, line, others, blanks, hstart, hfrom, hfirst, hline, hoffset⟩
      obtain ⟨text, rest, hcontent, rfl, hsearch⟩ := hstart.keyOffset?_eq key
      have hlines := (linesFrom_iff hcontent).1 hfrom
      rw [hsearch, offsetFrom?_eq_some_iff]
      exact ⟨before, line, others, blanks, hlines.symm, hfirst, hline, hoffset⟩
  · constructor
    · intro hnone start lines hstart hfrom line hline
      obtain ⟨text, rest, hcontent, rfl, hsearch⟩ := hstart.keyOffset?_eq key
      have hlines := (linesFrom_iff hcontent).1 hfrom
      rw [hsearch] at hnone
      exact offsetIn?_eq_none_iff.1 (offsetFrom?_eq_none_iff.1 hnone line (hlines ▸ hline))
    · intro hnone
      cases hfound : keyOffset? content path key with
      | none => rfl
      | some offset =>
        obtain ⟨start, hstart⟩ := exists_searchStart hfound
        obtain ⟨text, rest, hcontent, rfl, hsearch⟩ := hstart.keyOffset?_eq key
        have hlines := hnone _ (linesOf rest) hstart ((linesFrom_iff hcontent).2 rfl)
        have hsearched : offsetFrom? key.toList (encode text).length (linesOf rest) = none :=
          offsetFrom?_eq_none_iff.2 fun line hline => offsetIn?_eq_none_iff.2 (hlines line hline)
        rw [hsearch, hsearched] at hfound
        cases hfound

/-- The rest of the line that the header is in is a line too, and a wide blank has three bytes. -/
example : keyOffset? "[a]\n[s] k2 = 0\n\u3000k = 1" ["s"] "k" = some 18 := by decide +kernel

end PluginDiscovery.Config
