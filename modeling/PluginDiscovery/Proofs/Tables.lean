import Mathlib.Data.List.Infix
import PluginDiscovery.Proofs.KeySearch

/-!
# The table that a key is found in

The header of a table is a line that holds nothing but a name in brackets, and what comes after it
is in that table, up to the next header (`tableAt?`). The search for a key starts after the first
occurrence of the header of the table that the key should be in, wherever that is: in the header
line, in a comment, within another line. It does not stop at the next header. A `Course` says which
lines it goes through.

The main statement, `table_of_found_key`, holds for every text. The key is in the table of the last
header that the search goes through, or in that of the last header above if there is none. So it is
in the table that was asked for if and only if the last header that the search goes through is the
one of that table.
-/

namespace PluginDiscovery.Config

/-! ## Tables -/

/-- The name of the table that a line is the header of: without the blanks around it, the line is
the name in brackets. -/
def tableOf? (line : List Char) : Option String :=
  match Text.trimEnd (Text.trimStart line) with
  | '[' :: rest => if rest.getLast? = some ']' then some (String.ofList rest.dropLast) else none
  | _ => none

theorem tableOf?_eq_some_iff {line : List Char} {name : String} :
    tableOf? line = some name ↔ Text.trimEnd (Text.trimStart line) = header name := by
  unfold tableOf? header
  generalize Text.trimEnd (Text.trimStart line) = text
  cases text with
  | nil => simp
  | cons c rest =>
    by_cases hc : c = '['
    · subst hc
      rcases List.eq_nil_or_concat' rest with rfl | ⟨init, d, rfl⟩
      · simp
      · by_cases hd : d = ']'
        · subst hd
          simp [String.ext_iff]
        · simp [hd]
    · simp [hc]

/-- The table of the last header among lines. -/
def lastTable? (lines : List (List Char)) : Option String := (lines.filterMap tableOf?).getLast?

/-- The lines that end at an offset or before it. -/
def linesUpTo (offset : Nat) : List (List Char) → List (List Char)
  | [] => []
  | line :: rest =>
    if byteLength line ≤ offset then line :: linesUpTo (offset - byteLength line) rest else []

/-- The table that an offset in a text is in: that of the last header before it. Above all headers
there is no table. -/
def tableAt? (content : String) (offset : Nat) : Option String :=
  lastTable? (linesUpTo offset (linesOf content.toList))

theorem lastTable?_append (first last : List (List Char)) :
    lastTable? (first ++ last) = (lastTable? last).or (lastTable? first) := by
  unfold lastTable?
  rw [List.filterMap_append, List.getLast?_append]

/-- Up to an offset within a line there are the lines before it. -/
theorem linesUpTo_append_cons (first : List (List Char)) {line : List Char}
    {rest : List (List Char)} {inLine : Nat} (h : inLine < byteLength line) :
    linesUpTo (byteLength first.flatten + inLine) (first ++ line :: rest) = first := by
  induction first with
  | nil =>
    have hout : ¬byteLength line ≤ byteLength ([] : List (List Char)).flatten + inLine := by
      have hnil : byteLength ([] : List (List Char)).flatten = 0 := rfl
      omega
    rw [List.nil_append, linesUpTo, if_neg hout]
  | cons head first ih =>
    have hlength : byteLength (head :: first).flatten =
        byteLength head + byteLength first.flatten := by
      rw [List.flatten_cons, byteLength_append]
    have hin : byteLength head ≤ byteLength (head :: first).flatten + inLine := by omega
    have hrest : byteLength (head :: first).flatten + inLine - byteLength head =
        byteLength first.flatten + inLine := by omega
    rw [List.cons_append, linesUpTo, if_pos hin, hrest, ih]

/-- An offset within a line is in the table of the last header among the lines before it. -/
theorem tableAt?_of_lines {content : String} {first rest : List (List Char)} {line : List Char}
    {inLine : Nat} (hlines : linesOf content.toList = first ++ line :: rest)
    (h : inLine < byteLength line) :
    tableAt? content (byteLength first.flatten + inLine) = lastTable? first := by
  rw [tableAt?, hlines, linesUpTo_append_cons first h]

theorem mem_of_lastTable? {lines : List (List Char)} {name : String}
    (h : lastTable? lines = some name) : ∃ line ∈ lines, tableOf? line = some name :=
  List.mem_filterMap.1 (List.mem_of_getLast? h)

/-! ## The course of a search -/

/-- Lines, with an opening in front of the first one. -/
def continued (opening : List Char) : List (List Char) → List (List Char)
  | [] => []
  | line :: rest => (opening ++ line) :: rest

/-- The course of a search for the key of a path: from where it starts, line by line, to the line
that gives the key. It may start within a line. -/
structure Course (content : String) (path : List String) (key : String) where
  /-- The lines above the one that the search starts in. -/
  above : List (List Char)
  /-- What stands in that line before the start. -/
  opening : List Char
  /-- The lines from the start on that do not give the key. -/
  passed : List (List Char)
  /-- The line that gives it. -/
  line : List Char
  /-- The lines below. -/
  below : List (List Char)
  /-- The blanks before the key. -/
  blanks : List Char
  /-- These are the lines of the whole text. -/
  whole : LinesFrom content 0 (above ++ continued opening (passed ++ line :: below))
  /-- The search starts there. -/
  start : SearchStart content path (encode (above.flatten ++ opening)).length
  /-- From there on the text is cut into lines anew. -/
  from_start : LinesFrom content (encode (above.flatten ++ opening)).length
    (passed ++ line :: below)
  /-- No line that the search passes over gives the key. -/
  passed_over : ∀ other ∈ passed, ∀ first, ¬GivesKey key.toList other first
  /-- The line after them does, and the key comes after the blanks. -/
  gives : GivesKey key.toList line blanks

section Course

variable {content : String} {path : List String} {key : String}

/-- Where the key is found, in bytes. -/
def Course.offset (course : Course content path key) : Nat :=
  (encode (course.above.flatten ++ course.opening)).length +
    (encode (course.passed.flatten ++ course.blanks)).length

/-- The lines of the text, from the one that the search starts in on, that the search goes through
before it comes to the line with the key. -/
def Course.searched (course : Course content path key) : List (List Char) :=
  continued course.opening course.passed

theorem Course.keyOffset?_eq (course : Course content path key) :
    keyOffset? content path key = some course.offset := by
  obtain ⟨text, rest, hcontent, hstart, hsearch⟩ := course.start.keyOffset?_eq key
  have hfrom := course.from_start
  rw [hstart, linesFrom_iff hcontent] at hfrom
  rw [hsearch, offsetFrom?_eq_some_iff]
  exact ⟨course.passed, course.line, course.below, course.blanks, hfrom.symm, course.passed_over,
    course.gives, rfl⟩

theorem linesFrom_zero_iff {lines : List (List Char)} :
    LinesFrom content 0 lines ↔ lines = linesOf content.toList := by
  have hcontent : content.toList = [] ++ content.toList := (List.nil_append _).symm
  exact linesFrom_iff hcontent

theorem exists_course {offset : Nat} (h : keyOffset? content path key = some offset) :
    ∃ course : Course content path key, course.offset = offset := by
  obtain ⟨start, hstart⟩ := exists_searchStart h
  obtain ⟨text, rest, hcontent, rfl, hsearch⟩ := hstart.keyOffset?_eq key
  rw [hsearch] at h
  obtain ⟨passed, line, below, blanks, hlines, hpassed, hgives, rfl⟩ := offsetFrom?_eq_some_iff.1 h
  have hfrom := (linesFrom_iff hcontent).2 hlines.symm
  obtain ⟨above, opening, rfl, hcut⟩ := exists_linesOf_append text
  have hwhole : above ++ continued opening (passed ++ line :: below) =
      linesOf content.toList := by
    rw [hcontent]
    cases passed with
    | nil => exact (hcut rest line below hlines).symm
    | cons first more => exact (hcut rest first (more ++ line :: below) hlines).symm
  exact ⟨⟨above, opening, passed, line, below, blanks, linesFrom_zero_iff.2 hwhole, hstart, hfrom,
    hpassed, hgives⟩, rfl⟩

theorem GivesKey.byteLength_lt {key line blanks : List Char} (h : GivesKey key line blanks) :
    byteLength blanks < byteLength line := by
  obtain ⟨first, body, -, rfl, -⟩ := h.given
  have hsize : 0 < first.utf8Size := Char.utf8Size_pos first
  rw [byteLength_append, byteLength_cons]
  omega

/-- A key is in the table of the last header that its search goes through, or in that of the last
header above. -/
theorem Course.tableAt?_eq (course : Course content path key) :
    tableAt? content course.offset =
      (lastTable? course.searched).or (lastTable? course.above) := by
  obtain ⟨above, opening, passed, line, below, blanks, hwhole, -, -, -, hgives⟩ := course
  have hlt := hgives.byteLength_lt
  have hlines := (linesFrom_zero_iff.1 hwhole).symm
  simp only [Course.offset, Course.searched, ← byteLength_eq_length_encode, byteLength_append]
  rw [← lastTable?_append]
  cases passed with
  | nil =>
    -- the key is in the line that the search starts in
    have hin : byteLength opening + byteLength blanks < byteLength (opening ++ line) := by
      rw [byteLength_append]
      omega
    have hlength : byteLength above.flatten + byteLength opening +
        (byteLength ([] : List (List Char)).flatten + byteLength blanks) =
          byteLength above.flatten + (byteLength opening + byteLength blanks) := by
      rw [Nat.add_assoc]
      exact congrArg _ (congrArg _ (Nat.zero_add _))
    rw [hlength, tableAt?_of_lines hlines hin, continued, List.append_nil]
  | cons first more =>
    have hsplit : linesOf content.toList =
        (above ++ continued opening (first :: more)) ++ line :: below := by
      rw [hlines, List.append_assoc]
      rfl
    have hlength : byteLength above.flatten + byteLength opening +
        (byteLength (first :: more).flatten + byteLength blanks) =
          byteLength (above ++ continued opening (first :: more)).flatten + byteLength blanks := by
      simp only [continued, List.flatten_append, List.flatten_cons, byteLength_append]
      omega
    rw [hlength, tableAt?_of_lines hsplit hlt]

/-! ## The table that was asked for -/

theorem searchStart_nil_iff {start : Nat} : SearchStart content [] start ↔ start = 0 := by
  constructor
  · intro h
    cases h
    rfl
  · rintro rfl
    exact .top

/-- Without a path there is nothing above the start of the search. -/
theorem Course.lastTable?_above_eq_none (course : Course content [] key) :
    lastTable? course.above = none := by
  have hstart := searchStart_nil_iff.1 course.start
  rw [← byteLength_eq_length_encode, byteLength_append] at hstart
  rw [Option.eq_none_iff_forall_ne_some]
  intro name hname
  obtain ⟨line, hline, hheader⟩ := mem_of_lastTable? hname
  cases line with
  | nil => cases hheader
  | cons c rest =>
    -- a line that is not empty has bytes
    obtain ⟨before, after, habove⟩ := List.append_of_mem hline
    have hsize : 0 < c.utf8Size := Char.utf8Size_pos c
    rw [habove, List.flatten_append, List.flatten_cons, byteLength_append, byteLength_append,
      byteLength_cons] at hstart
    omega

/-- Below the lines above comes the one that the search starts in. -/
theorem Course.exists_whole_eq (course : Course content path key) :
    ∃ line rest, course.above ++ (course.opening ++ line) :: rest = linesOf content.toList := by
  have hwhole := linesFrom_zero_iff.1 course.whole
  cases hpassed : course.passed with
  | nil =>
    rw [hpassed] at hwhole
    exact ⟨course.line, course.below, hwhole⟩
  | cons first more =>
    rw [hpassed] at hwhole
    exact ⟨first, more ++ course.line :: course.below, hwhole⟩

/-- The search for the key of a table starts right after the first occurrence of the header. -/
theorem Course.exists_firstAfter {name : String} (course : Course content (name :: path) key) :
    ∃ first rest, FirstAfter (header name) content.toList first rest ∧
      course.above.flatten ++ course.opening = first ++ header name := by
  obtain ⟨rest, hafter⟩ := searchStart_table_iff.1 course.start
  obtain ⟨first, hfirst, hlength⟩ := after?_eq_some_iff.1 hafter
  obtain ⟨line, more, hwhole⟩ := course.exists_whole_eq
  have hbefore : course.above.flatten ++ course.opening <+: content.toList := by
    rw [← flatten_linesOf content.toList, ← hwhole]
    exact ⟨line ++ more.flatten, by simp⟩
  have hheader : first ++ header name <+: content.toList := ⟨rest, hfirst.occurs.symm⟩
  exact ⟨first, rest, hfirst, eq_of_length_encode hbefore hheader hlength⟩

/-- So the header is not above. -/
theorem Course.lastTable?_above_ne {name : String} (course : Course content (name :: path) key) :
    lastTable? course.above ≠ some name := by
  intro hlast
  obtain ⟨line, hmem, hheader⟩ := mem_of_lastTable? hlast
  obtain ⟨front, back, hline, -, -⟩ := Text.exists_append_trim line
  rw [tableOf?_eq_some_iff.1 hheader] at hline
  obtain ⟨before, after, habove⟩ := List.append_of_mem hmem
  have hflatten : course.above.flatten =
      (before.flatten ++ front) ++ header name ++ (back ++ after.flatten) := by
    rw [habove, List.flatten_append, List.flatten_cons, hline]
    simp only [List.append_assoc]
  -- the header above would occur before the first occurrence, unless nothing comes after it
  obtain ⟨first, rest, hfirst, hstart⟩ := course.exists_firstAfter
  have hle : first.length ≤ (before.flatten ++ front).length := by
    refine hfirst.least _ (back ++ after.flatten ++ course.opening ++ rest) ?_
    rw [hfirst.occurs, ← hstart, hflatten]
    simp only [List.append_assoc]
  have hopening : course.opening = [] := by
    have hlength := congrArg List.length hstart
    rw [hflatten] at hlength
    simp only [List.length_append] at hlength hle
    exact List.length_eq_zero_iff.1 (by omega)
  -- but a line feed does, which ends the last line above
  obtain ⟨next, more, hwhole⟩ := course.exists_whole_eq
  have hare : AreLines (course.above ++ (course.opening ++ next) :: more) :=
    hwhole ▸ areLines_linesOf _
  obtain ⟨text, htext⟩ := hare.feed_of_append_cons (List.ne_nil_of_mem hmem)
  rw [hopening, List.append_nil, htext] at hstart
  have hends : text ++ ['\n'] = (first ++ '[' :: name.toList) ++ [']'] := by
    rw [hstart, header, List.append_assoc]
  exact absurd (List.append_inj' hends rfl).2 (by decide)

/-- An answer of the search is told by its course. The key is in the table of the last header that
the search goes through, or in that of the last header above the start if it goes through none. It
is in the table that the path names, or in none for an empty path, if and only if the last header
that the search goes through is the one of that table, or there is none. -/
theorem table_of_found_key (content : String) (path : List String) (key : String) :
    (∀ offset, keyOffset? content path key = some offset ↔
        ∃ course : Course content path key, course.offset = offset) ∧
      ∀ course : Course content path key,
        tableAt? content course.offset =
            (lastTable? course.searched).or (lastTable? course.above) ∧
          (tableAt? content course.offset = path.head? ↔
            lastTable? course.searched = path.head?) := by
  refine ⟨fun offset => ⟨exists_course, ?_⟩, fun course => ⟨course.tableAt?_eq, ?_⟩⟩
  · rintro ⟨course, rfl⟩
    exact course.keyOffset?_eq
  · rw [course.tableAt?_eq]
    cases path with
    | nil => rw [course.lastTable?_above_eq_none, Option.or_none]
    | cons name path =>
      rw [List.head?_cons]
      cases hsearched : lastTable? course.searched with
      | some table => rw [Option.some_or]
      | none =>
        rw [Option.none_or]
        exact iff_of_false course.lastTable?_above_ne (Option.some_ne_none name).symm

/-- A header that a comment mentions is taken for the table, and a key above the table is found. -/
example : keyOffset? "# see [logging]\nfilter = 1\n[logging]\n" ["logging"] "filter" = some 16 ∧
    tableAt? "# see [logging]\nfilter = 1\n[logging]\n" 16 = none := by decide +kernel

end Course

/-- A file that sets an unknown key of one table, in quotes, and a known key of the same name in the
table after it. -/
def twoFilters : String := "[discovery]\n\"filter\" = \"info\"\n\n[logging]\nfilter = \"debug\"\n"

/-- The search starts after the header of the first table and goes through that of the second. -/
def pastLogging : Course twoFilters ["discovery"] "filter" where
  above := []
  opening := "[discovery]".toList
  passed := ["\n".toList, "\"filter\" = \"info\"\n".toList, "\n".toList, "[logging]\n".toList]
  line := "filter = \"debug\"\n".toList
  below := []
  blanks := []
  whole := linesFrom_zero_iff.2 (by decide +kernel)
  start := searchStart_table_iff.2 ⟨twoFilters.toList.drop 11, by decide +kernel⟩
  from_start := (linesFrom_iff (List.take_append_drop 11 twoFilters.toList).symm).2
    (by decide +kernel)
  passed_over := by
    have hnone : ∀ other ∈ ["\n".toList, "\"filter\" = \"info\"\n".toList, "\n".toList,
        "[logging]\n".toList], offsetIn? "filter".toList other = none := by decide +kernel
    exact fun other hother => offsetIn?_eq_none_iff.1 (hnone other hother)
  gives := ⟨List.forall_mem_nil _, 'f', "ilter = \"debug\"\n".toList, ' ', by decide +kernel,
    by decide, .inl rfl, ⟨"= \"debug\"\n".toList, by decide +kernel⟩⟩

/-- The key is looked for in the first table and found in the second. -/
theorem filter_found_in_logging :
    keyOffset? twoFilters ["discovery"] "filter" = some 41 ∧
      tableAt? twoFilters 41 = some "logging" := by
  obtain ⟨hfound, htable⟩ := table_of_found_key twoFilters ["discovery"] "filter"
  have hoffset : pastLogging.offset = 41 := by decide +kernel
  refine ⟨(hfound 41).2 ⟨pastLogging, hoffset⟩, ?_⟩
  rw [← hoffset, (htable pastLogging).1]
  decide +kernel

end PluginDiscovery.Config
