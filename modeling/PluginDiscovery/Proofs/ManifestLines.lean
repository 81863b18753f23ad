import Mathlib
import PluginDiscovery.Proofs.ManifestText

/-!
# Manifests line by line

A fragment is read line by line, and every line has to be UTF-8. The byte that ends a line is part
of no other character, so all lines are UTF-8 exactly when the fragment as a whole is
(`isText_iff_lines`), and the lines of the bytes are the bytes of the lines (`splitOn_encode`).

Where all that a root can have at a path is bytes, reading is told by the bytes alone, one resource
after the other (`readTexts`): the first that is not a text is the fault, and a text lists what is
on its lines. The blanks at the end of a line do not count, and blank lines list nothing, so other
ends of lines, or one more at the end, change nothing (`SameLines`).
-/

namespace PluginDiscovery

/-! ## Lines -/

namespace Stream

theorem encode_append_cons (line rest : List Char) :
    encode (line ++ '\n' :: rest) = encode line ++ lineEnd :: encode rest := by
  rw [encode_append, encode_cons]
  rfl

theorem lineEnd_not_mem_encode {line : List Char} (h : '\n' ∉ line) : lineEnd ∉ encode line := by
  have hascii : ('\n' : Char).toNat ≤ 127 := by decide
  intro hmem
  exact h ((mem_encode_of_ascii hascii).1 hmem)

/-- Cutting at line feeds cuts no character. -/
theorem splitOn_encode (text : List Char) :
    (encode text).splitOn lineEnd = (text.splitOn '\n').map encode := by
  induction text using line_induction '\n' with
  | last line hline =>
    have hbytes : lineEnd ∉ encode line := lineEnd_not_mem_encode hline
    rw [List.splitOn_eq_singleton hline, List.splitOn_eq_singleton hbytes]
    rfl
  | more line rest hline ih =>
    have hbytes : lineEnd ∉ encode line := lineEnd_not_mem_encode hline
    rw [encode_append_cons, List.splitOn_append_cons_self_of_not_mem hbytes,
      List.splitOn_append_cons_self_of_not_mem hline, ih]
    rfl

theorem isText_append_lineEnd_iff {first rest : List UInt8} :
    IsText (first ++ lineEnd :: rest) ↔ IsText first ∧ IsText rest := by
  have hascii : ('\n' : Char).toNat ≤ 127 := by decide
  exact isText_append_cons_iff hascii

/-- Bytes are those of a text if each line of them is. -/
theorem isText_iff_lines (bytes : List UInt8) :
    IsText bytes ↔ ∀ piece ∈ bytes.splitOn lineEnd, IsText piece := by
  induction bytes using line_induction lineEnd with
  | last line hline => rw [List.splitOn_eq_singleton hline, List.forall_mem_singleton]
  | more line rest hline ih =>
    rw [List.splitOn_append_cons_self_of_not_mem hline, List.forall_mem_cons,
      isText_append_lineEnd_iff, ih]

/-- Reading stops at a line that is not UTF-8. -/
theorem linesOf_of_not_isText {pieces : List (List UInt8)} (h : ∃ piece ∈ pieces, ¬IsText piece) :
    (linesOf none pieces).2 = some notText := by
  induction pieces with
  | nil =>
    obtain ⟨piece, hpiece, -⟩ := h
    cases hpiece
  | cons first rest ih =>
    by_cases hfirst : IsText first
    · have hrest : ∃ piece ∈ rest, ¬IsText piece := by
        obtain ⟨piece, hpiece, hnot⟩ := h
        rcases List.mem_cons.1 hpiece with rfl | hpiece
        · exact absurd hfirst hnot
        · exact ⟨piece, hpiece, hnot⟩
      have hne : rest ≠ [] := by
        rintro rfl
        obtain ⟨piece, hpiece, -⟩ := hrest
        cases hpiece
      obtain ⟨text, rfl⟩ := hfirst
      rw [linesOf_cons hne]
      exact ih hrest
    · have hnone : textOf? first = none := textOf?_eq_none_iff.2 hfirst
      cases rest with
      | nil =>
        have hne : first.isEmpty = false := by
          cases first with
          | nil => exact absurd isText_nil hfirst
          | cons byte bytes => rfl
        simp only [linesOf, hne, hnone, Bool.false_eq_true, if_false]
      | cons next rest => simp only [linesOf, hnone]

theorem lines_of_not_isText {bytes : List UInt8} (h : ¬IsText bytes) :
    (Stream.lines { bytes }).2 = some notText := by
  have hpiece : ∃ piece ∈ bytes.splitOn lineEnd, ¬IsText piece := by
    rw [isText_iff_lines] at h
    push Not at h
    exact h
  exact linesOf_of_not_isText hpiece

/-- The lines of the bytes of a text are those of the text, but for the last if it is empty. -/
theorem lines_bytesOf (text : String) :
    ∃ texts last, (text.toList.splitOn '\n').map String.ofList = texts ++ [last] ∧
      Stream.lines { bytes := bytesOf text } =
        (texts ++ if last = "" then [] else [last], none) := by
  have hpieces : (bytesOf text).splitOn lineEnd =
      ((text.toList.splitOn '\n').map String.ofList).map bytesOf := by
    rw [bytesOf_eq_encode, splitOn_encode, List.map_map]
    refine List.map_congr_left fun line _ => ?_
    rw [Function.comp_apply, bytesOf_eq_encode, String.toList_ofList]
  have hne : (text.toList.splitOn '\n').map String.ofList ≠ [] := by
    rw [Ne, List.map_eq_nil_iff]
    exact List.splitOn_ne_nil _ _
  obtain ⟨texts, last, hlast⟩ := (List.eq_nil_or_concat' _).resolve_left hne
  refine ⟨texts, last, hlast, ?_⟩
  unfold Stream.lines
  simp only
  rw [hpieces, hlast, List.map_append, List.map_singleton]
  exact linesOf_map_bytesOf texts last

end Stream

/-! ## Listings of texts -/

namespace Manifest

/-- The listings of names, numbered from one; an empty name is not listed. -/
def listingsNamed (source : String) (names : List String) : List Listing :=
  (names.zipIdx 1).filterMap fun (typeName, line) =>
    if typeName = "" then none else some { source, line, typeName }

/-- What is on the lines of a text, without the blanks around it. -/
def namesIn (text : List Char) : List String :=
  (text.splitOn '\n').map fun line => Text.trim (String.ofList line)

/-- The listings of a text: one for each line that is not blank. -/
def listingsOfText (source text : String) : List Listing :=
  listingsNamed source (namesIn text.toList)

theorem listings_eq_listingsNamed (source : String) (texts : List String) :
    listings source (texts.zipIdx 1) = listingsNamed source (texts.map Text.trim) := by
  unfold listings listingsNamed
  rw [List.zipIdx_map, List.filterMap_map]
  refine List.filterMap_congr fun line _ => ?_
  by_cases hempty : Text.trim line.1 = ""
  · simp [hempty]
  · simp [hempty]

/-- An empty name at the end is not listed. -/
theorem listingsNamed_concat_empty (source : String) (names : List String) :
    listingsNamed source (names ++ [""]) = listingsNamed source names := by
  unfold listingsNamed
  rw [List.zipIdx_append, List.filterMap_append]
  simp

theorem listings_lines_bytesOf (source text : String) :
    listings source ((Stream.lines { bytes := bytesOf text }).1.zipIdx 1) =
      listingsOfText source text := by
  obtain ⟨texts, last, htexts, hlines⟩ := Stream.lines_bytesOf text
  have hnames : namesIn text.toList = texts.map Text.trim ++ [Text.trim last] := by
    have hmap := congrArg (List.map Text.trim) htexts
    rw [List.map_map, List.map_append] at hmap
    exact hmap
  rw [hlines, listings_eq_listingsNamed, listingsOfText, hnames]
  by_cases hlast : last = ""
  · have htrim : Text.trim last = "" := by
      rw [hlast]
      rfl
    rw [if_pos hlast, List.append_nil, htrim, listingsNamed_concat_empty]
  · rw [if_neg hlast, List.map_append, List.map_singleton]

/-! ## Reading resources -/

variable {files : Files} {path : String} {root : ModuleRoot} {roots : List ModuleRoot}

/-- A root has no fragment, or one that can be opened and read to its end. -/
def Sound (files : Files) (path : String) (root : ModuleRoot) : Prop :=
  root.openPath files path = .absent ∨ ∃ bytes, root.openPath files path = .opened { bytes }

/-- What a root has at a path, with its source. -/
def resource? (files : Files) (path : String) (root : ModuleRoot) :
    Option (String × List UInt8) :=
  match root.openPath files path with
  | .opened stream => some (sourceOf path root, stream.bytes)
  | _ => none

/-- What is located at a path, in the order of the search path. -/
def resources (files : Files) (path : String) (roots : List ModuleRoot) :
    List (String × List UInt8) :=
  roots.filterMap (resource? files path)

/-- The listings of resources, up to the first that is not a text. -/
def readTexts : List (String × List UInt8) → Except Fault (List Listing)
  | [] => .ok []
  | (source, bytes) :: rest =>
    match textOf? bytes with
    | some text => (readTexts rest).map (listingsOfText source text ++ ·)
    | none => .error (unreadable source Stream.notText)

theorem outcome_readFragment_of_absent (h : root.openPath files path = .absent) :
    (readFragment files path root).outcome = .ok [] := by
  obtain ⟨hreadable, hlistings⟩ := readable_of_absent h
  rw [outcome_readFragment_of_none (faultOf?_eq_none_iff.2 hreadable), hlistings]

theorem outcome_readFragment_of_bytes {bytes : List UInt8}
    (h : root.openPath files path = .opened { bytes }) :
    (readFragment files path root).outcome =
      match textOf? bytes with
      | some text => .ok (listingsOfText (sourceOf path root) text)
      | none => .error (unreadable (sourceOf path root) Stream.notText) := by
  cases htext : textOf? bytes with
  | some text =>
    obtain rfl := textOf?_eq_some_iff.1 htext
    obtain ⟨texts, last, -, hlines⟩ := Stream.lines_bytesOf text
    obtain ⟨hreadable, hlistings⟩ := readable_of_lines h hlines
    have hnamed := listings_lines_bytesOf (sourceOf path root) text
    rw [hlines] at hnamed
    rw [outcome_readFragment_of_none (faultOf?_eq_none_iff.2 hreadable), hlistings, hnamed]
  | none =>
    have hstopped : (Stream.lines { bytes }).2 = some Stream.notText :=
      Stream.lines_of_not_isText (textOf?_eq_none_iff.1 htext)
    refine outcome_readFragment_of_some ?_
    simp only [faultOf?, failureOf?, h, hstopped, Option.map_some]

/-- Reading is told by the bytes of the resources. -/
theorem outcome_read_of_sound (h : ∀ root ∈ roots, Sound files path root) :
    (read files path roots).outcome = readTexts (resources files path roots) := by
  induction roots with
  | nil => rfl
  | cons root rest ih =>
    have hrest := ih fun other hother => h other (List.mem_cons_of_mem _ hother)
    unfold read
    rw [Traced.bind_eq]
    rcases h root List.mem_cons_self with habsent | ⟨bytes, hopened⟩
    · have hresource : resource? files path root = none := by simp only [resource?, habsent]
      have hresources : resources files path (root :: rest) = resources files path rest :=
        List.filterMap_cons_none hresource
      have hfragment := outcome_readFragment_of_absent habsent
      rw [hresources, ← hrest, Traced.outcome_andThen_of_ok hfragment]
      simp only [Traced.bind_eq, Traced.pure_eq, List.nil_append]
      rw [Traced.andThen_ok]
    · have hresource : resource? files path root = some (sourceOf path root, bytes) := by
        simp only [resource?, hopened]
      have hresources : resources files path (root :: rest) =
          (sourceOf path root, bytes) :: resources files path rest :=
        List.filterMap_cons_some hresource
      have hfragment := outcome_readFragment_of_bytes hopened
      rw [hresources, readTexts]
      cases htext : textOf? bytes with
      | some text =>
        rw [htext] at hfragment
        rw [Traced.outcome_andThen_of_ok hfragment, Traced.bind_eq]
        simp only [Traced.pure_eq]
        rw [Traced.outcome_andThen_ok, hrest]
      | none =>
        rw [htext] at hfragment
        exact Traced.outcome_andThen_of_error hfragment _

/-- The fault is about the first resource that is not a text. -/
theorem readTexts_eq_error_iff {resources : List (String × List UInt8)} {fault : Fault} :
    readTexts resources = .error fault ↔
      ∃ before source bytes after, resources = before ++ (source, bytes) :: after ∧
        (∀ other ∈ before, IsText other.2) ∧ ¬IsText bytes ∧
        fault = unreadable source Stream.notText := by
  induction resources with
  | nil => simp [readTexts]
  | cons resource rest ih =>
    obtain ⟨source, bytes⟩ := resource
    unfold readTexts
    cases htext : textOf? bytes with
    | some text =>
      have hbytes : IsText bytes := ⟨text, textOf?_eq_some_iff.1 htext⟩
      have hmap : (readTexts rest).map (listingsOfText source text ++ ·) = .error fault ↔
          readTexts rest = .error fault := by
        cases readTexts rest <;> simp [Except.map]
      simp only [hmap]
      rw [ih]
      constructor
      · rintro ⟨before, other, bytes', after, rfl, hbefore, hnot, rfl⟩
        exact ⟨(source, bytes) :: before, other, bytes', after, rfl,
          List.forall_mem_cons.2 ⟨hbytes, hbefore⟩, hnot, rfl⟩
      · rintro ⟨before, other, bytes', after, hsplit, hbefore, hnot, rfl⟩
        cases before with
        | nil =>
          obtain ⟨heq, -⟩ := List.cons.inj hsplit
          cases heq
          exact absurd hbytes hnot
        | cons first before =>
          obtain ⟨-, rfl⟩ := List.cons.inj hsplit
          exact ⟨before, other, bytes', after, rfl, (List.forall_mem_cons.1 hbefore).2, hnot, rfl⟩
    | none =>
      have hbytes : ¬IsText bytes := textOf?_eq_none_iff.1 htext
      constructor
      · intro h
        cases h
        exact ⟨[], source, bytes, rest, rfl, List.forall_mem_nil _, hbytes, rfl⟩
      · rintro ⟨before, other, bytes', after, hsplit, hbefore, hnot, rfl⟩
        cases before with
        | nil =>
          obtain ⟨heq, -⟩ := List.cons.inj hsplit
          cases heq
          rfl
        | cons first before =>
          obtain ⟨rfl, -⟩ := List.cons.inj hsplit
          exact absurd (hbefore _ List.mem_cons_self) hbytes

/-- Resources that are read without a fault are all texts. -/
theorem isText_of_readTexts {resources : List (String × List UInt8)} {listings : List Listing}
    (h : readTexts resources = .ok listings) : ∀ resource ∈ resources, IsText resource.2 := by
  induction resources generalizing listings with
  | nil => exact List.forall_mem_nil _
  | cons resource rest ih =>
    obtain ⟨source, bytes⟩ := resource
    unfold readTexts at h
    cases htext : textOf? bytes with
    | some text =>
      rw [htext] at h
      simp only at h
      cases hrest : readTexts rest with
      | error fault =>
        rw [hrest] at h
        cases h
      | ok others =>
        exact List.forall_mem_cons.2 ⟨⟨text, textOf?_eq_some_iff.1 htext⟩, ih hrest⟩
    | none =>
      rw [htext] at h
      cases h

/-- Where all resources are texts, all that they list is listed. -/
theorem readTexts_of_texts {resources : List (String × List UInt8)} {texts : List String}
    (h : resources.map (·.2) = texts.map bytesOf) :
    readTexts resources =
      .ok (List.zipWith listingsOfText (resources.map (·.1)) texts).flatten := by
  induction resources generalizing texts with
  | nil =>
    cases texts with
    | nil => rfl
    | cons text texts => cases h
  | cons resource rest ih =>
    cases texts with
    | nil => cases h
    | cons text texts =>
      obtain ⟨source, bytes⟩ := resource
      rw [List.map_cons, List.map_cons] at h
      obtain ⟨hbytes, hrest⟩ := List.cons.inj h
      have hbytes' : bytes = bytesOf text := hbytes
      subst hbytes'
      unfold readTexts
      rw [textOf?_bytesOf]
      simp only
      rw [ih hrest]
      rfl

/-! ## Ends of lines -/

section InsertBefore

variable {α : Type} [DecidableEq α]

/-- A list with one more item before every occurrence of another. -/
def insertBefore (extra mark : α) (items : List α) : List α :=
  items.flatMap fun item => if item = mark then [extra, mark] else [item]

theorem insertBefore_of_not_mem (extra : α) {mark : α} {items : List α} (h : mark ∉ items) :
    insertBefore extra mark items = items := by
  unfold insertBefore
  refine (List.flatMap_congr fun item hitem => if_neg ?_).trans (List.flatMap_singleton' items)
  rintro rfl
  exact h hitem

theorem insertBefore_append_cons {extra mark : α} {line : List α} (h : mark ∉ line)
    (rest : List α) :
    insertBefore extra mark (line ++ mark :: rest) =
      (line ++ [extra]) ++ mark :: insertBefore extra mark rest := by
  have hline := insertBefore_of_not_mem extra h
  unfold insertBefore at hline ⊢
  rw [List.flatMap_append, List.flatMap_cons, hline, if_pos rfl]
  simp

end InsertBefore

/-- The same bytes, or with a carriage return before every line feed, or with one more line feed at
the end. -/
inductive SameLines : List UInt8 → List UInt8 → Prop
  /-- The bytes as they are. -/
  | refl (bytes : List UInt8) : SameLines bytes bytes
  /-- Every line ends in a carriage return and a line feed. -/
  | returns (bytes : List UInt8) : SameLines bytes (insertBefore 0x0D Stream.lineEnd bytes)
  /-- One more line feed ends the last line. -/
  | ended (bytes : List UInt8) : SameLines bytes (bytes ++ [Stream.lineEnd])

theorem encode_insertBefore (text : List Char) :
    encode (insertBefore '\r' '\n' text) = insertBefore 0x0D Stream.lineEnd (encode text) := by
  induction text using line_induction '\n' with
  | last line hline =>
    rw [insertBefore_of_not_mem _ hline,
      insertBefore_of_not_mem _ (Stream.lineEnd_not_mem_encode hline)]
  | more line rest hline ih =>
    have hbytes := Stream.lineEnd_not_mem_encode hline
    rw [insertBefore_append_cons hline, Stream.encode_append_cons, Stream.encode_append_cons, ih,
      encode_append]
    exact (insertBefore_append_cons hbytes (encode rest)).symm

theorem isText_of_insertBefore {bytes : List UInt8}
    (h : IsText (insertBefore 0x0D Stream.lineEnd bytes)) : IsText bytes := by
  induction bytes using line_induction Stream.lineEnd with
  | last line hline =>
    have hsame : insertBefore 0x0D Stream.lineEnd line = line := insertBefore_of_not_mem _ hline
    rw [hsame] at h
    exact h
  | more line rest hline ih =>
    have hreturn : ('\r' : Char).toNat ≤ 127 := by decide
    have hsplit : insertBefore 0x0D Stream.lineEnd (line ++ Stream.lineEnd :: rest) =
        (line ++ [0x0D]) ++ Stream.lineEnd :: insertBefore 0x0D Stream.lineEnd rest :=
      insertBefore_append_cons hline rest
    rw [hsplit, Stream.isText_append_lineEnd_iff] at h
    have hline' : IsText line := ((isText_append_cons_iff hreturn).1 h.1).1
    exact Stream.isText_append_lineEnd_iff.2 ⟨hline', ih h.2⟩

theorem namesIn_insertBefore (text : List Char) :
    namesIn (insertBefore '\r' '\n' text) = namesIn text := by
  induction text using line_induction '\n' with
  | last line hline => rw [insertBefore_of_not_mem _ hline]
  | more line rest hline ih =>
    have hblank : Text.isBlank '\r' = true := by decide
    have hline' : '\n' ∉ line ++ ['\r'] := by simpa using hline
    unfold namesIn at ih ⊢
    rw [insertBefore_append_cons hline, List.splitOn_append_cons_self_of_not_mem hline',
      List.splitOn_append_cons_self_of_not_mem hline, List.map_cons, List.map_cons, ih,
      Text.trim_concat line hblank]

theorem namesIn_concat (text : List Char) : namesIn (text ++ ['\n']) = namesIn text ++ [""] := by
  unfold namesIn
  rw [List.splitOn_append_cons_self, List.map_append]
  rfl

/-- Bytes with the same lines are texts together, and then list the same. -/
theorem SameLines.listings_eq {bytes bytes' : List UInt8} (h : SameLines bytes bytes')
    (source : String) :
    (textOf? bytes').map (listingsOfText source) = (textOf? bytes).map (listingsOfText source) := by
  cases htext : textOf? bytes with
  | some text =>
    obtain rfl := textOf?_eq_some_iff.1 htext
    cases h with
    | refl => rw [htext]
    | returns =>
      have hbytes : bytesOf (String.ofList (insertBefore '\r' '\n' text.toList)) =
          insertBefore 0x0D Stream.lineEnd (bytesOf text) := by
        rw [bytesOf_eq_encode, bytesOf_eq_encode, String.toList_ofList, encode_insertBefore]
      rw [textOf?_eq_some_iff.2 hbytes, Option.map_some, Option.map_some, listingsOfText,
        String.toList_ofList, namesIn_insertBefore]
      rfl
    | ended =>
      have hbytes : bytesOf (text ++ "\n") = bytesOf text ++ [Stream.lineEnd] := by
        rw [bytesOf_append]
        rfl
      rw [textOf?_eq_some_iff.2 hbytes, Option.map_some, Option.map_some, listingsOfText,
        String.toList_append]
      have hnames : namesIn (text.toList ++ "\n".toList) = namesIn text.toList ++ [""] :=
        namesIn_concat text.toList
      rw [hnames, listingsNamed_concat_empty]
      rfl
  | none =>
    have hnot : ¬IsText bytes := textOf?_eq_none_iff.1 htext
    have hnot' : ¬IsText bytes' := by
      cases h with
      | refl => exact hnot
      | returns => exact fun h => hnot (isText_of_insertBefore h)
      | ended => exact fun h => hnot (Stream.isText_append_lineEnd_iff.1 h).1
    rw [textOf?_eq_none_iff.2 hnot']

theorem readTexts_congr {resources resources' : List (String × List UInt8)}
    (h : List.Forall₂ (fun a b => a.1 = b.1 ∧ SameLines a.2 b.2) resources resources') :
    readTexts resources' = readTexts resources := by
  induction h with
  | nil => rfl
  | @cons a b rest rest' hfirst _ ih =>
    obtain ⟨source, bytes⟩ := a
    obtain ⟨source', bytes'⟩ := b
    obtain ⟨hsource, hlines⟩ := hfirst
    have hsource' : source = source' := hsource
    subst hsource'
    have hlistings := hlines.listings_eq source
    unfold readTexts
    rw [ih]
    simp only at hlistings ⊢
    cases htext : textOf? bytes with
    | some text =>
      rw [htext] at hlistings
      obtain ⟨text', htext', heq⟩ := Option.map_eq_some_iff.1 hlistings
      rw [htext']
      simp only [heq]
    | none =>
      rw [htext, Option.map_none, Option.map_eq_none_iff] at hlistings
      rw [hlistings]

/-- Let every root have nothing at the path or some bytes. Reading fails if and only if what is
located is not all UTF-8, and then with the one fault that names the first resource which is not.
Else it lists, in the order of the search path and then of the lines, one name for each line that is
not blank: the line without the blanks around it, with its source and its number. To put carriage
returns before line feeds, or one more line feed at the end, changes nothing. -/
theorem read_by_lines {files : Files} {path : String} {roots : List ModuleRoot}
    (hsound : ∀ root ∈ roots, Sound files path root) :
    ((∃ fault, (read files path roots).outcome = .error fault) ↔
        ∃ resource ∈ resources files path roots, ¬IsText resource.2) ∧
      (∀ fault, (read files path roots).outcome = .error fault →
        ∃ before source bytes after,
          resources files path roots = before ++ (source, bytes) :: after ∧
            (∀ other ∈ before, IsText other.2) ∧ ¬IsText bytes ∧
            fault = ⟨.unreadableManifest, [source, "stream did not contain valid UTF-8"]⟩) ∧
      (∀ texts, (resources files path roots).map (·.2) = texts.map bytesOf →
        (read files path roots).outcome = .ok
          (List.zipWith listingsOfText ((resources files path roots).map (·.1)) texts).flatten) ∧
      ∀ files' roots', (∀ root ∈ roots', Sound files' path root) →
        List.Forall₂ (fun a b => a.1 = b.1 ∧ SameLines a.2 b.2)
          (resources files path roots) (resources files' path roots') →
        (read files' path roots').outcome = (read files path roots).outcome := by
  have houtcome := outcome_read_of_sound hsound
  refine ⟨?_, ?_, ?_, ?_⟩
  · rw [houtcome]
    constructor
    · rintro ⟨fault, hfault⟩
      obtain ⟨before, source, bytes, after, hsplit, -, hnot, -⟩ := readTexts_eq_error_iff.1 hfault
      exact ⟨(source, bytes), hsplit ▸ List.mem_append_right _ List.mem_cons_self, hnot⟩
    · rintro ⟨resource, hresource, hnot⟩
      cases hread : readTexts (resources files path roots) with
      | error fault => exact ⟨fault, rfl⟩
      | ok listings => exact absurd (isText_of_readTexts hread resource hresource) hnot
  · intro fault hfault
    rw [houtcome] at hfault
    exact readTexts_eq_error_iff.1 hfault
  · intro texts htexts
    rw [houtcome]
    exact readTexts_of_texts htexts
  · intro files' roots' hsound' hsame
    rw [houtcome, outcome_read_of_sound hsound']
    exact readTexts_congr hsame

/-- A folder with a manifest `m` that holds some bytes, and a folder with one that is not a text. -/
def twoFolders (bytes : List UInt8) : Files where
  folders := [["a"], ["b"]]
  files := [(["a", "m"], bytes), (["b", "m"], [0x61, 0x0A, 0xFF])]

/-- The lines of the first folder are listed, and no others where lines end in carriage returns. The
second folder is the fault of the two. -/
theorem read_twoFolders :
    (∀ root ∈ [ModuleRoot.folder "a", .folder "b"],
        Sound (twoFolders (bytesOf "é\n\n b")) "m" root) ∧
      (read (twoFolders (bytesOf "é\n\n b")) "m" [.folder "a"]).outcome =
        .ok [⟨"a/m", 1, "é"⟩, ⟨"a/m", 3, "b"⟩] ∧
      (read (twoFolders (bytesOf "é\r\n\r\n b")) "m" [.folder "a"]).outcome =
        (read (twoFolders (bytesOf "é\n\n b")) "m" [.folder "a"]).outcome ∧
      ∃ fault, (read (twoFolders (bytesOf "é\n\n b")) "m" [.folder "a", .folder "b"]).outcome =
        .error fault := by
  have hopened : ∀ bytes, (ModuleRoot.folder "a").openPath (twoFolders bytes) "m" =
      .opened { bytes } := by
    intro bytes
    cbv
  have hopened' : ∀ bytes, (ModuleRoot.folder "b").openPath (twoFolders bytes) "m" =
      .opened { bytes := [0x61, 0x0A, 0xFF] } := by
    intro bytes
    cbv
  have hsound : ∀ bytes, ∀ root ∈ [ModuleRoot.folder "a"], Sound (twoFolders bytes) "m" root := by
    intro bytes
    exact List.forall_mem_singleton.2 (.inr ⟨bytes, hopened bytes⟩)
  have hboth : ∀ bytes, ∀ root ∈ [ModuleRoot.folder "a", .folder "b"],
      Sound (twoFolders bytes) "m" root := by
    intro bytes
    exact List.forall_mem_cons.2 ⟨.inr ⟨bytes, hopened bytes⟩,
      List.forall_mem_singleton.2 (.inr ⟨_, hopened' bytes⟩)⟩
  have hresources : ∀ bytes, resources (twoFolders bytes) "m" [.folder "a"] = [("a/m", bytes)] := by
    intro bytes
    simp only [resources, resource?, List.filterMap_cons, List.filterMap_nil, hopened]
    rfl
  have hspoiled : ∀ bytes, ("b/m", [0x61, 0x0A, 0xFF]) ∈
      resources (twoFolders bytes) "m" [.folder "a", .folder "b"] := by
    intro bytes
    refine List.mem_filterMap.2 ⟨.folder "b", by simp, ?_⟩
    simp only [resource?, hopened']
    rfl
  have hnot : ¬IsText [0x61, 0x0A, 0xFF] := by
    rw [← textOf?_eq_none_iff]
    decide +kernel
  obtain ⟨-, -, hlists, hsame⟩ := read_by_lines (hsound (bytesOf "é\n\n b"))
  rw [hresources] at hlists hsame
  refine ⟨hboth _, ?_, ?_, ?_⟩
  · rw [hlists ["é\n\n b"] rfl]
    decide +kernel
  · refine hsame _ _ (hsound _) ?_
    rw [hresources]
    exact .cons ⟨rfl, SameLines.returns (bytesOf "é\n\n b")⟩ .nil
  · exact (read_by_lines (hboth _)).1.2 ⟨_, hspoiled _, hnot⟩

end Manifest

end PluginDiscovery
