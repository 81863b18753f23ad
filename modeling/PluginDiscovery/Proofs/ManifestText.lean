import PluginDiscovery.Proofs.Bytes
import PluginDiscovery.Proofs.Reading

/-!
# Reading back written manifests

A manifest is written line by line, each line with a line feed at its end. Reading cuts the bytes at
line feeds. No other character has that byte among its own, so what is read are the lines that were
written (`Stream.lines_ofText`), and what is listed are the names on them
(`Manifest.names_listings`).
-/

namespace PluginDiscovery

namespace Stream

theorem linesOf_cons {text : String} {rest : List (List UInt8)} (h : rest ≠ []) :
    linesOf none (bytesOf text :: rest) =
      (text :: (linesOf none rest).1, (linesOf none rest).2) := by
  cases rest with
  | nil => exact absurd rfl h
  | cons next rest =>
    rw [linesOf, textOf?_bytesOf]
    exact fun hnil => List.cons_ne_nil _ _ hnil

theorem linesOf_singleton (text : String) :
    linesOf none [bytesOf text] = (if text = "" then [] else [text], none) := by
  have hempty : (bytesOf text).isEmpty = true ↔ text = "" := by
    rw [List.isEmpty_iff, ← List.length_eq_zero_iff]
    exact String.utf8ByteSize_eq_zero_iff
  unfold linesOf
  by_cases h : text = ""
  · rw [if_pos h]
    simp only [hempty.2 h, if_true]
  · have hnot : (bytesOf text).isEmpty = false := by
      rw [← Bool.not_eq_true, hempty]
      exact h
    simp only [hnot, h, textOf?_bytesOf, if_false, Bool.false_eq_true]

theorem lineEnd_not_mem_bytesOf {line : String} (h : '\n' ∉ line.toList) :
    lineEnd ∉ bytesOf line := by
  have hascii : ('\n' : Char).toNat ≤ 127 := by decide
  rw [bytesOf_eq_encode]
  exact fun hmem => h ((mem_encode_of_ascii hascii).1 hmem)

/-- The bytes of lines, cut at the line feeds. -/
theorem splitOn_bytesOf_join {lines : List String} {last : String}
    (hlines : ∀ line ∈ lines, '\n' ∉ line.toList) (hlast : '\n' ∉ last.toList) :
    (bytesOf (String.join (lines.map fun line => line ++ "\n") ++ last)).splitOn lineEnd =
      lines.map bytesOf ++ [bytesOf last] := by
  induction lines with
  | nil =>
    rw [List.map_nil, String.join_nil, String.empty_append]
    exact List.splitOn_eq_singleton (lineEnd_not_mem_bytesOf hlast)
  | cons line lines ih =>
    have hline : lineEnd ∉ bytesOf line :=
      lineEnd_not_mem_bytesOf (hlines line List.mem_cons_self)
    have hrest := ih fun other hother => hlines other (List.mem_cons_of_mem _ hother)
    have hbytes : bytesOf (String.join ((line :: lines).map fun line => line ++ "\n") ++ last) =
        bytesOf line ++ lineEnd ::
          bytesOf (String.join (lines.map fun line => line ++ "\n") ++ last) := by
      rw [List.map_cons, String.join_cons, String.append_assoc, String.append_assoc, bytesOf_append,
        bytesOf_append]
      rfl
    rw [hbytes, List.splitOn_append_cons_self_of_not_mem hline, hrest]
    rfl

/-- The pieces of bytes that are texts are read as these texts. An empty last piece is no line. -/
theorem linesOf_map_bytesOf (texts : List String) (last : String) :
    linesOf none (texts.map bytesOf ++ [bytesOf last]) =
      (texts ++ if last = "" then [] else [last], none) := by
  induction texts with
  | nil => exact linesOf_singleton last
  | cons text texts ih =>
    have hne : texts.map bytesOf ++ [bytesOf last] ≠ [] := List.concat_ne_nil _ _
    rw [List.map_cons, List.cons_append, linesOf_cons hne, ih]
    rfl

/-- Lines that were written, and a text after them that is not ended, are read back. -/
theorem lines_ofText {lines : List String} {last : String}
    (hlines : ∀ line ∈ lines, '\n' ∉ line.toList) (hlast : '\n' ∉ last.toList) :
    (ofText (String.join (lines.map fun line => line ++ "\n") ++ last)).lines =
      (lines ++ if last = "" then [] else [last], none) := by
  have hpieces := splitOn_bytesOf_join hlines hlast
  unfold Stream.lines ofText
  simp only
  rw [hpieces, linesOf_map_bytesOf lines]

end Stream

namespace Manifest

/-- The names on some lines are those lines without the blanks around them, as far as anything is
left of them. -/
theorem names_listings (source : String) (texts : List String) (start : Nat) :
    (listings source (texts.zipIdx start)).map (·.typeName) =
      (texts.map Text.trim).filter (!·.isEmpty) := by
  induction texts generalizing start with
  | nil => rfl
  | cons text texts ih =>
    have hrest := ih (start + 1)
    unfold listings at hrest ⊢
    rw [List.zipIdx_cons, List.filterMap_cons, List.map_cons, List.filter_cons]
    by_cases hempty : (Text.trim text).isEmpty = true
    · simp only [hempty]
      exact hrest
    · rw [Bool.not_eq_true] at hempty
      simp only [hempty]
      exact congrArg (List.cons _) hrest

/-- Lines that name types without blanks list these names, in order. -/
theorem names_listings_of_not_blank {texts : List String}
    (h : ∀ text ∈ texts, text ≠ "" ∧ ∀ c ∈ text.toList, Text.isBlank c = false) (source : String)
    (start : Nat) :
    (listings source (texts.zipIdx start)).map (·.typeName) = texts := by
  have htrim : texts.map Text.trim = texts := by
    refine (List.map_congr_left fun text htext => ?_).trans (List.map_id _)
    exact Text.trim_eq_self (h text htext).2
  rw [names_listings, htrim, List.filter_eq_self]
  intro text htext
  have hne : text ≠ "" := (h text htext).1
  simp [hne]

/-- A fragment that was written from names without blanks can be read, and lists these names. -/
theorem names_listingsOf_written {files : Files} {path : String} {root : ModuleRoot}
    {names : List String} {last : String}
    (hopen : root.openPath files path =
      .opened (.ofText (String.join (names.map fun name => name ++ "\n") ++ last)))
    (hnames : ∀ name ∈ names, name ≠ "" ∧ ∀ c ∈ name.toList, Text.isBlank c = false)
    (hlast : ∀ c ∈ last.toList, Text.isBlank c = false) :
    Readable files path root ∧
      (listingsOf files path root).map (·.typeName) =
        names ++ if last = "" then [] else [last] := by
  have hfeed : ∀ text : String, (∀ c ∈ text.toList, Text.isBlank c = false) →
      '\n' ∉ text.toList := by
    intro text htext hmem
    have hblank : Text.isBlank '\n' = true := by decide
    rw [htext _ hmem] at hblank
    cases hblank
  have hlines := Stream.lines_ofText (fun name hname => hfeed name (hnames name hname).2)
    (hfeed last hlast)
  obtain ⟨hreadable, hlistings⟩ := readable_of_lines hopen hlines
  refine ⟨hreadable, ?_⟩
  rw [hlistings]
  refine names_listings_of_not_blank (fun text htext => ?_) _ _
  rcases List.mem_append.1 htext with htext | htext
  · exact hnames text htext
  · split at htext
    · cases htext
    · next hne =>
      rw [List.mem_singleton.1 htext]
      exact ⟨hne, hlast⟩

end Manifest

end PluginDiscovery
