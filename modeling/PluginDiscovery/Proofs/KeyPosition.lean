import PluginDiscovery.Config.KeyPosition
import PluginDiscovery.Proofs.Bytes

/-!
# Where a key is found

`keyOffset?` adds up the bytes of what it passes over: the header of the section with all that comes
before it, then whole lines, then the blanks at the start of a line. Whatever it passes over is a
piece of the text, so the sum is the length of the text before the key. `GivesAt` is what each part
of the search establishes about the text that it has been given, and `GivesAt.prepend` takes it from
there to the whole text.
-/

namespace PluginDiscovery.Config

/-! ## Lengths in bytes -/

theorem byteLength_cons (c : Char) (rest : List Char) :
    byteLength (c :: rest) = c.utf8Size + byteLength rest := rfl

theorem byteLength_eq_length_encode (text : List Char) :
    byteLength text = (encode text).length := by
  induction text with
  | nil => rfl
  | cons c rest ih =>
    rw [byteLength_cons, encode_cons, List.length_append, String.length_utf8EncodeChar, ih]

theorem byteLength_append (first second : List Char) :
    byteLength (first ++ second) = byteLength first + byteLength second := by
  simp only [byteLength_eq_length_encode, encode_append, List.length_append]

/-! ## What is found -/

/-- A character that may follow a key. -/
def FollowsKey (c : Char) : Prop := c = ' ' ∨ c = '=' ∨ c = '\t'

theorem FollowsKey.le_toNat {c : Char} (h : FollowsKey c) : c.toNat ≤ 127 := by
  rcases h with rfl | rfl | rfl <;> decide

/-- In a text, at an offset in bytes, there is a key and then a character that may follow it. -/
def GivesAt (text key : List Char) (offset : Nat) : Prop :=
  ∃ before c rest, text = before ++ key ++ c :: rest ∧ FollowsKey c ∧ offset = byteLength before

theorem GivesAt.prepend {text key : List Char} {offset : Nat} (h : GivesAt text key offset)
    (first : List Char) : GivesAt (first ++ text) key (byteLength first + offset) := by
  obtain ⟨before, c, rest, rfl, hc, rfl⟩ := h
  refine ⟨first ++ before, c, rest, ?_, hc, ?_⟩
  · simp only [List.append_assoc]
  · rw [byteLength_append]

theorem GivesAt.append {text key : List Char} {offset : Nat} (h : GivesAt text key offset)
    (last : List Char) : GivesAt (text ++ last) key offset := by
  obtain ⟨before, c, rest, rfl, hc, rfl⟩ := h
  exact ⟨before, c, rest ++ last, by simp only [List.append_assoc, List.cons_append], hc, rfl⟩

/-! ## The parts of the search -/

/-- What comes after a part starts where that part ends. -/
theorem after?_eq_some {part text rest : List Char} {offset : Nat}
    (h : after? part text = some (offset, rest)) :
    ∃ before, text = before ++ part ++ rest ∧ offset = byteLength (before ++ part) := by
  induction text generalizing offset with
  | nil =>
    unfold after? at h
    split at h
    · next hempty =>
      cases h
      rw [List.isEmpty_iff.1 hempty]
      exact ⟨[], rfl, rfl⟩
    · cases h
  | cons c text ih =>
    unfold after? at h
    split at h
    · next hpart =>
      cases h
      have hprefix := List.isPrefixOf_iff_prefix.1 hpart
      exact ⟨[], (List.prefix_iff_eq_append.1 hprefix).symm, rfl⟩
    · obtain ⟨⟨inRest, left⟩, hrest, heq⟩ := Option.map_eq_some_iff.1 h
      cases heq
      obtain ⟨before, rfl, rfl⟩ := ih hrest
      refine ⟨c :: before, rfl, ?_⟩
      rw [List.cons_append, byteLength_cons]
      omega

/-- The lines of a text make up the text. -/
theorem flatten_linesOf (text : List Char) : (linesOf text).flatten = text := by
  induction text with
  | nil => rfl
  | cons c rest ih =>
    unfold linesOf
    split
    · rw [List.flatten_cons, ih]
      rfl
    · cases hlines : linesOf rest with
      | nil =>
        rw [hlines] at ih
        rw [← ih]
        rfl
      | cons line lines =>
        rw [hlines] at ih
        rw [← ih]
        rfl

theorem offsetIn?_eq_some {key line : List Char} {offset : Nat}
    (h : offsetIn? key line = some offset) : GivesAt line key offset := by
  have hline : line.takeWhile Text.isBlank ++ Text.trimStart line = line :=
    List.takeWhile_append_dropWhile
  have hbytes : byteLength line - byteLength (Text.trimStart line) =
      byteLength (line.takeWhile Text.isBlank) := by
    have hsum := congrArg byteLength hline
    rw [byteLength_append] at hsum
    omega
  unfold offsetIn? at h
  simp only at h
  split at h
  · next hkey =>
    have hprefix := List.isPrefixOf_iff_prefix.1 hkey
    have hbody : key ++ (Text.trimStart line).drop key.length = Text.trimStart line :=
      List.prefix_iff_eq_append.1 hprefix
    -- any of the three characters goes on from the key to the rest of the line
    have hgives : ∀ c rest, (Text.trimStart line).drop key.length = c :: rest → FollowsKey c →
        GivesAt line key (byteLength line - byteLength (Text.trimStart line)) := by
      intro c rest hdrop hc
      refine ⟨line.takeWhile Text.isBlank, c, rest, ?_, hc, hbytes⟩
      rw [List.append_assoc, ← hdrop, hbody, hline]
    split at h
    · next rest hdrop =>
      cases h
      exact hgives ' ' rest hdrop (.inl rfl)
    · next rest hdrop =>
      cases h
      exact hgives '=' rest hdrop (.inr (.inl rfl))
    · next rest hdrop =>
      cases h
      exact hgives '\t' rest hdrop (.inr (.inr rfl))
    · cases h
  · cases h

theorem offsetFrom?_eq_some {key : List Char} {lines : List (List Char)} {start offset : Nat}
    (h : offsetFrom? key start lines = some offset) :
    ∃ inLines, GivesAt lines.flatten key inLines ∧ offset = start + inLines := by
  induction lines generalizing start with
  | nil => cases h
  | cons line rest ih =>
    unfold offsetFrom? at h
    split at h
    · next inLine hline =>
      cases h
      exact ⟨inLine, (offsetIn?_eq_some hline).append rest.flatten, rfl⟩
    · obtain ⟨inLines, hgives, rfl⟩ := ih h
      exact ⟨byteLength line + inLines, hgives.prepend line, Nat.add_assoc _ _ _⟩

/-! ## The whole search -/

/-- Where a key is found, the text has the key and a character that may follow it. -/
theorem givesAt_of_keyOffset? {content : String} {path : List String} {key : String} {offset : Nat}
    (h : keyOffset? content path key = some offset) :
    GivesAt content.toList key.toList offset := by
  cases path with
  | nil =>
    obtain ⟨inLines, hgives, rfl⟩ := offsetFrom?_eq_some h
    rw [flatten_linesOf] at hgives
    rw [Nat.zero_add]
    exact hgives
  | cons tableName path =>
    obtain ⟨⟨start, rest⟩, hafter, hrest⟩ := Option.bind_eq_some_iff.1 h
    obtain ⟨before, hcontent, rfl⟩ := after?_eq_some hafter
    obtain ⟨inLines, hgives, rfl⟩ := offsetFrom?_eq_some hrest
    rw [flatten_linesOf] at hgives
    rw [hcontent]
    exact hgives.prepend (before ++ header tableName)

/-- In bytes: from the offset on there are the bytes of the key, and then a space, a tab or an
equals sign. -/
theorem GivesAt.bytes {content key : String} {offset : Nat}
    (h : GivesAt content.toList key.toList offset) :
    offset + (bytesOf key).length ≤ (bytesOf content).length ∧
      ((bytesOf content).drop offset).take (bytesOf key).length = bytesOf key ∧
      ∃ byte, (bytesOf content)[offset + (bytesOf key).length]? = some byte ∧
        (byte = 0x20 ∨ byte = 0x09 ∨ byte = 0x3D) := by
  obtain ⟨before, c, rest, hcontent, hc, rfl⟩ := h
  have hbytes : bytesOf content =
      encode before ++ (bytesOf key ++ UInt8.ofNat c.toNat :: encode rest) := by
    rw [bytesOf_eq_encode, hcontent, encode_append, encode_append, encode_cons,
      utf8EncodeChar_of_ascii hc.le_toNat, ← bytesOf_eq_encode, List.append_assoc]
    rfl
  rw [hbytes, byteLength_eq_length_encode]
  refine ⟨?_, ?_, UInt8.ofNat c.toNat, ?_, ?_⟩
  · rw [List.length_append, List.length_append]
    omega
  · rw [List.drop_left, List.take_left]
  · rw [← List.append_assoc, ← List.length_append, List.getElem?_append_right (Nat.le_refl _),
      Nat.sub_self]
    rfl
  · rcases hc with rfl | rfl | rfl
    · exact .inl rfl
    · exact .inr (.inr rfl)
    · exact .inr (.inl rfl)

end PluginDiscovery.Config
