import PluginDiscovery.Files

/-!
# The bytes of texts

A text is kept in files as the UTF-8 bytes of its characters, one character after the other. So the
bytes of a text that is put together are those of its parts, and what is read back from the bytes of
a text is the text. A character of ASCII has one byte, and that byte is part of no other character:
where a text is cut at such bytes, no character is cut, and bytes are those of a text if they are so
on both sides of such a byte (`isText_append_cons_iff`). Texts are in the order of their bytes
(`bytesOf_lt_iff`), and the bytes of a text start with those of another only if the text starts with
the other (`encode_eq_encode_append_iff`).
-/

namespace PluginDiscovery

/-- The bytes of some characters. -/
def encode (text : List Char) : List UInt8 := text.flatMap String.utf8EncodeChar

theorem bytesOf_eq_encode (text : String) : bytesOf text = encode text.toList := by
  unfold bytesOf encode
  rw [String.toUTF8_eq_toByteArray, ← String.utf8Encode_toList, List.utf8Encode,
    List.toList_data_toByteArray]

theorem encode_append (first second : List Char) :
    encode (first ++ second) = encode first ++ encode second :=
  List.flatMap_append

theorem encode_cons (c : Char) (rest : List Char) :
    encode (c :: rest) = String.utf8EncodeChar c ++ encode rest :=
  List.flatMap_cons

theorem bytesOf_append (first second : String) :
    bytesOf (first ++ second) = bytesOf first ++ bytesOf second := by
  rw [bytesOf_eq_encode, bytesOf_eq_encode, bytesOf_eq_encode, String.toList_append, encode_append]

theorem textOf?_bytesOf (text : String) : textOf? (bytesOf text) = some text := by
  have hbytes : (⟨(bytesOf text).toArray⟩ : ByteArray) = text.toByteArray := rfl
  unfold textOf? String.fromUTF8?
  rw [hbytes, dif_pos text.isValidUTF8]
  rfl

theorem ofNat_eq_ofNat {m n : Nat} (hm : m < 256) (hn : n < 256) :
    UInt8.ofNat m = UInt8.ofNat n ↔ m = n := by
  rw [← UInt8.toNat_inj, UInt8.toNat_ofNat', UInt8.toNat_ofNat']
  omega

theorem utf8EncodeChar_of_ascii {c : Char} (h : c.toNat ≤ 127) :
    String.utf8EncodeChar c = [UInt8.ofNat c.toNat] := by
  rw [String.utf8EncodeChar]
  exact if_pos h

/-- The bytes of all other characters are too great to be ASCII. -/
theorem le_toNat_of_mem_utf8EncodeChar {c : Char} {byte : UInt8} (hc : ¬c.toNat ≤ 127)
    (hbyte : byte ∈ String.utf8EncodeChar c) : 128 ≤ byte.toNat := by
  have hc' : ¬c.val.toNat ≤ 127 := hc
  rw [String.utf8EncodeChar] at hbyte
  simp only [hc', if_false] at hbyte
  split at hbyte
  · simp only [List.mem_cons, List.not_mem_nil, or_false] at hbyte
    rcases hbyte with rfl | rfl <;> rw [UInt8.toNat_ofNat'] <;> omega
  · split at hbyte
    · simp only [List.mem_cons, List.not_mem_nil, or_false] at hbyte
      rcases hbyte with rfl | rfl | rfl <;> rw [UInt8.toNat_ofNat'] <;> omega
    · simp only [List.mem_cons, List.not_mem_nil, or_false] at hbyte
      rcases hbyte with rfl | rfl | rfl | rfl <;> rw [UInt8.toNat_ofNat'] <;> omega

/-- A character of ASCII is where its byte is. -/
theorem encode_eq_append_cons_iff {c : Char} (hc : c.toNat ≤ 127) {text : List Char}
    {first rest : List UInt8} :
    encode text = first ++ UInt8.ofNat c.toNat :: rest ↔
      ∃ before after, text = before ++ c :: after ∧ encode before = first ∧
        encode after = rest := by
  constructor
  · intro h
    induction text generalizing first with
    | nil =>
      have hnil : first ++ UInt8.ofNat c.toNat :: rest = [] := h.symm
      simp at hnil
    | cons d text ih =>
      rw [encode_cons] at h
      by_cases hd : d.toNat ≤ 127
      · rw [utf8EncodeChar_of_ascii hd, List.singleton_append] at h
        cases first with
        | nil =>
          obtain ⟨hbyte, hrest⟩ := List.cons.inj h
          have hsame : d = c := by
            have hnat : d.toNat = c.toNat := (ofNat_eq_ofNat (by omega) (by omega)).1 hbyte
            exact Char.ext (UInt32.toNat_inj.1 hnat)
          exact ⟨[], text, by rw [hsame]; rfl, rfl, hrest⟩
        | cons byte first =>
          obtain ⟨rfl, hrest⟩ := List.cons.inj h
          obtain ⟨before, after, rfl, rfl, rfl⟩ := ih hrest
          refine ⟨d :: before, after, rfl, ?_, rfl⟩
          rw [encode_cons, utf8EncodeChar_of_ascii hd]
          rfl
      · -- all bytes of the first character come before the byte
        have hnot : UInt8.ofNat c.toNat ∉ String.utf8EncodeChar d := by
          intro hmem
          have hle := le_toNat_of_mem_utf8EncodeChar hd hmem
          rw [UInt8.toNat_ofNat'] at hle
          omega
        rcases List.append_eq_append_iff.1 h with ⟨more, hfirst, hrest⟩ | ⟨more, hchar, hrest⟩
        · obtain ⟨before, after, rfl, rfl, rfl⟩ := ih hrest
          refine ⟨d :: before, after, rfl, ?_, rfl⟩
          rw [encode_cons, hfirst]
        · cases more with
          | nil =>
            have hrest' : encode text = [] ++ UInt8.ofNat c.toNat :: rest := hrest.symm
            obtain ⟨before, after, rfl, hbefore, rfl⟩ := ih hrest'
            refine ⟨d :: before, after, rfl, ?_, rfl⟩
            rw [encode_cons, hbefore, hchar]
            simp
          | cons byte more =>
            obtain ⟨rfl, -⟩ := List.cons.inj hrest
            exact absurd (hchar ▸ List.mem_append_right _ List.mem_cons_self) hnot
  · rintro ⟨before, after, rfl, rfl, rfl⟩
    rw [encode_append, encode_cons, utf8EncodeChar_of_ascii hc]
    rfl

/-- The byte of a character of ASCII stands in the bytes of a text only where the character does. -/
theorem mem_encode_of_ascii {c : Char} (h : c.toNat ≤ 127) {text : List Char} :
    UInt8.ofNat c.toNat ∈ encode text ↔ c ∈ text := by
  constructor
  · intro hmem
    obtain ⟨first, rest, hsplit⟩ := List.append_of_mem hmem
    obtain ⟨before, after, rfl, -, -⟩ := (encode_eq_append_cons_iff h).1 hsplit
    exact List.mem_append_right _ List.mem_cons_self
  · intro hmem
    obtain ⟨before, after, rfl⟩ := List.append_of_mem hmem
    rw [(encode_eq_append_cons_iff h).2 ⟨before, after, rfl, rfl, rfl⟩]
    exact List.mem_append_right _ List.mem_cons_self

/-! ## Texts among bytes -/

/-- The bytes are those of a text: they are valid UTF-8. -/
def IsText (bytes : List UInt8) : Prop := ∃ text : String, bytesOf text = bytes

theorem isText_iff_encode {bytes : List UInt8} : IsText bytes ↔ ∃ text, encode text = bytes := by
  constructor
  · rintro ⟨text, rfl⟩
    exact ⟨text.toList, (bytesOf_eq_encode text).symm⟩
  · rintro ⟨text, rfl⟩
    exact ⟨String.ofList text, by rw [bytesOf_eq_encode, String.toList_ofList]⟩

theorem isText_nil : IsText [] := ⟨"", rfl⟩

theorem textOf?_eq_some_iff {bytes : List UInt8} {text : String} :
    textOf? bytes = some text ↔ bytesOf text = bytes := by
  constructor
  · intro h
    unfold textOf? String.fromUTF8? at h
    split at h
    · cases h
      rfl
    · cases h
  · rintro rfl
    exact textOf?_bytesOf text

theorem textOf?_eq_none_iff {bytes : List UInt8} : textOf? bytes = none ↔ ¬IsText bytes := by
  rw [Option.eq_none_iff_forall_ne_some]
  constructor
  · rintro h ⟨text, htext⟩
    exact h text (textOf?_eq_some_iff.2 htext)
  · intro h text htext
    exact h ⟨text, textOf?_eq_some_iff.1 htext⟩

/-- Bytes are those of a text if they are so on both sides of a byte of ASCII. -/
theorem isText_append_cons_iff {c : Char} (hc : c.toNat ≤ 127) {first rest : List UInt8} :
    IsText (first ++ UInt8.ofNat c.toNat :: rest) ↔ IsText first ∧ IsText rest := by
  rw [isText_iff_encode, isText_iff_encode, isText_iff_encode]
  constructor
  · rintro ⟨text, htext⟩
    obtain ⟨before, after, -, hbefore, hafter⟩ := (encode_eq_append_cons_iff hc).1 htext
    exact ⟨⟨before, hbefore⟩, after, hafter⟩
  · rintro ⟨⟨before, hbefore⟩, after, hafter⟩
    exact ⟨before ++ c :: after,
      (encode_eq_append_cons_iff hc).2 ⟨before, after, rfl, hbefore, hafter⟩⟩

/-! ## Lines -/

/-- What holds of a line, and of a line with more lines after it if it holds of these, holds of all
lists. -/
theorem line_induction {α : Type} (lineEnd : α) {motive : List α → Prop}
    (last : ∀ line, lineEnd ∉ line → motive line)
    (more : ∀ line rest, lineEnd ∉ line → motive rest → motive (line ++ lineEnd :: rest))
    (items : List α) : motive items := by
  by_cases hmem : lineEnd ∈ items
  · obtain ⟨line, rest, rfl, hline⟩ := List.eq_append_cons_of_mem hmem
    exact more line rest hline (line_induction lineEnd last more rest)
  · exact last items hmem
termination_by items.length
decreasing_by
  subst_vars
  simp only [List.length_append, List.length_cons]
  omega

/-! ## Order -/

theorem ofNat_lt_ofNat {m n : Nat} (hm : m < 256) (hn : n < 256) :
    UInt8.ofNat m < UInt8.ofNat n ↔ m < n := by
  rw [UInt8.lt_iff_toNat_lt, UInt8.toNat_ofNat', UInt8.toNat_ofNat']
  omega

/-- Characters are ordered as their bytes are, whatever follows them. -/
theorem utf8EncodeChar_append_lt {c d : Char} (h : c.toNat < d.toNat) (rest rest' : List UInt8) :
    String.utf8EncodeChar c ++ rest < String.utf8EncodeChar d ++ rest' := by
  have hbound : d.val.toNat < 1114112 := by
    have hvalid := d.valid
    simp only [UInt32.isValidChar, Nat.isValidChar] at hvalid
    omega
  have h' : c.val.toNat < d.val.toNat := h
  -- all bytes but the first hold one digit to base 64
  have htwo : ∀ n : Nat, n / 4096 = n / 64 / 64 := fun n => by omega
  have hthree : ∀ n : Nat, n / 262144 = n / 64 / 64 / 64 := fun n => by omega
  simp only [String.utf8EncodeChar, htwo, hthree]
  generalize c.val.toNat = m at h' ⊢
  generalize d.val.toNat = n at h' hbound ⊢
  repeat' split
  all_goals
    simp (disch := omega) only [List.cons_append, List.nil_append, List.cons_lt_cons_iff,
      ofNat_lt_ofNat, ofNat_eq_ofNat]
    omega

theorem encode_lt {text text' : List Char} (h : text < text') : encode text < encode text' := by
  induction text generalizing text' with
  | nil =>
    cases text' with
    | nil => exact absurd h (List.lt_irrefl [])
    | cons d rest' =>
      rw [encode_cons]
      cases hbytes : String.utf8EncodeChar d with
      | nil => exact absurd hbytes String.utf8EncodeChar_ne_nil
      | cons byte bytes => exact List.nil_lt_cons byte _
  | cons c rest ih =>
    cases text' with
    | nil => exact absurd h (List.not_lt_nil _)
    | cons d rest' =>
      rw [encode_cons, encode_cons]
      rcases List.cons_lt_cons_iff.1 h with hlt | ⟨rfl, hrest⟩
      · exact utf8EncodeChar_append_lt hlt _ _
      · exact List.append_left_lt (ih hrest)

/-- Texts are ordered as their bytes are. -/
theorem bytesOf_lt_iff {first second : String} :
    bytesOf first < bytesOf second ↔ first < second := by
  rw [bytesOf_eq_encode, bytesOf_eq_encode]
  constructor
  · intro h
    rcases Std.lt_trichotomy first second with hlt | rfl | hlt
    · exact hlt
    · exact absurd h (List.lt_irrefl _)
    · exact absurd (encode_lt hlt) (List.lt_asymm h)
  · intro h
    exact encode_lt h

theorem bytesOf_le_iff {first second : String} :
    bytesOf first ≤ bytesOf second ↔ first ≤ second := by
  rw [← List.not_lt, bytesOf_lt_iff, String.not_lt]

/-! ## Texts within texts -/

/-- Bytes that start with those of a text are those of a text only if that text starts with it. -/
theorem encode_eq_encode_append_iff {text part : List Char} {rest : List UInt8} :
    encode text = encode part ++ rest ↔ ∃ after, text = part ++ after ∧ encode after = rest := by
  constructor
  · intro h
    induction part generalizing text with
    | nil => exact ⟨text, rfl, h⟩
    | cons d part ih =>
      rw [encode_cons, List.append_assoc] at h
      cases text with
      | nil =>
        have hnil : String.utf8EncodeChar d = [] := (List.append_eq_nil_iff.1 h.symm).1
        exact absurd hnil String.utf8EncodeChar_ne_nil
      | cons c text =>
        rw [encode_cons] at h
        -- the bytes of different characters differ, whatever follows them
        rcases Nat.lt_trichotomy c.toNat d.toNat with hlt | heq | hlt
        · have hbytes := utf8EncodeChar_append_lt hlt (encode text) (encode part ++ rest)
          rw [h] at hbytes
          exact absurd hbytes (List.lt_irrefl _)
        · have hsame : c = d := Char.ext (UInt32.toNat_inj.1 heq)
          subst hsame
          obtain ⟨after, rfl, hafter⟩ := ih (List.append_cancel_left h)
          exact ⟨after, rfl, hafter⟩
        · have hbytes := utf8EncodeChar_append_lt hlt (encode part ++ rest) (encode text)
          rw [h] at hbytes
          exact absurd hbytes (List.lt_irrefl _)
  · rintro ⟨after, rfl, rfl⟩
    exact encode_append part after

/-- A text that starts with a character of ASCII is where its bytes are. -/
theorem encode_eq_append_encode_iff {c : Char} (hc : c.toNat ≤ 127) {text part : List Char}
    {first rest : List UInt8} :
    encode text = first ++ encode (c :: part) ++ rest ↔
      ∃ before after, text = before ++ c :: part ++ after ∧ encode before = first ∧
        encode after = rest := by
  rw [encode_cons, utf8EncodeChar_of_ascii hc, List.append_assoc, List.append_assoc,
    List.singleton_append, encode_eq_append_cons_iff hc]
  constructor
  · rintro ⟨before, more, rfl, hbefore, hmore⟩
    obtain ⟨after, rfl, hafter⟩ := encode_eq_encode_append_iff.1 hmore
    exact ⟨before, after, by rw [List.append_assoc, List.cons_append], hbefore, hafter⟩
  · rintro ⟨before, after, rfl, hbefore, hafter⟩
    refine ⟨before, part ++ after, by rw [List.append_assoc, List.cons_append], hbefore, ?_⟩
    exact encode_eq_encode_append_iff.2 ⟨after, rfl, hafter⟩

/-- Of two texts that a third starts with, the one with more characters has more bytes. -/
theorem length_encode_le_iff {text first second : List Char} (hfirst : first <+: text)
    (hsecond : second <+: text) :
    (encode first).length ≤ (encode second).length ↔ first.length ≤ second.length := by
  have hlength : ∀ more : List Char, (encode more).length = 0 ↔ more.length = 0 := by
    intro more
    cases more with
    | nil => exact Iff.rfl
    | cons c more =>
      have hpos := List.length_pos_iff.2 (String.utf8EncodeChar_ne_nil (c := c))
      rw [encode_cons, List.length_append, List.length_cons]
      omega
  rcases List.prefix_or_prefix_of_prefix hfirst hsecond with ⟨more, rfl⟩ | ⟨more, rfl⟩
  · rw [encode_append, List.length_append, List.length_append]
    exact iff_of_true (Nat.le_add_right _ _) (Nat.le_add_right _ _)
  · have hmore := hlength more
    rw [encode_append, List.length_append, List.length_append]
    omega

/-- Two texts with as many bytes are the same if a third starts with both. -/
theorem eq_of_length_encode {text first second : List Char} (hfirst : first <+: text)
    (hsecond : second <+: text) (h : (encode first).length = (encode second).length) :
    first = second := by
  have hle := (length_encode_le_iff hfirst hsecond).1 (Nat.le_of_eq h)
  have hge := (length_encode_le_iff hsecond hfirst).1 (Nat.le_of_eq h.symm)
  exact (List.prefix_of_prefix_length_le hfirst hsecond hle).eq_of_length
    (Nat.le_antisymm hle hge)

end PluginDiscovery
