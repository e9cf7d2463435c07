import AnnotationCheck.Text.Offset

/-!
The bytes of a text.

* `utf8EncodeChar_of_ascii`, `utf8EncodeChar_of_wide` — an ASCII character is one byte, and any other one
  begins with a byte that is no ASCII character.
* **`exists_bytes_cons`** — whether a text begins with a character of an ASCII class is seen from its first
  byte; so are whole ASCII words (`isPrefixOf_bytes`).
* `mem_bytes_iff`, **`fields_bytes`** — ASCII characters are found, and texts are cut at them, byte by byte.
* `size_eq_length` — a text of ASCII characters has as many bytes as characters.
-/

namespace AnnotationCheck.Text

/-! ### Characters -/

theorem toNat_ofUInt8 (byte : UInt8) : (Char.ofUInt8 byte).toNat = byte.toNat :=
  UInt8.toNat_toUInt32 byte

theorem ofUInt8_inj {byte other : UInt8} : Char.ofUInt8 byte = Char.ofUInt8 other ↔ byte = other := by
  rw [← Char.toNat_inj, toNat_ofUInt8, toNat_ofUInt8, UInt8.toNat_inj]

theorem utf8EncodeChar_of_ascii {c : Char} (ascii : c.toNat ≤ 127) :
    ∃ byte, String.utf8EncodeChar c = [byte] ∧ Char.ofUInt8 byte = c := by
  refine ⟨UInt8.ofNat c.toNat, if_pos ascii, Char.toNat_inj.mp ?_⟩
  rw [toNat_ofUInt8, UInt8.toNat_ofNat_of_lt' (by rw [UInt8.size]; omega)]

/-- No byte of another character is that of an ASCII character. -/
theorem wide_of_mem_utf8EncodeChar {c : Char} (wide : 127 < c.toNat) :
    ∀ byte ∈ String.utf8EncodeChar c, 127 < (Char.ofUInt8 byte).toNat := by
  have marked : ∀ part mark : Nat, 128 ≤ mark → part + mark < 256 →
      127 < (Char.ofUInt8 (UInt8.ofNat (part + mark))).toNat := by
    intro part mark large fits
    rw [toNat_ofUInt8, UInt8.toNat_ofNat_of_lt' fits]
    omega
  have notOne : ¬ c.val.toNat ≤ 127 := by
    show ¬ c.toNat ≤ 127
    omega
  have inside (part : Nat) : 127 < (Char.ofUInt8 (UInt8.ofNat (part % 64 + 128))).toNat :=
    marked _ 128 (by omega) (by omega)
  -- the first bytes of two, three and four are marked by 192, 224 and 240, and the others by 128
  unfold String.utf8EncodeChar
  simp only [if_neg notOne]
  split
  · simp only [List.forall_mem_cons]
    exact ⟨marked _ 192 (by omega) (by omega), inside _, nofun⟩
  · split
    · simp only [List.forall_mem_cons]
      exact ⟨marked _ 224 (by omega) (by omega), inside _, inside _, nofun⟩
    · simp only [List.forall_mem_cons]
      exact ⟨marked _ 240 (by omega) (by omega), inside _, inside _, inside _, nofun⟩

theorem utf8EncodeChar_of_wide {c : Char} (wide : 127 < c.toNat) :
    ∃ byte more, String.utf8EncodeChar c = byte :: more ∧ 127 < (Char.ofUInt8 byte).toNat := by
  have some : 0 < (String.utf8EncodeChar c).length := String.length_utf8EncodeChar c ▸ Char.utf8Size_pos c
  obtain ⟨byte, more, encoded⟩ := List.exists_cons_of_length_pos some
  exact ⟨byte, more, encoded, wide_of_mem_utf8EncodeChar wide byte (encoded ▸ List.mem_cons_self)⟩

/-! ### Texts -/

theorem bytes_append (left right : Text) : bytes (left ++ right) = bytes left ++ bytes right := List.flatMap_append

/-- A class that holds no character but ASCII characters. -/
def IsAscii (inClass : Char → Bool) : Prop := ∀ c : Char, inClass c = true → c.toNat ≤ 127

theorem isAscii_eq {mark : Char} (ascii : mark.toNat ≤ 127) : IsAscii (mark == ·) := by
  intro c same
  rw [← eq_of_beq same]
  exact ascii

/-- **Whether a text begins with a character of an ASCII class is seen from its first byte.** -/
theorem exists_bytes_cons {inClass : Char → Bool} (ascii : IsAscii inClass) (c : Char) (rest : Text) :
    ∃ byte more, bytes (c :: rest) = byte :: more ∧ inClass (Char.ofUInt8 byte) = inClass c
      ∧ (inClass c = true → more = bytes rest) := by
  have cut : bytes (c :: rest) = String.utf8EncodeChar c ++ bytes rest := List.flatMap_cons
  by_cases narrow : c.toNat ≤ 127
  · obtain ⟨byte, one, same⟩ := utf8EncodeChar_of_ascii narrow
    exact ⟨byte, bytes rest, by rw [cut, one, List.singleton_append], by rw [same], fun _ => rfl⟩
  · obtain ⟨byte, more, encoded, wide⟩ := utf8EncodeChar_of_wide (Nat.lt_of_not_le narrow)
    have outside : ∀ d : Char, 127 < d.toNat → inClass d = false := fun d large =>
      Bool.eq_false_iff.mpr fun isIn => absurd (ascii d isIn) (by omega)
    have foreign : inClass c = false := outside c (Nat.lt_of_not_le narrow)
    refine ⟨byte, more ++ bytes rest, by rw [cut, encoded, List.cons_append], ?_, ?_⟩
    · rw [foreign, outside _ wide]
    · rw [foreign]
      rintro ⟨⟩

/-- Whether a text begins with an ASCII word is seen from its bytes. -/
theorem isPrefixOf_bytes {word : Text} (ascii : ∀ c ∈ word, c.toNat ≤ 127) (text : Text) :
    (bytes word).isPrefixOf (bytes text) = word.isPrefixOf text := by
  induction word generalizing text with
  | nil => rfl
  | cons mark word ih =>
    have isAscii := isAscii_eq (ascii mark List.mem_cons_self)
    obtain ⟨first, more, begins, isMark, rest⟩ := exists_bytes_cons isAscii mark word
    rw [beq_self_eq_true] at isMark
    rw [begins, rest (beq_self_eq_true mark)]
    cases text with
    | nil => rfl
    | cons c text =>
      obtain ⟨byte, later, begins, sameClass, rest⟩ := exists_bytes_cons isAscii c text
      have sameByte : (first == byte) = (mark == c) := by
        rw [← sameClass, Bool.eq_iff_iff, beq_iff_eq, beq_iff_eq, eq_of_beq isMark, ofUInt8_inj]
      rw [begins, List.isPrefixOf, List.isPrefixOf, sameByte]
      by_cases here : (mark == c) = true
      · rw [here, rest here, ih fun d there => ascii d (List.mem_cons_of_mem mark there)]
      · rw [Bool.eq_false_iff.mpr here, Bool.false_and, Bool.false_and]

theorem size_eq_length {text : Text} (ascii : ∀ c ∈ text, c.toNat ≤ 127) : size text = text.length := by
  induction text with
  | nil => rfl
  | cons c rest ih =>
    have one : c.utf8Size = 1 := Char.utf8Size_eq_one_iff.mpr (ascii c List.mem_cons_self)
    rw [size_cons, one, ih fun d there => ascii d (List.mem_cons_of_mem c there), List.length_cons, Nat.add_comm]

/-! ### ASCII bytes -/

section Ascii

variable {byte : UInt8} (ascii : byte.toNat ≤ 127)
include ascii

theorem utf8EncodeChar_ofUInt8 : String.utf8EncodeChar (Char.ofUInt8 byte) = [byte] := by
  obtain ⟨one, encoded, same⟩ := utf8EncodeChar_of_ascii (c := Char.ofUInt8 byte) (by rwa [toNat_ofUInt8])
  rw [encoded, ofUInt8_inj.mp same]

/-- **An ASCII character stands in a text** exactly if its byte is among those of the text. -/
theorem mem_bytes_iff {text : Text} : byte ∈ bytes text ↔ Char.ofUInt8 byte ∈ text := by
  rw [bytes, List.mem_flatMap]
  constructor
  · rintro ⟨c, there, isByte⟩
    by_cases narrow : c.toNat ≤ 127
    · obtain ⟨one, encoded, rfl⟩ := utf8EncodeChar_of_ascii narrow
      rw [encoded, List.mem_singleton] at isByte
      rwa [isByte]
    · have wide := wide_of_mem_utf8EncodeChar (Nat.lt_of_not_le narrow) byte isByte
      rw [toNat_ofUInt8] at wide
      omega
  · intro there
    refine ⟨_, there, ?_⟩
    rw [utf8EncodeChar_ofUInt8 ascii]
    exact List.mem_singleton_self byte

theorem bytes_intercalate (texts : List Text) :
    bytes ([Char.ofUInt8 byte].intercalate texts) = [byte].intercalate (texts.map bytes) := by
  have separator : bytes [Char.ofUInt8 byte] = [byte] := by
    rw [bytes, List.flatMap_singleton, utf8EncodeChar_ofUInt8 ascii]
  induction texts with
  | nil => rfl
  | cons first rest ih =>
    cases rest with
    | nil => simp
    | cons next more =>
      rw [List.intercalate_cons_cons, List.map_cons, List.map_cons, List.intercalate_cons_cons, ← List.map_cons, ← ih,
        bytes_append, bytes_append, separator]

/-- **Cutting the bytes of a text at an ASCII byte** is to cut the text at that character. -/
theorem fields_bytes (text : Text) : fields byte (bytes text) = (fields (Char.ofUInt8 byte) text).map bytes := by
  have some : (fields (Char.ofUInt8 byte) text).map bytes ≠ [] := by simp [fields_ne_nil]
  have clear : ∀ field ∈ (fields (Char.ofUInt8 byte) text).map bytes, byte ∉ field := by
    intro field there inField
    obtain ⟨part, isPart, rfl⟩ := List.mem_map.mp there
    exact not_mem_of_mem_fields isPart ((mem_bytes_iff ascii).mp inField)
  calc fields byte (bytes text)
      = fields byte (bytes ([Char.ofUInt8 byte].intercalate (fields (Char.ofUInt8 byte) text))) := by
        rw [intercalate_fields]
    _ = fields byte ([byte].intercalate ((fields (Char.ofUInt8 byte) text).map bytes)) := by
        rw [bytes_intercalate ascii]
    _ = (fields (Char.ofUInt8 byte) text).map bytes := fields_intercalate some clear

end Ascii

end AnnotationCheck.Text
