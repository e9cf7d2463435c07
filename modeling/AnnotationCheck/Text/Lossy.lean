import AnnotationCheck.Text.Offset

/-!
Bytes read as text.

`Text.ofBytes` reads bytes as UTF-8 and never fails: where no character begins, one mark stands for as many bytes
as a character could have begun with, and for one byte at least. The bytes of a text are read as that text
(`ofBytes_bytes`), and whatever else is read stands in the bytes (`eq_broken_or_exists_of_mem_ofBytes`).
-/

namespace AnnotationCheck.Text

/-- What stands for bytes that spell no character. -/
def broken : Char := '\uFFFD'

/-- The character that bytes begin with. -/
def charAt? (bytes : List UInt8) : Option Char := bytes.toByteArray.utf8DecodeChar? 0

/-- The number of bytes of the characters that begin with a byte; with some bytes none does. -/
def widthOf (first : UInt8) : Nat :=
  if first < 0x80 then 1
  else if first < 0xC2 then 0
  else if first < 0xE0 then 2
  else if first < 0xF0 then 3
  else if first < 0xF5 then 4
  else 0

/-- Whether a byte may stand inside a character. -/
def goesOn (byte : UInt8) : Bool := 0x80 ≤ byte && byte < 0xC0

/-- Whether a byte may stand behind the first one of a character of three bytes or four. -/
def mayFollow (first second : UInt8) : Bool :=
  goesOn second && (first != 0xE0 || 0xA0 ≤ second) && (first != 0xED || second < 0xA0)
    && (first != 0xF0 || 0x90 ≤ second) && (first != 0xF4 || second < 0x90)

/-- The number of bytes that one mark stands for, where no character begins. -/
def brokenLength : List UInt8 → Nat
  | first :: second :: rest =>
    if 3 ≤ widthOf first && mayFollow first second then
      if widthOf first = 4 && rest.head?.any goesOn then 3 else 2
    else 1
  | _ => 1

/-- The text of bytes of which the first `skipped` are done with. -/
def ofBytesFrom : Nat → List UInt8 → Text
  | _, [] => []
  | skipped + 1, _ :: rest => ofBytesFrom skipped rest
  | 0, first :: rest =>
    match charAt? (first :: rest) with
    | some c => c :: ofBytesFrom (c.utf8Size - 1) rest
    | none => broken :: ofBytesFrom (brokenLength (first :: rest) - 1) rest

/-- The text of bytes, with a mark wherever they spell no character. -/
def ofBytes (bytes : List UInt8) : Text := ofBytesFrom 0 bytes

/-! ### What is read -/

theorem charAt?_append (c : Char) (rest : List UInt8) : charAt? (String.utf8EncodeChar c ++ rest) = some c := by
  rw [charAt?, List.toByteArray_append]
  exact ByteArray.utf8DecodeChar?_utf8EncodeChar_append

theorem exists_of_charAt? {bytes : List UInt8} {c : Char} (found : charAt? bytes = some c) :
    ∃ rest, bytes = String.utf8EncodeChar c ++ rest := by
  obtain ⟨rest, whole⟩ := ByteArray.exists_of_utf8DecodeChar?_eq_some found
  refine ⟨rest.data.toList, ?_⟩
  have data : bytes.toByteArray.data = (String.utf8EncodeChar c).toByteArray.data ++ rest.data := by
    rw [whole]
    exact ByteArray.data_append
  simpa using congrArg Array.toList data

theorem ofBytesFrom_eq_drop (skipped : Nat) (bytes : List UInt8) :
    ofBytesFrom skipped bytes = ofBytes (bytes.drop skipped) := by
  induction bytes generalizing skipped with
  | nil => cases skipped <;> rfl
  | cons first rest ih =>
    cases skipped with
    | zero => rfl
    | succ skipped => exact ih skipped

/-- The bytes of a text are read as that text. -/
@[simp] theorem ofBytes_bytes (text : Text) : ofBytes (bytes text) = text := by
  induction text with
  | nil => rfl
  | cons c rest ih =>
    have cut : bytes (c :: rest) = String.utf8EncodeChar c ++ bytes rest := List.flatMap_cons
    have length : (String.utf8EncodeChar c).length = c.utf8Size := String.length_utf8EncodeChar c
    have found := charAt?_append c (bytes rest)
    obtain ⟨first, more, encoded⟩ := List.exists_cons_of_length_pos (length ▸ Char.utf8Size_pos c)
    rw [encoded, List.cons_append] at found
    rw [encoded, List.length_cons] at length
    rw [cut, encoded, List.cons_append, ofBytes, ofBytesFrom, found]
    show c :: ofBytesFrom (c.utf8Size - 1) (more ++ bytes rest) = c :: rest
    rw [ofBytesFrom_eq_drop, ← length, Nat.add_sub_cancel, List.drop_left, ih]

/-- What is read is a mark or stands in the bytes. -/
theorem eq_broken_or_exists_of_mem_ofBytes {bytes : List UInt8} {c : Char} (there : c ∈ ofBytes bytes) :
    c = broken ∨ ∃ before behind, bytes = before ++ (String.utf8EncodeChar c ++ behind) := by
  -- the bytes that are done with stand before what is found behind them
  have later : ∀ skipped : Nat, c ∈ ofBytesFrom skipped bytes →
      c = broken ∨ ∃ before behind, bytes = before ++ (String.utf8EncodeChar c ++ behind) := by
    clear there
    induction bytes with
    | nil => intro skipped there; cases skipped <;> cases there
    | cons first rest ih =>
      intro skipped there
      have inRest : ∀ skipped, c ∈ ofBytesFrom skipped rest →
          c = broken ∨ ∃ before behind, first :: rest = before ++ (String.utf8EncodeChar c ++ behind) := by
        intro skipped there
        refine (ih skipped there).imp_right ?_
        rintro ⟨before, behind, whole⟩
        exact ⟨first :: before, behind, by rw [whole, List.cons_append]⟩
      cases skipped with
      | succ skipped => exact inRest skipped there
      | zero =>
        rw [ofBytesFrom] at there
        split at there
        · rename_i d found
          rcases List.mem_cons.mp there with rfl | there
          · obtain ⟨behind, whole⟩ := exists_of_charAt? found
            exact .inr ⟨[], behind, whole⟩
          · exact inRest _ there
        · rcases List.mem_cons.mp there with rfl | there
          · exact .inl rfl
          · exact inRest _ there
  exact later 0 there

end AnnotationCheck.Text
