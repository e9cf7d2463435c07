import AnnotationCheck.Text.Basic

/-!
Places in a text, counted in UTF-8 bytes.

`slice?` is the part of a text between two byte offsets, when both stand at the edge of a character;
`lineAt` is the number of the line in which an offset lies.
-/

namespace AnnotationCheck.Text

/-- The UTF-8 bytes of a text. -/
def bytes (text : Text) : List UInt8 := text.flatMap String.utf8EncodeChar

/-- The number of UTF-8 bytes of a text. -/
def size : Text → Nat
  | [] => 0
  | c :: rest => c.utf8Size + size rest

@[simp] theorem size_nil : size [] = 0 := rfl

@[simp] theorem size_cons (c : Char) (rest : Text) : size (c :: rest) = c.utf8Size + size rest := rfl

@[simp] theorem size_append (left right : Text) : size (left ++ right) = size left + size right := by
  induction left with
  | nil => simp
  | cons c rest ih => simp [ih, Nat.add_assoc]

theorem length_bytes (text : Text) : (bytes text).length = size text := by
  induction text with
  | nil => rfl
  | cons c rest ih => simpa [bytes] using ih

/-- What follows the first `offset` bytes, unless that place is behind the end or inside a character. -/
def dropBytes? : Nat → Text → Option Text
  | 0, text => some text
  | _ + 1, [] => none
  | offset + 1, c :: rest =>
    if c.utf8Size ≤ offset + 1 then dropBytes? (offset + 1 - c.utf8Size) rest else none

/-- The first `offset` bytes, unless that place is behind the end or inside a character. -/
def takeBytes? : Nat → Text → Option Text
  | 0, _ => some []
  | _ + 1, [] => none
  | offset + 1, c :: rest =>
    if c.utf8Size ≤ offset + 1 then (takeBytes? (offset + 1 - c.utf8Size) rest).map (c :: ·) else none

/-- The text between two byte offsets, if there is one. -/
def slice? (text : Text) (start stop : Nat) : Option Text :=
  if start ≤ stop then (dropBytes? start text).bind (takeBytes? (stop - start)) else none

/-- At most `count` of the bytes behind the first `skipped`. -/
def bytesBehind : Nat → Nat → Text → List UInt8
  | _, _, [] => []
  | skipped, count, c :: rest =>
    if count = 0 then []
    else if c.utf8Size ≤ skipped then bytesBehind (skipped - c.utf8Size) count rest
    else ((String.utf8EncodeChar c).drop skipped).take count
      ++ bytesBehind 0 (count - (c.utf8Size - skipped)) rest

theorem bytesBehind_eq (skipped count : Nat) (text : Text) :
    bytesBehind skipped count text = ((bytes text).drop skipped).take count := by
  induction text generalizing skipped count with
  | nil => simp [bytesBehind, bytes]
  | cons c rest ih =>
    have cut : bytes (c :: rest) = String.utf8EncodeChar c ++ bytes rest := by simp [bytes]
    have length : (String.utf8EncodeChar c).length = c.utf8Size := String.length_utf8EncodeChar c
    simp only [bytesBehind, cut, List.drop_append, length]
    split
    · rename_i none
      simp [none]
    · split
      · rename_i behind
        have gone : (String.utf8EncodeChar c).drop skipped = [] := List.drop_eq_nil_of_le (by omega)
        rw [ih, gone, List.nil_append]
      · rename_i inside
        rw [ih, List.take_append, List.length_drop, length, Nat.sub_eq_zero_of_le (by omega : skipped ≤ c.utf8Size)]

/-- The bytes from `start` up to `stop`; none if that is not a range of the text. -/
def bytesBetween (text : Text) (start stop : Nat) : List UInt8 :=
  if start ≤ stop ∧ stop ≤ size text then bytesBehind start (stop - start) text else []

/-- The byte of a line feed. -/
def newline : UInt8 := 10

/-- The line, counted from one, in which the byte at `offset` lies. -/
def lineAt (text : Text) (offset : Nat) : Nat := 1 + (bytesBehind 0 offset text).count newline

end AnnotationCheck.Text
