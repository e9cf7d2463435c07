import AnnotationCheck.Comment

/-!
Lines as words of 32 bits.

`Comment.inWords?` reads comments off ranges as `Comment.ofRanges` does, and counts their lines on in words.
There is nothing where bytes are asked for that are no range of the text, and where a line is too large for a
word.
-/

namespace AnnotationCheck

namespace Text

/-- The bytes from `start` up to `stop`, if that is a range of the text. -/
def bytesBetween? (text : Text) (start stop : Nat) : Option (List UInt8) :=
  if start ≤ stop ∧ stop ≤ size text then some (bytesBetween text start stop) else none

/-- The number of line feeds among bytes; a word keeps the low bits of it. -/
def newlines (bytes : List UInt8) : UInt32 := UInt32.ofNat (bytes.count newline)

/-- The sum of two words, if it is a word. -/
def addWords? (left right : UInt32) : Option UInt32 :=
  if left.toNat + right.toNat < UInt32.size then some (left + right) else none

/-- The line of the byte at `offset`, counted from one; behind the end it is the last line. -/
def lineWord? (text : Text) (offset : Nat) : Option UInt32 := do
  let before ← bytesBetween? text 0 (min offset (size text))
  addWords? 1 (newlines before)

end Text

/-- A comment whose line is a word. -/
structure WordComment where
  text : Text
  line : UInt32
  deriving DecidableEq, Repr

namespace Comment

/-- The comment with its line as a number. -/
def ofWord (comment : WordComment) : Comment := ⟨comment.text, comment.line.toNat⟩

/-- The line of the byte at `stop`, where that at `start` lies on `line`. -/
def advance? (text : Text) (line : UInt32) (start stop : Nat) : Option UInt32 := do
  let between ← Text.bytesBetween? text start stop
  Text.addWords? line (Text.newlines between)

/-- The comments at `ranges`, where `cursor` is the beginning of the last one and lies on `line`. -/
def inWordsFrom? (text : Text) (cursor : Nat) (line : UInt32) (ranges : List Range) : Option (List WordComment) :=
  (readFrom (advance? text) text cursor line ranges).map (List.map fun found => ⟨found.1, found.2⟩)

/-- The comments at `ranges`, from the beginning of the text on. -/
def inWords? (text : Text) (ranges : List Range) : Option (List WordComment) := inWordsFrom? text 0 1 ranges

end Comment

end AnnotationCheck
