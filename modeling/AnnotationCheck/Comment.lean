import AnnotationCheck.Php.Program
import AnnotationCheck.Text.Offset

/-!
The comments of a script, with the lines they begin on.

`Comment.readFrom` reads parts of a text off a list of byte ranges: a range counts if it is a range of the
text and does not begin before the last one that counted. Lines are counted on from part to part; the numbers
they are counted in are left open. `Comment.ofRanges` counts in natural numbers. `Comment.ofScript` takes the
ranges from the parser, or the whole script as one comment, as it does where the parser gives up.
-/

namespace AnnotationCheck

/-- A comment, or whatever is searched for annotations like one. -/
structure Comment where
  text : Text
  line : Nat
  deriving DecidableEq, Repr

/-- How the comments of a file are found. -/
inductive Strategy where
  /-- By asking the parser for them. -/
  | tokens
  /-- By taking the whole file for one comment. -/
  | wholeFile
  deriving DecidableEq, Repr

/-- A range of byte offsets. -/
structure Range where
  start : Nat
  stop : Nat
  deriving DecidableEq, Repr

namespace Comment

/-- The parts of a text at `ranges` with their lines, where `cursor` is the beginning of the last one and lies on
`line`; `advance` counts a line on from one offset to another. -/
def readFrom {m : Type → Type} [Monad m] {Line : Type} (advance : Line → Nat → Nat → m Line) (text : Text) :
    Nat → Line → List Range → m (List (Text × Line))
  | _, _, [] => pure []
  | cursor, line, range :: rest =>
    if range.start < cursor then readFrom advance text cursor line rest
    else
      match Text.slice? text range.start range.stop with
      | none => readFrom advance text cursor line rest
      | some part => do
        let here ← advance line cursor range.start
        let later ← readFrom advance text range.start here rest
        return (part, here) :: later

/-- The line of the byte at `stop`, where that at `start` lies on `line`. -/
def advance (text : Text) (line start stop : Nat) : Nat :=
  line + (Text.bytesBetween text start stop).count Text.newline

/-- The comments at `ranges`, where `cursor` is the beginning of the last one and lies on `line`. -/
def ofRangesFrom (text : Text) (cursor line : Nat) (ranges : List Range) : List Comment :=
  (readFrom (m := Id) (advance text) text cursor line ranges).map fun found => ⟨found.1, found.2⟩

/-- The comments at `ranges`, from the beginning of the text on. -/
def ofRanges (text : Text) (ranges : List Range) : List Comment := ofRangesFrom text 0 1 ranges

@[simp] theorem ofRangesFrom_nil (text : Text) (cursor line : Nat) : ofRangesFrom text cursor line [] = [] := rfl

theorem ofRangesFrom_cons (text : Text) (cursor line : Nat) (range : Range) (rest : List Range) :
    ofRangesFrom text cursor line (range :: rest)
      = if range.start < cursor then ofRangesFrom text cursor line rest
        else
          match Text.slice? text range.start range.stop with
          | none => ofRangesFrom text cursor line rest
          | some part =>
            ⟨part, advance text line cursor range.start⟩
              :: ofRangesFrom text range.start (advance text line cursor range.start) rest := by
  unfold ofRangesFrom
  rw [readFrom]
  split
  · rfl
  · split <;> rfl

/-- The ranges of the comments among trivia. -/
def ranges (trivia : List Php.Trivia) : List Range :=
  (trivia.filter (·.kind.isComment)).map fun piece => ⟨piece.start, piece.stop⟩

/-- The comments at the ranges that were found in a script; where the search for them failed, the whole script is
one comment on `anchor`. -/
def ofFound (script : Text) (found : Option (List Range)) (anchor : Nat) : List Comment :=
  match found with
  | some ranges => ofRanges script ranges
  | none => [⟨script, anchor⟩]

/-- The ranges of the comments of a script; nothing where the parser gives up. -/
def ranges? [Php.Parser] (script : Text) : Option (List Range) :=
  (Php.parse? script).map fun program => ranges program.trivia

/-- The comments of a script; the whole file as one comment stands on `anchor`. -/
def ofScript [Php.Parser] (script : Text) (strategy : Strategy) (anchor : Nat) : List Comment :=
  match strategy with
  | .tokens => ofFound script (ranges? script) anchor
  | .wholeFile => [⟨script, anchor⟩]

end Comment

end AnnotationCheck
