import AnnotationCheck.Text.Basic

/-!
Patterns for the names of files.

In a pattern `*` and `?` stand for a run and for one character of a name, a set in brackets for one of
its characters, and `**` between slashes for any number of directories. `Glob.parse?` reads a pattern
and `Glob.holds` matches it with the whole of a relative path, written with slashes.
-/

namespace AnnotationCheck.Disk

/-- A part of a pattern. -/
inductive GlobPart where
  /-- The character itself. -/
  | char (c : Char)
  /-- Any character but a slash. -/
  | any
  /-- Any run of characters without a slash. -/
  | run
  /-- A character that is in one of the ranges, or in none of them. -/
  | oneOf (negated : Bool) (ranges : List (Char × Char))
  /-- Any number of directories at the beginning. -/
  | leading
  /-- A slash, or slashes with directories between them. -/
  | between
  /-- A slash and everything behind it. -/
  | below
  /-- Everything. -/
  | all
  deriving DecidableEq, Repr

/-- A pattern. -/
abbrev Glob := List GlobPart

namespace Glob

/-! ### Matching -/

/-- What may follow a run without a slash. -/
def behindRun : Text → List Text
  | [] => [[]]
  | c :: rest => (c :: rest) :: if c = '/' then [] else behindRun rest

/-- What follows each slash. -/
def behindSlashes : Text → List Text
  | [] => []
  | c :: rest => if c = '/' then rest :: behindSlashes rest else behindSlashes rest

/-- What may follow a part at the beginning of a text. -/
def rests : GlobPart → Text → List Text
  | .char c, d :: rest => if d = c then [rest] else []
  | .any, d :: rest => if d = '/' then [] else [rest]
  | .run, text => behindRun text
  | .oneOf negated ranges, d :: rest =>
    if d ≠ '/' ∧ (ranges.any fun (first, last) => first ≤ d ∧ d ≤ last) ≠ negated then [rest] else []
  | .leading, text => text :: behindSlashes text
  | .between, '/' :: rest => rest :: behindSlashes rest
  | .below, '/' :: _ => [[]]
  | .all, _ => [[]]
  | _, _ => []

/-- Whether a pattern stands for a text as a whole. -/
def holds : Glob → Text → Bool
  | [], text => text == []
  | part :: more, text => (rests part text).any (holds more)

/-! ### Reading -/

/-- The ranges of a set up to its closing bracket, and what follows that. -/
def ranges? : Nat → Text → Option (List (Char × Char) × Text)
  | 0, _ => none
  | _ + 1, [] => none
  | limit + 1, c :: rest =>
    match rest with
    | '-' :: d :: more =>
      if d = ']' then (afterRange limit (c, c) rest)
      else if d < c then none
      else afterRange limit (c, d) more
    | _ => afterRange limit (c, c) rest
where
  /-- The ranges behind a first one. -/
  afterRange (limit : Nat) (range : Char × Char) (rest : Text) : Option (List (Char × Char) × Text) :=
    match rest with
    | ']' :: behind => some ([range], behind)
    | _ => (ranges? limit rest).map fun (more, behind) => (range :: more, behind)

/-- The set behind an opening bracket, and what follows it; a closing bracket right at the beginning
belongs to the set. -/
def set? (text : Text) : Option (GlobPart × Text) :=
  match text with
  | c :: rest =>
    let negated := c == '!' || c == '^'
    let inside := if negated then rest else text
    (ranges? (inside.length + 1) inside).map fun (ranges, behind) => (.oneOf negated ranges, behind)
  | [] => none

/-- The part that `**` and a slash or the end behind it make, after the given parts in reverse. -/
def directories (before : List GlobPart) (atEnd : Bool) : List GlobPart :=
  match before with
  | [] => [.leading]
  | .leading :: _ => before
  | .below :: _ => before
  | _ :: more => (if atEnd then .below else .between) :: more

/-- Whether the parts read so far let `**` stand for directories: nothing or a slash was read last. -/
def mayTakeDirectories (before : List GlobPart) : Bool :=
  match before.head? with
  | none => true
  | some part => part == .char '/' || part == .between || part == .leading

/-- The parts of a pattern behind the given ones in reverse. -/
def parts? : Nat → List GlobPart → Text → Option (List GlobPart)
  | 0, _, _ => none
  | _ + 1, before, [] => some before
  | limit + 1, before, '*' :: '*' :: rest =>
    if mayTakeDirectories before then
      match rest with
      | [] => some (directories before true)
      | '/' :: more => parts? limit (directories before false) more
      | _ => parts? limit (.run :: .run :: before) rest
    else parts? limit (.run :: .run :: before) rest
  | limit + 1, before, c :: rest =>
    if c = '*' then parts? limit (.run :: before) rest
    else if c = '?' then parts? limit (.any :: before) rest
    else if c = '[' then (set? rest).bind fun (set, behind) => parts? limit (set :: before) behind
    else if c = '\\' then
      match rest with
      | d :: more => parts? limit (.char d :: before) more
      | [] => none
    else parts? limit (.char c :: before) rest

/-- The pattern that a text spells, if it spells one. -/
def parse? (text : Text) : Option Glob :=
  (parts? (text.length + 1) [] text).map fun before =>
    if before = [.leading] then [.all] else before.reverse

end Glob

end AnnotationCheck.Disk
