import AnnotationCheck.Analysis.Basic

/-!
Histories: analyses by several checkers, over a code base that changes between them.

A checker has a way to find comments and a memo, the set of the files it counts as analyzed; checkers may
share a memo. `History.step` is the answer to one step and what it leaves, and `History.run` answers the
steps of a history one after the other.
-/

namespace AnnotationCheck

/-- One that analyzes: a way to find comments, and the number of its memo. -/
structure Checker where
  strategy : Strategy := .tokens
  memo : Nat
  deriving DecidableEq, Repr

/-- Everything that a history can change. -/
structure World where
  /-- The files with their texts. -/
  files : List (Path × Text) := []
  excluded : PathSet := {}
  symbols : Symbols := ⟨[]⟩
  /-- The files that each memo counts as analyzed. -/
  memos : Nat → PathSet := fun _ => {}
  /-- The files that were asked for their text, each with the memo of the checker that asked. -/
  reads : List (Nat × Path) := []

namespace World

/-- The text of a file. -/
def find? (world : World) (file : Path) : Option Text :=
  (world.files.find? fun entry => decide (entry.1.Same file)).map (·.2)

/-- The world without a file. -/
def remove (world : World) (file : Path) : World :=
  { world with files := world.files.filter fun entry => !decide (entry.1.Same file) }

/-- The world with a file of the given text. -/
def write (world : World) (file : Path) (content : Text) : World :=
  { world with files := (file, content) :: (world.remove file).files }

/-- The reason why a file that is not there cannot be read. -/
def noSuchFile : Text := "no such file".toList

/-- The text of a file, or the reason why there is none. -/
def read (world : World) (file : Path) : Except Text Text :=
  match world.find? file with
  | some content => .ok content
  | none => .error noSuchFile

/-- The code base as an analysis sees it. -/
def host (world : World) : Host := ⟨world.symbols.has, world.excluded.contains, world.read⟩

/-- The world with a memo in place of the one of the same number. -/
def setMemo (world : World) (memo : Nat) (analyzed : PathSet) : World :=
  { world with memos := fun other => if other = memo then analyzed else world.memos other }

end World

namespace History

/-- What one step does. -/
inductive Action where
  /-- Analyzes for a class in a scope; a sink with `room` takes the issues. -/
  | analyze (file : Option Path) (scope : Scope) (room : Option Nat)
  /-- Counts a file as analyzed. -/
  | mark (file : Path)
  | contains (file : Path)
  | size
  | exclude (file : Path)
  /-- Takes a file off the excluded ones. -/
  | reinstate (file : Path)
  | write (file : Path) (content : Text)
  | remove (file : Path)
  | declare (name : Text)
  | hasClass (name : Text)
  deriving Repr

/-- What a step answers. -/
inductive Answer where
  /-- What an analysis left, the number of reads so far and the size of the checker's memo. -/
  | analysis (outcome : Analysis) (reads memoSize : Nat)
  | flag (value : Bool)
  | count (value : Nat)
  | done
  deriving Repr

variable [Php.Parser]

/-- The answer to an action by a checker, and the world after it. -/
def step (world : World) (checker : Checker) : Action → Answer × World
  | .analyze file scope room =>
    let outcome := Analysis.run world.host checker.strategy file scope room (world.memos checker.memo)
    let left : World :=
      { world.setMemo checker.memo outcome.analyzed with
        reads := world.reads ++ outcome.asked.map fun asked => (checker.memo, asked) }
    (.analysis outcome left.reads.length outcome.analyzed.size, left)
  | .mark file =>
    let memo := world.memos checker.memo
    (.flag (!memo.contains file), world.setMemo checker.memo (memo.insert file))
  | .contains file => (.flag ((world.memos checker.memo).contains file), world)
  | .size => (.count (world.memos checker.memo).size, world)
  | .exclude file =>
    (.flag (!world.excluded.contains file), { world with excluded := world.excluded.insert file })
  | .reinstate file =>
    (.flag (world.excluded.contains file), { world with excluded := world.excluded.erase file })
  | .write file content => (.flag (world.find? file).isNone, world.write file content)
  | .remove file => (.flag (world.find? file).isSome, world.remove file)
  | .declare name => (.done, { world with symbols := world.symbols.insert name })
  | .hasClass name => (.flag (world.symbols.has name), world)

/-- The answers to the steps of a history, and the world after them. -/
def run (world : World) : List (Checker × Action) → List Answer × World
  | [] => ([], world)
  | (checker, action) :: rest =>
    let (answer, left) := step world checker action
    let (answers, last) := run left rest
    (answer :: answers, last)

end History

end AnnotationCheck
