import AnnotationCheck.Text.Lossy

/-!
File paths.

A path keeps the bytes it was written as, which need not spell a text, and is read as a list of
components: doubled and trailing slashes do not count, and a `.` counts only at the beginning of a
relative path. Two paths name the same place if their components are equal (`Path.Same`); order and
beginnings go by components too. `Path.relativeTo?` is what remains of a path behind another one.
-/

namespace AnnotationCheck

/-- What a file system takes for a name: bytes. -/
abbrev Path.Name := List UInt8

/-- A text names by its bytes. -/
instance : Coe Text Path.Name := ⟨Text.bytes⟩

/-- A file path, as written. -/
structure Path where ofBytes ::
  bytes : Path.Name
  deriving DecidableEq, Repr

namespace Path

/-- The path of the given spelling. -/
def mk (text : Text) : Path := ofBytes text

/-- A path as it is shown, with a mark wherever its bytes spell no character. -/
def text (path : Path) : Text := Text.ofBytes path.bytes

/-- A step of a path. -/
inductive Component where
  /-- The top of the file system. -/
  | root
  /-- The place one is at. -/
  | current
  /-- The directory above. -/
  | parent
  /-- An entry of a directory. -/
  | entry (name : Name)
  deriving DecidableEq, Repr

/-- The path of the given spelling. -/
def ofString (text : String) : Path := mk text.toList

/-- The byte between the pieces of a path. -/
def slash : UInt8 := '/'.toUInt8

/-- The pieces between slashes. -/
def pieces (bytes : Name) : List Name := Text.fields slash bytes

/-- The piece that names the place one is at. -/
def dot : Name := ['.'.toUInt8]

/-- The piece that names the directory above. -/
def dots : Name := ['.'.toUInt8, '.'.toUInt8]

/-- A piece that makes no step: an empty one or a `.`. -/
def isIdle (piece : Name) : Bool := piece == [] || piece == dot

/-- A path that begins at the top of the file system. -/
def isAbsolute (path : Path) : Bool := path.bytes.head? == some slash

/-- The step that a piece makes. -/
def step? (piece : Name) : Option Component :=
  if isIdle piece then none else if piece = dots then some .parent else some (.entry piece)

/-- The step that the beginning of a path makes, apart from those of its pieces. -/
def start (path : Path) : List Component :=
  if path.isAbsolute then [.root]
  else if (pieces path.bytes).head? = some dot then [.current]
  else []

/-- The steps of a path. -/
def components (path : Path) : List Component := path.start ++ (pieces path.bytes).filterMap step?

/-- Two paths of the same components. -/
def Same (left right : Path) : Prop := left.components = right.components

instance (left right : Path) : Decidable (Same left right) :=
  inferInstanceAs (Decidable (left.components = right.components))

/-- A path that begins with the components of another one. -/
def startsWith (path base : Path) : Bool := base.components.isPrefixOf path.components

/-! ### Joining -/

/-- The path `inner` taken from `base`; an absolute one stands for itself. -/
def join (base inner : Path) : Path :=
  if inner.isAbsolute then inner
  else if base.bytes = [] ∨ base.bytes.getLast? = some slash then ⟨base.bytes ++ inner.bytes⟩
  else ⟨base.bytes ++ slash :: inner.bytes⟩

/-- The path that names lead to from a base, one behind the other. -/
def joinNames (base : Path) (names : List Name) : Path := names.foldl (fun path name => path.join ⟨name⟩) base

/-- The bytes of a component. -/
def Component.bytes : Component → Name
  | root => [slash]
  | current => dot
  | parent => dots
  | entry name => name

/-- The path of the given components, in the shortest spelling. -/
def ofComponents (components : List Component) : Path :=
  components.foldl (fun path component => path.join ⟨component.bytes⟩) ⟨[]⟩

/-- The same path in its shortest spelling. -/
def tidy (path : Path) : Path := ofComponents path.components

/-! ### Relative paths -/

/-- The pieces behind the first `count` of those that make a step. -/
def dropSteps : Nat → List Name → List Name
  | 0, pieces => pieces
  | _ + 1, [] => []
  | count + 1, piece :: rest => if isIdle piece then dropSteps (count + 1) rest else dropSteps count rest

/-- The pieces without the idle ones at the end. -/
def dropIdleEnd (pieces : List Name) : List Name := (pieces.reverse.dropWhile isIdle).reverse

/-- The path with the slashes and the `.` at its end removed. -/
def trimEnd (path : Path) : Path :=
  match pieces path.bytes with
  | [] => path
  | first :: rest =>
    if path.isAbsolute ∧ dropIdleEnd rest = [] then ⟨[slash]⟩
    else ⟨[slash].intercalate (first :: dropIdleEnd rest)⟩

/-- The number of steps of a list of components that its pieces make. -/
def bodySteps (components : List Component) : Nat :=
  components.countP fun component => component != .root && component != .current

/-- What remains of `path` behind `base`, if it begins with the components of `base`. -/
def relativeTo? (path base : Path) : Option Path :=
  if !path.startsWith base then none
  else if base.components = [] then some path.trimEnd
  else
    let behind := (dropSteps (bodySteps base.components) (pieces path.bytes)).dropWhile isIdle
    some ⟨[slash].intercalate (dropIdleEnd behind)⟩

/-- What remains of `path` behind `base`, or all of it where it lies elsewhere. -/
def relativeTo (path base : Path) : Path := (path.relativeTo? base).getD path

/-! ### Names -/

/-- The entry that a path ends in. -/
def fileName? (path : Path) : Option Name :=
  match path.components.getLast? with
  | some (.entry name) => some name
  | _ => none

/-- What stands behind the last dot of a file's name, if something stands before that dot. -/
def extension? (path : Path) : Option Name :=
  path.fileName?.bind fun name =>
    if '.'.toUInt8 ∈ name ∧ name.reverse.dropWhile (· != '.'.toUInt8) ≠ dot then
      some (name.reverse.takeWhile (· != '.'.toUInt8)).reverse
    else none

end Path

end AnnotationCheck
