import AnnotationCheck.Path.Basic

/-!
A file system, as far as the check looks at it: a tree of directories and files, and the directory
that relative paths are taken from. Names are bytes, and files hold a text or bytes that are none.

`Disk.place?` is the place that a path leads to, step by step from the top; a `..` leads out of a
directory that must exist. `Disk.read` is the text at a path.
-/

namespace AnnotationCheck

/-- Why a file cannot be read. -/
inductive ReadError where
  | notFound
  | notDirectory
  | isDirectory
  /-- The file's bytes are no UTF-8 text. -/
  | notText
  deriving DecidableEq, Repr

namespace ReadError

/-- The wording of a reason. -/
def message : ReadError → Text
  | notFound => "No such file or directory (os error 2)".toList
  | notDirectory => "Not a directory (os error 20)".toList
  | isDirectory => "Is a directory (os error 21)".toList
  | notText => "stream did not contain valid UTF-8".toList

end ReadError

namespace Disk

/-- What a file holds. -/
inductive Content where
  | text (content : Text)
  /-- Bytes that are no UTF-8 text. -/
  | bytes
  deriving DecidableEq, Repr

/-- What a name of a directory stands for. -/
inductive Entry where
  | file (content : Content)
  | directory (entries : List (Path.Name × Entry))
  deriving Repr

/-- The entries of a directory. -/
abbrev Entries := List (Path.Name × Entry)

/-- A place: the names of the directories from the top down to it. -/
abbrev Place := List Path.Name

/-- Texts name a place by their bytes. -/
instance : Coe (List Text) Place := ⟨List.map Text.bytes⟩

namespace Entry

/-- The entries of a directory; a file has none. -/
def entries : Entry → Entries
  | file _ => []
  | directory entries => entries

/-- Whether it is a directory. -/
def isDirectory : Entry → Bool
  | file _ => false
  | directory _ => true

end Entry

/-- What a name stands for in a directory. -/
def Entries.find? (entries : Entries) (name : Path.Name) : Option Entry :=
  (entries.lookup name)

/-- The entries with what stands for a name changed, or with it taken out. -/
def Entries.change (name : Path.Name) (change : Option Entry → Option Entry) : Entries → Entries
  | [] => ((change none).map fun entry => (name, entry)).toList
  | first :: rest =>
    if first.1 = name then ((change (some first.2)).map fun entry => (name, entry)).toList ++ rest
    else first :: Entries.change name change rest

/-- What stands at a place below a directory. -/
def entryAt? : Place → Entries → Option Entry
  | [], entries => some (.directory entries)
  | [name], entries => Entries.find? entries name
  | name :: rest, entries =>
    match Entries.find? entries name with
    | some (.directory inner) => entryAt? rest inner
    | _ => none

/-- The entries with what stands at a place changed; the directories on the way are made, and a file
on the way is left as it is. -/
def changeAt (change : Option Entry → Option Entry) : Place → Entries → Entries
  | [], entries => entries
  | [name], entries => Entries.change name change entries
  | name :: rest, entries =>
    Entries.change name
      (fun found => match found with
        | some (.file content) => some (.file content)
        | other => some (.directory (changeAt change rest ((other.map Entry.entries).getD []))))
      entries

end Disk

/-- A file system. -/
structure Disk where
  /-- The entries of the top directory. -/
  top : Disk.Entries := []
  /-- Where relative paths begin. -/
  here : Disk.Place := []
  deriving Repr

namespace Disk

/-- What stands at a place. -/
def at? (disk : Disk) (place : Place) : Option Entry := entryAt? place disk.top

/-- The place one step on from a directory. -/
def step (disk : Disk) (place : Place) (component : Path.Component) : Except ReadError Place :=
  match disk.at? place with
  | none => .error .notFound
  | some (.file _) => .error .notDirectory
  | some (.directory entries) =>
    match component with
    | .root => .ok []
    | .current => .ok place
    | .parent => .ok place.dropLast
    | .entry name => if (Entries.find? entries name).isSome then .ok (place ++ [name]) else .error .notFound

/-- Whether the spelling of a path asks for a directory: it ends in a slash or a `.`. -/
def asksDirectory (path : Path) : Bool := ((Path.pieces path.bytes).getLast?.map Path.isIdle).getD false

/-- The place that a path leads to. -/
def place? (disk : Disk) (path : Path) : Except ReadError Place :=
  if path.bytes = [] then .error .notFound
  else do
    let place ← path.components.foldlM disk.step (if path.isAbsolute then [] else disk.here)
    if asksDirectory path then disk.step place .current else return place

/-- What a path leads to. -/
def find? (disk : Disk) (path : Path) : Option Entry :=
  match disk.place? path with
  | .ok place => disk.at? place
  | .error _ => none

/-- Whether a path leads to a file. -/
def isFile (disk : Disk) (path : Path) : Bool := (disk.find? path).any (!·.isDirectory)

/-- The text of the file that a path leads to. -/
def read (disk : Disk) (path : Path) : Except ReadError Text := do
  match disk.at? (← disk.place? path) with
  | none => .error .notFound
  | some (.directory _) => .error .isDirectory
  | some (.file .bytes) => .error .notText
  | some (.file (.text content)) => .ok content

/-! ### Changes -/

/-- The place that a path names when every step of it is taken to exist. -/
def target (disk : Disk) (path : Path) : Place :=
  path.components.foldl
    (fun place component => match component with
      | .root => []
      | .current => place
      | .parent => place.dropLast
      | .entry name => place ++ [name])
    disk.here

/-- The disk with a file at a path. -/
def write (disk : Disk) (path : Path) (content : Content) : Disk :=
  { disk with top := changeAt (fun _ => some (.file content)) (disk.target path) disk.top }

/-- The disk with a directory at a path. -/
def makeDirectory (disk : Disk) (path : Path) : Disk :=
  { disk with
    top := changeAt (fun found => some (.directory ((found.map Entry.entries).getD []))) (disk.target path) disk.top }

/-- The disk without the file at a path. -/
def remove (disk : Disk) (path : Path) : Disk :=
  if disk.isFile path then
    { disk with top := changeAt (fun _ => none) (disk.target path) disk.top }
  else disk

end Disk

end AnnotationCheck
