import AnnotationCheck.Text.Basic

/-!
The values of a TOML document, as far as settings need them: strings, lists and tables.

A table is a list of entries in the order in which they were written, each key once. The ways in which
a document adds to it are `assign?`, for a key with a value, and `openAt?`, for a header; both refuse
to define anything twice.
-/

namespace AnnotationCheck.Toml

/-- How a table came to be, which decides what may still be added to it. -/
inductive Origin where
  /-- Between braces. -/
  | braces
  /-- By a dotted key. -/
  | dottedKey
  /-- By the header of a table below it. -/
  | below
  /-- By its own header. -/
  | header
  deriving DecidableEq, Repr

/-- A value of a document. -/
inductive Value where
  | string (text : Text)
  | list (items : List Value)
  | table (origin : Origin) (entries : List (Text × Value))
  deriving Repr

/-- The entries of a table. -/
abbrev Entries := List (Text × Value)

/-- The entries with what stands at `key` changed, which may be refused. -/
def change? (change : Option Value → Option Value) (key : Text) : Entries → Option Entries
  | [] => (change none).map fun value => [(key, value)]
  | entry :: rest =>
    if entry.1 = key then (change (some entry.2)).map fun value => (key, value) :: rest
    else (change? change key rest).map (entry :: ·)

/-- Changes the entries of the table at a place; a new table is made where nothing stands. -/
def inTable? (fresh : Origin) (mayEnter : Origin → Bool) (inside : Entries → Option Entries) :
    Option Value → Option Value
  | none => (inside []).map (.table fresh)
  | some (.table origin entries) =>
    if mayEnter origin then (inside entries).map (.table origin) else none
  | some _ => none

/-- Changes the entries of the table that a list of keys leads to. -/
def within? (fresh : Origin) (mayEnter : Origin → Bool) (inside : Entries → Option Entries) :
    List Text → Entries → Option Entries
  | [] => inside
  | key :: rest => change? (inTable? fresh mayEnter (within? fresh mayEnter inside rest)) key

/-- Puts a value where nothing stands. -/
def putNew? (value : Value) : Option Value → Option Value
  | none => some value
  | some _ => none

/-- Puts a table with a header of its own where nothing stands or where only tables below it were named. -/
def putHeader? : Option Value → Option Value
  | none => some (.table .header [])
  | some (.table .below entries) => some (.table .header entries)
  | some _ => none

/-- Whether a dotted key may lead through a table. -/
def keyMayEnter (origin : Origin) : Bool := origin == .dottedKey || origin == .below

/-- Whether a header may lead through a table. -/
def headerMayEnter (origin : Origin) : Bool := origin != .braces

/-- The entries with a value at the end of a dotted key. -/
def assign? (keys : List Text) (value : Value) (entries : Entries) : Option Entries :=
  match keys.reverse with
  | [] => none
  | last :: before => within? .dottedKey keyMayEnter (change? (putNew? value) last) before.reverse entries

/-- The entries with a table that the header of the given keys opens. -/
def openAt? (keys : List Text) (entries : Entries) : Option Entries :=
  match keys.reverse with
  | [] => none
  | last :: before => within? .below headerMayEnter (change? putHeader? last) before.reverse entries

/-- The entries with a value at the end of a dotted key below a header. -/
def assignBelow? (header keys : List Text) (value : Value) (entries : Entries) : Option Entries :=
  within? .below headerMayEnter (assign? keys value) header entries

end AnnotationCheck.Toml
