import AnnotationCheck.Text.Offset
import AnnotationCheck.Union.Basic

/-!
The scan of a union over the bytes of a text.

A place is an offset into the bytes. A look at what is not there gives `none`: a byte at or behind the end,
or what follows a place behind the end. Each loop ends since its place moves on, and there is a byte at every
place from which it does.

* `le_of_nameEnd?`, `le_of_marksEnd?`, `lt_length_of_marked`, `lt_length_of_joinsAt` — why the loops end.
* `marksEnd?_eq_bind`, `unionEnd?_eq_bind` — one round of each of the outer loops.
-/

namespace AnnotationCheck.Union

/-- A byte that is a character of a name. -/
def isNameByte (byte : UInt8) : Bool := isNameChar (Char.ofUInt8 byte)

def markBytes : List UInt8 := Text.bytes ['[', ']']

def barByte : UInt8 := '|'.toUInt8

/-- The bytes from a place on, which may be the end. -/
def bytesFrom? (bytes : List UInt8) (place : Nat) : Option (List UInt8) :=
  if place ≤ bytes.length then some (bytes.drop place) else none

/-- Where the name that goes on at a place ends. -/
def nameEnd? (bytes : List UInt8) (place : Nat) : Option Nat :=
  if inside : place < bytes.length then do
    let byte ← bytes[place]?
    if isNameByte byte then nameEnd? bytes (place + 1) else return place
  else return place
termination_by bytes.length - place

theorem le_of_nameEnd? {bytes : List UInt8} {place stop : Nat} (ends : nameEnd? bytes place = some stop) :
    place ≤ stop := by
  rw [nameEnd?] at ends
  split at ends
  · obtain ⟨byte, _, goesOn⟩ := Option.bind_eq_some_iff.mp ends
    split at goesOn
    · exact Nat.le_of_succ_le (le_of_nameEnd? goesOn)
    · cases goesOn
      exact Nat.le_refl _
  · cases ends
    exact Nat.le_refl _
termination_by bytes.length - place

theorem lt_length_of_marked {bytes rest : List UInt8} {place : Nat} (found : bytesFrom? bytes place = some rest)
    (marked : markBytes.isPrefixOf rest = true) : place < bytes.length := by
  obtain ⟨later, rfl⟩ := List.isPrefixOf_iff_prefix.mp marked
  obtain ⟨_, drops⟩ := Option.ite_none_right_eq_some.mp found
  have left := congrArg List.length (Option.some.inj drops)
  rw [List.length_drop, List.length_append] at left
  have two : markBytes.length = 2 := rfl
  omega

/-- Where the `[]` that stand at a place end. -/
def marksEnd? (bytes : List UInt8) (place : Nat) : Option Nat :=
  match found : bytesFrom? bytes place with
  | none => none
  | some rest => if marked : markBytes.isPrefixOf rest then marksEnd? bytes (place + 2) else some place
termination_by bytes.length - place
decreasing_by
  have inside := lt_length_of_marked found marked
  omega

theorem marksEnd?_eq_bind (bytes : List UInt8) (place : Nat) :
    marksEnd? bytes place = (bytesFrom? bytes place).bind fun rest =>
      if markBytes.isPrefixOf rest then marksEnd? bytes (place + 2) else some place := by
  rw [marksEnd?]
  split
  · rename_i nothing
    rw [nothing, Option.bind_none]
  · rename_i rest found
    rw [found, Option.bind_some]
    exact dite_eq_ite

theorem le_of_marksEnd? {bytes : List UInt8} {place stop : Nat} (ends : marksEnd? bytes place = some stop) :
    place ≤ stop := by
  rw [marksEnd?_eq_bind] at ends
  obtain ⟨rest, found, goesOn⟩ := Option.bind_eq_some_iff.mp ends
  split at goesOn
  · rename_i marked
    have inside := lt_length_of_marked found marked
    exact Nat.le_trans (Nat.le_add_right _ 2) (le_of_marksEnd? goesOn)
  · cases goesOn
    exact Nat.le_refl _
termination_by bytes.length - place

/-- There is a `|` at a place, and a name behind it. -/
def joinsAt (bytes : List UInt8) (place : Nat) : Bool :=
  bytes[place]? == some barByte && bytes[place + 1]?.any isNameByte

theorem lt_length_of_joinsAt {bytes : List UInt8} {place : Nat} (joins : joinsAt bytes place = true) :
    place + 1 < bytes.length := by
  refine Nat.lt_of_not_le fun behind => ?_
  rw [joinsAt, List.getElem?_eq_none behind, Option.any_none, Bool.and_false] at joins
  cases joins

set_option linter.unusedVariables false in
/-- Where the union ends whose next member begins at a place; zero if there is no name. -/
def unionEnd? (bytes : List UInt8) (place : Nat) : Option Nat :=
  match name : nameEnd? bytes place with
  | none => none
  | some nameStop =>
    if nameStop = place then some 0
    else
      match marks : marksEnd? bytes nameStop with
      | none => none
      | some stop => if joins : joinsAt bytes stop then unionEnd? bytes (stop + 1) else some stop
termination_by bytes.length - place
decreasing_by
  have behindName := le_of_nameEnd? name
  have behindMarks := le_of_marksEnd? marks
  have inside := lt_length_of_joinsAt joins
  omega

theorem unionEnd?_eq_bind (bytes : List UInt8) (place : Nat) :
    unionEnd? bytes place = (nameEnd? bytes place).bind fun nameStop =>
      if nameStop = place then some 0
      else (marksEnd? bytes nameStop).bind fun stop =>
        if joinsAt bytes stop then unionEnd? bytes (stop + 1) else some stop := by
  rw [unionEnd?]
  split
  · rename_i nothing
    rw [nothing, Option.bind_none]
  · rename_i nameStop name
    rw [name, Option.bind_some]
    split
    · rfl
    · split
      · rename_i nothing
        rw [nothing, Option.bind_none]
      · rename_i stop marks
        rw [marks, Option.bind_some]
        exact dite_eq_ite

/-- The number of bytes of the union at the beginning. -/
def lengthOfBytes? (bytes : List UInt8) : Option Nat := unionEnd? bytes 0

end AnnotationCheck.Union
