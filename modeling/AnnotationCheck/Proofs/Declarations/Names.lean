import AnnotationCheck.Declarations
import AnnotationCheck.Proofs.Scope.Canonical

/-!
The full names of what a script declares.

* `Php.programOf` — what the parser makes of a script; nothing stands in the program of a script that it gives up.
* `placedAll` — the class-likes that statements declare, each with the namespace that it lies in.
* `classes_addAll` — reading statements adds those class-likes, in the order of the script.
* `isHome_of_mem_placedAll` — the namespaces have a name, and no separator before it.
* **`isCanonical_of_mem_classes`** — so what a script declares has a canonical name, where no class-like is
  declared under a name that begins with a separator.
-/

namespace AnnotationCheck

/-- What the parser makes of a script; nothing stands in the program of a script that it gives up. -/
def Php.programOf [Php.Parser] (script : Text) : Php.Program := (Php.parse? script).getD ⟨[], []⟩

theorem Declarations.ofScript_eq_ofProgram [Php.Parser] (script : Text) :
    ofScript script = ofProgram script (Php.programOf script) := by
  unfold ofScript ofScript? Php.programOf
  cases Php.parse? script <;> rfl

end AnnotationCheck

namespace AnnotationCheck.Declarations

open Reference (IsBare)
open Scope (IsHome)

mutual

/-- The class-likes that a statement in the given namespace declares, each with the namespace it lies in. -/
def placed (home : Option Text) : Php.Statement → List (Option Text × Php.ClassLike)
  | .space name body => placedAll (spaceName name) body
  | .imports _ => []
  | .declares classLike => [(home, classLike)]
  | .other => []

/-- The class-likes that statements in the given namespace declare, each with the namespace it lies in. -/
def placedAll (home : Option Text) : List Php.Statement → List (Option Text × Php.ClassLike)
  | [] => []
  | statement :: rest => placed home statement ++ placedAll home rest

end

/-- The marks that names and types are put together with. -/
def typeMarks : List Char := ['\\', '|', '[', ']']

/-- A name that is not empty and has no mark in it that names and types are put together with. -/
def IsPlainName (name : Text) : Prop := name ≠ [] ∧ ∀ c ∈ name, c ∉ typeMarks

theorem IsPlainName.isBare {name : Text} (plain : IsPlainName name) : IsBare name := fun led =>
  plain.2 _ (List.mem_of_mem_head? led) (by decide)

/-! ### What is read is what is placed -/

section Reading

variable (script : Text) (trivia : List Php.Trivia)

/-- The declaration of a class-like that is placed in a namespace. -/
def declarationAt (place : Option Text × Php.ClassLike) : Declaration :=
  declaration script trivia place.1 place.2

mutual

theorem classes_add (home : Option Text) (found : Declarations) (statement : Php.Statement) :
    (add script trivia home found statement).classes
      = found.classes ++ (placed home statement).map (declarationAt script trivia) := by
  cases statement with
  | space name body =>
    rw [add, placed]
    exact classes_addAll (spaceName name) { found with home := found.home.or (spaceName name) } body
  | imports list => simp [add, placed]
  | declares classLike => simp [add, placed, declarationAt]
  | other => simp [add, placed]

/-- Reading statements adds the class-likes that they declare, in order. -/
theorem classes_addAll (home : Option Text) (found : Declarations) (statements : List Php.Statement) :
    (addAll script trivia home found statements).classes
      = found.classes ++ (placedAll home statements).map (declarationAt script trivia) := by
  cases statements with
  | nil => simp [addAll, placedAll]
  | cons statement rest =>
    rw [addAll, classes_addAll home (add script trivia home found statement) rest,
      classes_add home found statement, placedAll, List.map_append, List.append_assoc]

end

end Reading

/-! ### Namespaces -/

/-- The name of a namespace is read as none or as one that no separator leads. -/
theorem isHome_of_spaceName {name : Option Text} {space : Text} (read : spaceName name = some space) :
    IsHome space := by
  obtain ⟨isName, some⟩ := Option.filter_eq_some_iff.mp read
  obtain ⟨written, _, rfl⟩ := Option.map_eq_some_iff.mp isName
  exact ⟨by simpa using some, Reference.isBare_bare written⟩

mutual

theorem isHome_of_mem_placed {home : Option Text} (outer : ∀ space ∈ home, IsHome space)
    (statement : Php.Statement) : ∀ place ∈ placed home statement, ∀ space ∈ place.1, IsHome space := by
  cases statement with
  | space name body =>
    rw [placed]
    exact isHome_of_mem_placedAll (fun _ read => isHome_of_spaceName read) body
  | imports list => simp [placed]
  | declares classLike => simpa [placed] using outer
  | other => simp [placed]

theorem isHome_of_mem_placedAll {home : Option Text} (outer : ∀ space ∈ home, IsHome space)
    (statements : List Php.Statement) :
    ∀ place ∈ placedAll home statements, ∀ space ∈ place.1, IsHome space := by
  cases statements with
  | nil => simp [placedAll]
  | cons statement rest =>
    intro place there
    rw [placedAll, List.mem_append] at there
    exact there.elim (isHome_of_mem_placed outer statement place) (isHome_of_mem_placedAll outer rest place)

end

/-! ### Scripts -/

section Scripts

variable [Php.Parser]

/-- The class-likes of a script, each with the namespace it lies in. -/
def placedIn (script : Text) : List (Option Text × Php.ClassLike) := placedAll none (Php.programOf script).statements

theorem classes_ofScript (script : Text) :
    (ofScript script).classes = (placedIn script).map (declarationAt script (Php.programOf script).trivia) := by
  rw [ofScript_eq_ofProgram, ofProgram, classes_addAll]
  rfl

/-- **What a script declares has a canonical name**, where no class-like is declared under a name that
begins with a separator: that of a namespace is trimmed, so none stands where a second one would. -/
theorem isCanonical_of_mem_classes {script : Text}
    (plain : ∀ place ∈ placedIn script, IsBare place.2.name) :
    ∀ declared ∈ (ofScript script).classes, IsCanonical declared.name := by
  intro declared there
  rw [classes_ofScript] at there
  obtain ⟨place, isPlaced, rfl⟩ := List.mem_map.mp there
  exact Scope.isCanonical_qualify_iff.mpr
    ⟨fun _ => plain place isPlaced, isHome_of_mem_placedAll (by simp) _ place isPlaced⟩

end Scripts

end AnnotationCheck.Declarations
