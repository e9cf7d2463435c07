import AnnotationCheck.Proofs.Declarations.Names

/-!
The namespaces of a script.

* `spacesAll` — the names of the namespace statements, in the order of the script.
* `home_addAll`, `home_ofScript` — the namespace of a file is the first of them that is not empty.
* `HasOneHome` — a script without a namespace, or with one that all its class-likes lie in.
* **`HasOneHome.fst_of_mem_placedIn`** — the class-likes of such a script lie in the namespace of its file.
-/

namespace AnnotationCheck.Declarations

mutual

/-- The names of the namespace statements in a statement. -/
def spaces : Php.Statement → List (Option Text)
  | .space name body => name :: spacesAll body
  | .imports _ => []
  | .declares _ => []
  | .other => []

/-- The names of the namespace statements among some statements. -/
def spacesAll : List Php.Statement → List (Option Text)
  | [] => []
  | statement :: rest => spaces statement ++ spacesAll rest

end

/-! ### The namespace of a file -/

section Reading

variable (script : Text) (trivia : List Php.Trivia)

mutual

theorem home_add (home : Option Text) (found : Declarations) (statement : Php.Statement) :
    (add script trivia home found statement).home
      = found.home.or ((spaces statement).findSome? spaceName) := by
  cases statement with
  | space name body =>
    rw [add, spaces, List.findSome?_cons]
    refine (home_addAll (spaceName name) { found with home := found.home.or (spaceName name) } body).trans ?_
    cases found.home <;> cases spaceName name <;> rfl
  | imports list => simp [add, spaces]
  | declares classLike => simp [add, spaces]
  | other => simp [add, spaces]

/-- Of the namespaces, the first one whose name is not empty becomes that of the file. -/
theorem home_addAll (home : Option Text) (found : Declarations) (statements : List Php.Statement) :
    (addAll script trivia home found statements).home
      = found.home.or ((spacesAll statements).findSome? spaceName) := by
  cases statements with
  | nil => simp [addAll, spacesAll]
  | cons statement rest =>
    rw [addAll, home_addAll home (add script trivia home found statement) rest, home_add home found statement,
      spacesAll, List.findSome?_append, Option.or_assoc]

end

end Reading

section Scripts

variable [Php.Parser]

/-- The namespace statements of a script, each by its name, in the order of the script. -/
def spacesIn (script : Text) : List (Option Text) := spacesAll (Php.programOf script).statements

/-- The namespace of a file is the first one in it whose name is not empty. -/
theorem home_ofScript (script : Text) : (ofScript script).home = (spacesIn script).findSome? spaceName := by
  rw [ofScript_eq_ofProgram]
  exact home_addAll script _ none {} _

end Scripts

/-! ### Class-likes in one namespace -/

mutual

theorem fst_of_mem_placed {home : Option Text} {statement : Php.Statement} {place : Option Text × Php.ClassLike}
    (there : place ∈ placed home statement) :
    place.1 = home ∧ statement = .declares place.2 ∨ ∃ name ∈ spaces statement, place.1 = spaceName name := by
  cases statement with
  | space name body =>
    rw [placed] at there
    rcases fst_of_mem_placedAll there with ⟨isHere, _⟩ | ⟨inner, isInner, isHome⟩
    · exact .inr ⟨name, by simp [spaces], isHere⟩
    · exact .inr ⟨inner, by simp [spaces, isInner], isHome⟩
  | declares classLike =>
    rw [placed, List.mem_singleton] at there
    exact .inl ⟨by rw [there], by rw [there]⟩
  | imports list => simp [placed] at there
  | other => simp [placed] at there

/-- A class-like lies in the namespace around the statements and is one of them, or it lies in one of theirs. -/
theorem fst_of_mem_placedAll {home : Option Text} {statements : List Php.Statement}
    {place : Option Text × Php.ClassLike} (there : place ∈ placedAll home statements) :
    place.1 = home ∧ .declares place.2 ∈ statements ∨ ∃ name ∈ spacesAll statements, place.1 = spaceName name := by
  cases statements with
  | nil => simp [placedAll] at there
  | cons statement rest =>
    rw [placedAll, List.mem_append] at there
    rcases there with there | there
    · rcases fst_of_mem_placed there with ⟨isHome, rfl⟩ | ⟨name, isName, isHome⟩
      · exact .inl ⟨isHome, List.mem_cons_self⟩
      · exact .inr ⟨name, by simp [spacesAll, isName], isHome⟩
    · rcases fst_of_mem_placedAll there with ⟨isHome, declared⟩ | ⟨name, isName, isHome⟩
      · exact .inl ⟨isHome, List.mem_cons_of_mem statement declared⟩
      · exact .inr ⟨name, by simp [spacesAll, isName], isHome⟩

end

/-- A statement that declares a class-like itself. -/
def isDeclaration : Php.Statement → Bool
  | .declares _ => true
  | _ => false

/-- There is no namespace statement, or there is one and all class-likes lie inside it. -/
def HasOneHome (statements : List Php.Statement) : Prop :=
  spacesAll statements = []
    ∨ (spacesAll statements).length = 1 ∧ ∀ statement ∈ statements, isDeclaration statement = false

instance (statements : List Php.Statement) : Decidable (HasOneHome statements) :=
  inferInstanceAs (Decidable (_ ∨ _))

/-- **The class-likes of a script with one namespace at most lie in the namespace of its file.** -/
theorem HasOneHome.fst_of_mem_placedIn [Php.Parser] {script : Text}
    (oneHome : HasOneHome (Php.programOf script).statements) {place : Option Text × Php.ClassLike}
    (there : place ∈ placedIn script) : place.1 = (ofScript script).home := by
  rw [home_ofScript, spacesIn]
  rcases oneHome with noSpace | ⟨oneSpace, allInside⟩
  · rcases fst_of_mem_placedAll there with ⟨outside, _⟩ | ⟨name, isName, _⟩
    · rw [outside, noSpace]
      rfl
    · rw [noSpace] at isName
      cases isName
  · obtain ⟨name, isOnly⟩ := List.length_eq_one_iff.mp oneSpace
    rcases fst_of_mem_placedAll there with ⟨_, declared⟩ | ⟨other, isName, isHome⟩
    · cases allInside _ declared
    · rw [isOnly, List.mem_singleton] at isName
      rw [isHome, isName, isOnly, List.findSome?_singleton]

end AnnotationCheck.Declarations
