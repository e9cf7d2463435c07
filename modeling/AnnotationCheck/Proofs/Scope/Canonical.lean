import AnnotationCheck.Proofs.Scope.Resolves
import AnnotationCheck.Symbols

/-!
Full names with one separator before them.

* `IsCanonical` — a full name that begins with one separator, as all of them are meant to.
* `isCanonical_qualify_iff` — the name that a namespace gives to a class-like is canonical if the
  namespace is neither empty nor led by a separator.
* `Scope.IsDoubled` — the names as written that come to stand behind two separators.
* **`Scope.isCanonical_resolve_iff`** — where no separator leads the namespace and the targets of the
  imports, a name stands for a canonical one exactly if it is not doubled.
-/

namespace AnnotationCheck

/-- A name that does not begin with a separator. -/
def Reference.IsBare (name : Text) : Prop := name.head? ≠ some Union.separator

/-- A full name that begins with one separator. -/
def IsCanonical (name : Text) : Prop := canonical name = name

instance (name : Text) : Decidable (Reference.IsBare name) := inferInstanceAs (Decidable (_ ≠ _))

instance (name : Text) : Decidable (IsCanonical name) := inferInstanceAs (Decidable (_ = _))

namespace Reference

@[simp] theorem bare_separator (rest : Text) : bare (Union.separator :: rest) = bare rest := by
  simp [bare]

theorem isBare_bare (name : Text) : IsBare (bare name) := by
  induction name with
  | nil => decide
  | cons c rest ih =>
    by_cases led : c = Union.separator
    · rw [led, bare_separator]
      exact ih
    · simp [IsBare, bare, led]

theorem bare_eq_self_iff {name : Text} : bare name = name ↔ IsBare name := by
  constructor
  · intro same
    rw [← same]
    exact isBare_bare name
  · intro isBare
    cases name with
    | nil => rfl
    | cons c rest =>
      have free : c ≠ Union.separator := fun led => isBare (congrArg some led)
      simp [bare, free]

theorem isBare_append_iff {first : Text} (some : first ≠ []) (rest : Text) :
    IsBare (first ++ rest) ↔ IsBare first := by
  obtain ⟨c, more, rfl⟩ := List.exists_cons_of_ne_nil some
  rfl

end Reference

open Reference

@[simp] theorem canonical_separator (rest : Text) :
    canonical (Union.separator :: rest) = canonical rest := by
  rw [canonical, bare_separator, canonical]

/-- Behind its separator, a canonical name has no other one. -/
theorem isCanonical_separator_iff {rest : Text} : IsCanonical (Union.separator :: rest) ↔ IsBare rest := by
  rw [IsCanonical, canonical_separator, canonical, List.cons_inj_right, bare_eq_self_iff]

namespace Scope

/-- A namespace that has a name, and no separator before it. -/
def IsHome (space : Text) : Prop := space ≠ [] ∧ IsBare space

/-- The full name from a namespace is canonical if the namespace is in order; without one the name itself
has to be. -/
theorem isCanonical_qualify_iff {home : Option Text} {name : Text} :
    IsCanonical (qualify home name) ↔ (home = none → IsBare name) ∧ ∀ space ∈ home, IsHome space := by
  cases home with
  | none => simp [qualify, isCanonical_separator_iff]
  | some space =>
    rw [qualify, List.cons_append, isCanonical_separator_iff]
    simp only [reduceCtorEq, false_implies, true_and, Option.mem_some_iff, forall_eq', IsHome]
    by_cases empty : space = []
    · simp [empty, IsBare]
    · rw [isBare_append_iff empty]
      simp [empty]

/-- No separator stands before the namespace and the targets of the imports. -/
structure IsClean (scope : Scope) : Prop where
  home : ∀ space ∈ scope.home, IsBare space
  imports : ∀ entry ∈ scope.imports.entries, IsBare entry.2

/-- A name as written whose full name begins with two separators. -/
inductive IsDoubled (scope : Scope) : Text → Prop
  /-- It is written with two separators before it. -/
  | written (rest : Text) : IsDoubled scope (Union.separator :: Union.separator :: rest)
  /-- Its first segment is an import of the empty name, and another segment follows. -/
  | imported {name : Text} : IsBare name → scope.imports.lookup? (splitFirst name).1 = some [] →
      (splitFirst name).2 ≠ [] → IsDoubled scope name
  /-- It lies in a namespace with the empty name. -/
  | own {name : Text} : IsBare name → scope.imports.lookup? (splitFirst name).1 = none →
      scope.home = some [] → IsDoubled scope name

theorem isDoubled_separator_iff {scope : Scope} {rest : Text} :
    scope.IsDoubled (Union.separator :: rest) ↔ ¬ IsBare rest := by
  constructor
  · intro doubled
    cases doubled with
    | written rest => exact fun isBare => isBare rfl
    | imported isBare _ _ => exact absurd rfl isBare
    | own isBare _ _ => exact absurd rfl isBare
  · intro led
    obtain ⟨more, rfl⟩ := List.head?_eq_some_iff.mp (Decidable.not_not.mp led)
    exact .written more

theorem isBare_snd_splitFirst_iff {name : Text} : IsBare (splitFirst name).2 ↔ (splitFirst name).2 = [] := by
  obtain ⟨_, _, none | ⟨more, led⟩⟩ := isCut_splitFirst name
  · simp [none, IsBare]
  · simp [led, IsBare]

/-- **A name stands for a canonical one exactly if it is not doubled**, where no separator leads the
namespace and the targets of the imports. -/
theorem isCanonical_resolve_iff {scope : Scope} (clean : scope.IsClean) {name : Text} :
    IsCanonical (scope.resolve name) ↔ ¬ scope.IsDoubled name := by
  by_cases isBare : IsBare name
  · rw [resolve, if_neg isBare]
    cases found : scope.imports.lookup? (splitFirst name).1 with
    | some target =>
      obtain ⟨shortName, isEntry, _⟩ := Imports.offers_of_lookup? found
      have targetIsBare : IsBare target := clean.imports _ isEntry
      have onlyByImport : scope.IsDoubled name ↔ target = [] ∧ (splitFirst name).2 ≠ [] := by
        constructor
        · intro doubled
          cases doubled with
          | written rest => exact absurd rfl isBare
          | imported _ empty more =>
            rw [found] at empty
            exact ⟨Option.some.inj empty, more⟩
          | own _ none _ =>
            rw [found] at none
            cases none
        · rintro ⟨empty, more⟩
          exact .imported isBare (by rw [found, empty]) more
      rw [onlyByImport]
      show IsCanonical (Union.separator :: (target ++ (splitFirst name).2)) ↔ _
      rw [isCanonical_separator_iff]
      by_cases empty : target = []
      · rw [empty, List.nil_append, isBare_snd_splitFirst_iff]
        simp
      · rw [isBare_append_iff empty]
        simp [empty, targetIsBare]
    | none =>
      have onlyByHome : scope.IsDoubled name ↔ scope.home = some [] := by
        constructor
        · intro doubled
          cases doubled with
          | written rest => exact absurd rfl isBare
          | imported _ empty _ =>
            rw [found] at empty
            cases empty
          | own _ _ home => exact home
        · exact .own isBare found
      rw [onlyByHome, isCanonical_qualify_iff]
      cases home : scope.home with
      | none => simp [isBare]
      | some space => simp [IsHome, clean.home space home]
  · obtain ⟨rest, rfl⟩ := List.head?_eq_some_iff.mp (Decidable.not_not.mp isBare)
    rw [resolve_separator, isCanonical_separator_iff, isDoubled_separator_iff, not_not]

end Scope

end AnnotationCheck
