import AnnotationCheck.Scope
import Mathlib.Data.List.Pairwise

/-!
The class-like that a name stands for, stated without reference to any search.

* `Imports.Distinct` — no two imports are used under names that differ at most in case. Then
  `Imports.lookup?` gives the one import that fits (`lookup?_eq_some_iff`, `lookup?_eq_none_iff`).
* `Imports.Alike` — the same imports, which are asked in another order only if they are distinct; a name stands for
  the same in either (`lookup?_of_alike`).
* `Scope.Resolves` — the rules for names: a separator at the beginning, an import of the first
  segment, or the namespace.
* **`Scope.resolves_iff`** — under distinct imports every name stands for one class-like, which
  `Scope.resolve` gives.
-/

namespace AnnotationCheck

/-! ### Imports -/

namespace Imports

/-- No two imports are used under names that differ at most in case. -/
def Distinct (imports : Imports) : Prop :=
  imports.entries.Pairwise fun first second => Text.sameIgnoringCase first.1 second.1 = false

instance (imports : Imports) : Decidable imports.Distinct :=
  inferInstanceAs (Decidable (imports.entries.Pairwise _))

/-- The import that a name stands for, if it fits in any case. -/
def Offers (imports : Imports) (name target : Text) : Prop :=
  ∃ shortName, (shortName, target) ∈ imports.entries ∧ Text.sameIgnoringCase shortName name = true

theorem sameIgnoringCase_iff {left right : Text} :
    Text.sameIgnoringCase left right = true ↔ Text.lower left = Text.lower right := beq_iff_eq

/-- Of distinct imports, one at most fits a name. -/
theorem Distinct.eq_of_fits {imports : Imports} (distinct : imports.Distinct) {name : Text}
    {first second : Text × Text} (isFirst : first ∈ imports.entries) (isSecond : second ∈ imports.entries)
    (firstFits : Text.sameIgnoringCase first.1 name = true)
    (secondFits : Text.sameIgnoringCase second.1 name = true) : first = second := by
  have both : Text.sameIgnoringCase first.1 second.1 = true := by
    rw [sameIgnoringCase_iff] at firstFits secondFits ⊢
    rw [firstFits, secondFits]
  have symmetric : Std.Symm fun first second : Text × Text =>
      Text.sameIgnoringCase first.1 second.1 = false := by
    refine ⟨fun left right separate => ?_⟩
    rw [← separate]
    exact Bool.eq_iff_iff.mpr (by rw [sameIgnoringCase_iff, sameIgnoringCase_iff, eq_comm])
  by_cases same : first = second
  · exact same
  · rw [distinct.forall isFirst isSecond same] at both
    cases both

theorem offers_of_lookup? {imports : Imports} {name target : Text}
    (found : imports.lookup? name = some target) : imports.Offers name target := by
  rcases Option.or_eq_some_iff.mp found with exact' | ⟨_, anyCase⟩
  · obtain ⟨entry, isEntry, rfl⟩ := Option.map_eq_some_iff.mp exact'
    have spelled : entry.1 = name := by simpa using List.find?_some isEntry
    exact ⟨entry.1, List.mem_of_find?_eq_some isEntry, by rw [spelled, sameIgnoringCase_iff]⟩
  · obtain ⟨entry, isEntry, rfl⟩ := Option.map_eq_some_iff.mp anyCase
    have fits : Text.sameIgnoringCase entry.1 name = true := by simpa using List.find?_some isEntry
    exact ⟨entry.1, List.mem_of_find?_eq_some isEntry, fits⟩

/-- **Of distinct imports, the one that fits a name is found.** -/
theorem lookup?_eq_some_iff {imports : Imports} (distinct : imports.Distinct) {name target : Text} :
    imports.lookup? name = some target ↔ imports.Offers name target := by
  refine ⟨offers_of_lookup?, ?_⟩
  rintro ⟨shortName, isEntry, fits⟩
  cases found : imports.lookup? name with
  | none =>
    have missed := (Option.or_eq_none_iff.mp found).2
    rw [Option.map_eq_none_iff, List.find?_eq_none] at missed
    exact absurd fits (missed _ isEntry)
  | some other =>
    obtain ⟨otherName, isOther, otherFits⟩ := offers_of_lookup? found
    cases distinct.eq_of_fits isEntry isOther fits otherFits
    rfl

theorem lookup?_eq_none_iff {imports : Imports} {name : Text} :
    imports.lookup? name = none ↔ ∀ target, ¬ imports.Offers name target := by
  constructor
  · rintro missed target ⟨shortName, isEntry, fits⟩
    have none := (Option.or_eq_none_iff.mp missed).2
    rw [Option.map_eq_none_iff, List.find?_eq_none] at none
    exact none _ isEntry fits
  · intro unfit
    cases found : imports.lookup? name with
    | none => rfl
    | some target => exact absurd (offers_of_lookup? found) (unfit target)

/-! ### The order in which imports are asked -/

/-- The order against the one in which imports were put in. -/
def Order.reversed : Order := ⟨List.reverse, List.reverse_perm⟩

/-- The same imports, in the same order unless no two of them are used under names that differ at most in case. -/
def Alike (left right : Imports) : Prop := left = right ∨ left.Distinct ∧ left.entries.Perm right.entries

theorem Distinct.perm {left right : Imports} (distinct : left.Distinct) (perm : left.entries.Perm right.entries) :
    right.Distinct := by
  refine List.Pairwise.perm distinct perm fun {first second} separate => ?_
  rw [← separate]
  exact Bool.eq_iff_iff.mpr (by rw [sameIgnoringCase_iff, sameIgnoringCase_iff, eq_comm])

/-- **A name stands for the same** among the same imports, in whichever order distinct ones are asked. -/
theorem lookup?_of_alike {left right : Imports} (alike : left.Alike right) (name : Text) :
    left.lookup? name = right.lookup? name := by
  rcases alike with rfl | ⟨distinct, perm⟩
  · rfl
  · ext target
    rw [lookup?_eq_some_iff distinct, lookup?_eq_some_iff (distinct.perm perm)]
    simp only [Offers, perm.mem_iff]

/-- Imports that are asked in some order offer the same. -/
theorem offers_arranged_iff {imports : Imports} {order : Order} {name target : Text} :
    (imports.arranged order).Offers name target ↔ imports.Offers name target := by
  simp only [Offers, arranged, (order.isPerm _).mem_iff]

theorem Distinct.arranged {imports : Imports} (distinct : imports.Distinct) (order : Order) :
    (imports.arranged order).Distinct := distinct.perm (order.isPerm _).symm

/-- Distinct imports are the same in any two orders; others are in equal ones. -/
theorem alike_arranged {imports : Imports} {order other : Order}
    (fixed : imports.Distinct ∨ imports.arranged order = imports.arranged other) :
    (imports.arranged order).Alike (imports.arranged other) := by
  rcases fixed with distinct | same
  · exact .inr ⟨distinct.arranged order, (order.isPerm _).trans (other.isPerm _).symm⟩
  · exact .inl same

end Imports

namespace Scope

/-! ### Names -/

/-- A name is its first segment and a rest that is empty or begins with a separator. -/
def IsCut (name first rest : Text) : Prop :=
  name = first ++ rest ∧ Union.separator ∉ first ∧ (rest = [] ∨ ∃ more, rest = Union.separator :: more)

/-- The full name that a name as written stands for. -/
inductive Resolves (scope : Scope) : Text → Text → Prop
  /-- A name with a separator before it is a full name. -/
  | full {rest : Text} : Resolves scope (Union.separator :: rest) (Union.separator :: rest)
  /-- The first segment is the name of an import. -/
  | imported {name first rest target : Text} : name.head? ≠ some Union.separator → IsCut name first rest →
      scope.imports.Offers first target → Resolves scope name (Union.separator :: target ++ rest)
  /-- Any other name lies in the namespace. -/
  | own {name first rest : Text} : name.head? ≠ some Union.separator → IsCut name first rest →
      (∀ target, ¬ scope.imports.Offers first target) → Resolves scope name (qualify scope.home name)

theorem isCut_splitFirst (name : Text) : IsCut name (splitFirst name).1 (splitFirst name).2 := by
  refine ⟨List.takeWhile_append_dropWhile.symm, fun there => ?_, ?_⟩
  · have inside : ∀ c ∈ name.takeWhile (· != Union.separator), (c != Union.separator) = true :=
      List.all_eq_true.mp List.all_takeWhile
    simpa using inside _ there
  · induction name with
    | nil => exact .inl rfl
    | cons c rest ih =>
      by_cases here : c = Union.separator
      · exact .inr ⟨rest, by simp [splitFirst, here]⟩
      · simpa [splitFirst, here] using ih

theorem takeWhile_ne_of_not_mem {word : Text} (clear : Union.separator ∉ word) (rest : Text) :
    (word ++ rest).takeWhile (· != Union.separator) = word ++ rest.takeWhile (· != Union.separator) :=
  List.takeWhile_append_of_pos fun c there => by
    rw [bne_iff_ne]
    rintro rfl
    exact clear there

/-- A name is cut in one way. -/
theorem IsCut.eq_splitFirst {name first rest : Text} (cut : IsCut name first rest) :
    splitFirst name = (first, rest) := by
  obtain ⟨rfl, clear, ending⟩ := cut
  have taken : (first ++ rest).takeWhile (· != Union.separator) = first := by
    rw [takeWhile_ne_of_not_mem clear]
    rcases ending with rfl | ⟨more, rfl⟩ <;> simp
  have dropped : (first ++ rest).dropWhile (· != Union.separator) = rest := by
    have whole : (first ++ rest).takeWhile (· != Union.separator)
        ++ (first ++ rest).dropWhile (· != Union.separator) = first ++ rest := List.takeWhile_append_dropWhile
    rw [taken] at whole
    exact List.append_cancel_left whole
  rw [splitFirst, taken, dropped]

theorem resolve_separator (scope : Scope) (rest : Text) :
    scope.resolve (Union.separator :: rest) = Union.separator :: rest := if_pos rfl

theorem resolve_of_offers {scope : Scope} (distinct : scope.imports.Distinct) {name first rest target : Text}
    (relative : name.head? ≠ some Union.separator) (cut : IsCut name first rest)
    (offered : scope.imports.Offers first target) :
    scope.resolve name = Union.separator :: target ++ rest := by
  rw [resolve, if_neg relative, cut.eq_splitFirst]
  simp only [(Imports.lookup?_eq_some_iff distinct).mpr offered]

theorem resolve_of_not_offers {scope : Scope} {name first rest : Text}
    (relative : name.head? ≠ some Union.separator) (cut : IsCut name first rest)
    (unfit : ∀ target, ¬ scope.imports.Offers first target) :
    scope.resolve name = qualify scope.home name := by
  rw [resolve, if_neg relative, cut.eq_splitFirst]
  simp only [Imports.lookup?_eq_none_iff.mpr unfit]

theorem resolves_resolve (scope : Scope) (name : Text) : scope.Resolves name (scope.resolve name) := by
  by_cases full : name.head? = some Union.separator
  · obtain ⟨rest, rfl⟩ := List.head?_eq_some_iff.mp full
    rw [resolve_separator]
    exact .full
  · rw [resolve, if_neg full]
    split
    · rename_i found
      exact .imported full (isCut_splitFirst name) (Imports.offers_of_lookup? found)
    · rename_i missed
      exact .own full (isCut_splitFirst name) (Imports.lookup?_eq_none_iff.mp missed)

/-- **Every name stands for one class-like**, where no two imports have names that differ at most in
case. -/
theorem resolves_iff {scope : Scope} (distinct : scope.imports.Distinct) {name fullName : Text} :
    scope.Resolves name fullName ↔ fullName = scope.resolve name := by
  constructor
  · intro resolved
    cases resolved with
    | full => exact (resolve_separator scope _).symm
    | imported relative cut offered => exact (resolve_of_offers distinct relative cut offered).symm
    | own relative cut unfit => exact (resolve_of_not_offers relative cut unfit).symm
  · rintro rfl
    exact resolves_resolve scope name

end Scope

end AnnotationCheck
