import AnnotationCheck.Issue.Basic
import AnnotationCheck.Proofs.Path.Order
import Mathlib.Data.List.Basic
import Mathlib.Data.List.Pairwise

/-!
The order of a report.

* `filter_ties_mergeSort` — sorting keeps the order of the items that are equal to a given one.
* `mergeSort_eq_of_ties` — so two lists are sorted alike if they agree on the items that are equal to each
  other, and leaving items out commutes with sorting (`filter_mergeSort`).
* **`Issue.sort_eq_of_files`** — two lists of issues are sorted alike if they hold the same ones of each
  file, in the same order.
-/

namespace AnnotationCheck

/-! ### Sorting where items may be equal -/

section Ties

variable {Item : Type} (cmp : Item → Item → Ordering)

/-- Whether an item may stand before another one. -/
def upTo (left right : Item) : Bool := (cmp left right).isLE

/-- Whether two items are equal in the order. -/
def ties (left right : Item) : Bool := cmp left right == .eq

variable {cmp}

theorem ties_iff {left right : Item} : ties cmp left right = true ↔ cmp left right = .eq := beq_iff_eq

variable [Std.TransCmp cmp]

theorem upTo_trans (first second third : Item) (left : upTo cmp first second = true)
    (right : upTo cmp second third = true) : upTo cmp first third = true :=
  Std.TransCmp.isLE_trans left right

theorem upTo_total (left right : Item) : (upTo cmp left right || upTo cmp right left) = true := by
  have swapped : cmp right left = (cmp left right).swap := Std.OrientedCmp.eq_swap
  rw [upTo, upTo, swapped]
  cases cmp left right <;> rfl

theorem ties_self (item : Item) : ties cmp item item = true := ties_iff.mpr Std.ReflCmp.compare_self

theorem filter_ties_mergeSort (items : List Item) (item : Item) :
    (items.mergeSort (upTo cmp)).filter (ties cmp item) = items.filter (ties cmp item) := by
  have sorted : (items.filter (ties cmp item)).Pairwise fun left right => upTo cmp left right = true := by
    refine List.pairwise_of_forall_mem_list fun left isLeft right isRight => ?_
    have same : cmp left right = .eq := by
      rw [← Std.TransCmp.congr_left (ties_iff.mp (List.mem_filter.mp isLeft).2)]
      exact ties_iff.mp (List.mem_filter.mp isRight).2
    rw [upTo, same, Ordering.isLE_eq]
  have kept := (List.sublist_mergeSort upTo_trans upTo_total sorted List.filter_sublist).filter (ties cmp item)
  rw [List.filter_filter] at kept
  simp only [Bool.and_self] at kept
  exact (kept.eq_of_length ((List.mergeSort_perm items (upTo cmp)).filter _).length_eq.symm).symm

/-- What agrees with a list on the items that are equal to each other has all of its items. -/
theorem mem_of_ties {first second : List Item}
    (alike : ∀ item, first.filter (ties cmp item) = second.filter (ties cmp item)) {item : Item}
    (there : item ∈ first) : item ∈ second := by
  have found : item ∈ first.filter (ties cmp item) := List.mem_filter.mpr ⟨there, ties_self item⟩
  rw [alike] at found
  exact (List.mem_filter.mp found).1

/-- Two sorted lists are one if they agree on the items that are equal to each other. -/
theorem eq_of_sorted_of_ties {first second : List Item}
    (firstSorted : first.Pairwise fun left right => upTo cmp left right = true)
    (secondSorted : second.Pairwise fun left right => upTo cmp left right = true)
    (alike : ∀ item, first.filter (ties cmp item) = second.filter (ties cmp item)) : first = second := by
  induction first generalizing second with
  | nil =>
    cases second with
    | nil => rfl
    | cons other others => cases mem_of_ties (fun item => (alike item).symm) List.mem_cons_self
  | cons item rest ih =>
    cases second with
    | nil => cases mem_of_ties alike List.mem_cons_self
    | cons other others =>
      obtain ⟨itemFirst, restSorted⟩ := List.pairwise_cons.mp firstSorted
      obtain ⟨otherFirst, othersSorted⟩ := List.pairwise_cons.mp secondSorted
      -- each head stands in the other list, so neither may stand before the other one alone
      have tied : ties cmp item other = true := by
        have itemThere : item ∈ other :: others := mem_of_ties alike List.mem_cons_self
        have otherThere : other ∈ item :: rest := mem_of_ties (fun item => (alike item).symm) List.mem_cons_self
        rcases List.mem_cons.mp itemThere with rfl | itemLater
        · exact ties_self item
        rcases List.mem_cons.mp otherThere with rfl | otherLater
        · exact ties_self other
        exact ties_iff.mpr (Std.OrientedCmp.isLE_antisymm (itemFirst other otherLater) (otherFirst item itemLater))
      have heads := alike item
      rw [List.filter_cons_of_pos (ties_self item), List.filter_cons_of_pos tied] at heads
      obtain ⟨rfl, -⟩ := List.cons.inj heads
      refine congrArg (item :: ·) (ih restSorted othersSorted fun other => ?_)
      have both := alike other
      rw [List.filter_cons, List.filter_cons] at both
      split at both
      · exact (List.cons.inj both).2
      · exact both

/-- **Two lists are sorted alike if they agree on the items that are equal to each other.** -/
theorem mergeSort_eq_of_ties {first second : List Item}
    (alike : ∀ item, first.filter (ties cmp item) = second.filter (ties cmp item)) :
    first.mergeSort (upTo cmp) = second.mergeSort (upTo cmp) := by
  refine eq_of_sorted_of_ties (List.pairwise_mergeSort upTo_trans upTo_total first)
    (List.pairwise_mergeSort upTo_trans upTo_total second) fun item => ?_
  rw [filter_ties_mergeSort, filter_ties_mergeSort, alike]

/-- Leaving items out before sorting or after it comes to the same. -/
theorem filter_mergeSort (keeps : Item → Bool) (items : List Item) :
    (items.mergeSort (upTo cmp)).filter keeps = (items.filter keeps).mergeSort (upTo cmp) := by
  have sorted : ((items.mergeSort (upTo cmp)).filter keeps).Pairwise fun left right => upTo cmp left right = true :=
    (List.pairwise_mergeSort upTo_trans upTo_total items).sublist List.filter_sublist
  refine eq_of_sorted_of_ties sorted (List.pairwise_mergeSort upTo_trans upTo_total _) fun item => ?_
  rw [filter_ties_mergeSort, List.filter_comm, filter_ties_mergeSort, List.filter_comm]

end Ties

/-! ### Issues -/

namespace Issue

/-- The order of issues: files by path, then lines. -/
def compare (left right : Issue) : Ordering :=
  (left.file.compare right.file).then (Ord.compare left.line right.line)

instance : Std.TransCmp compare := by
  have : Std.TransCmp fun left right : Issue => left.file.compare right.file :=
    transCmp_of_image file (inferInstanceAs (Std.TransCmp Path.compare))
  have : Std.TransCmp fun left right : Issue => Ord.compare left.line right.line :=
    transCmp_of_image line (inferInstanceAs (Std.TransCmp (Ord.compare : Nat → Nat → Ordering)))
  exact inferInstanceAs (Std.TransCmp (compareLex _ _))

theorem sort_eq_mergeSort (issues : List Issue) : sort issues = issues.mergeSort (upTo compare) := rfl

theorem sort_filter (keeps : Issue → Bool) (issues : List Issue) :
    sort (issues.filter keeps) = (sort issues).filter keeps := by
  rw [sort_eq_mergeSort, sort_eq_mergeSort, filter_mergeSort]

/-- Issues are equal in the order if they are on one line of one file. -/
theorem compare_eq_iff {left right : Issue} :
    left.compare right = .eq ↔ left.file.Same right.file ∧ left.line = right.line := by
  rw [compare, Ordering.then_eq_eq, Path.compare_eq_iff, Nat.compare_eq_eq]

/-- The issues of a file. -/
def ofFile (file : Path) (issues : List Issue) : List Issue :=
  issues.filter fun issue => decide (file.Same issue.file)

/-- **Two lists of issues are sorted alike if they hold the same ones of each file**, in the same order. -/
theorem sort_eq_of_files {first second : List Issue} (alike : ∀ file, ofFile file first = ofFile file second) :
    sort first = sort second := by
  have onLine : ∀ (issue : Issue) (issues : List Issue), issues.filter (ties compare issue)
      = (ofFile issue.file issues).filter fun other => issue.line == other.line := by
    intro issue issues
    rw [ofFile, List.filter_filter]
    refine List.filter_congr fun other _ => ?_
    rw [Bool.eq_iff_iff, ties_iff, compare_eq_iff]
    simp [and_comm]
  have tied : ∀ issue, first.filter (ties compare issue) = second.filter (ties compare issue) := by
    intro issue
    rw [onLine, onLine, alike]
  rw [sort_eq_mergeSort, sort_eq_mergeSort, mergeSort_eq_of_ties tied]

end Issue

end AnnotationCheck
