import AnnotationCheck.Comment
import AnnotationCheck.Proofs.Text.Offset
import Mathlib.Data.List.Forall2

/-!
Comments that are read off any list of ranges.

* `Range.Denotes` — a range that begins and ends between two characters of a text, and the part between.
* `Counts`, `IsKept` — a range counts if it denotes a part of the text and does not begin before the last one
  that counted; the ranges of a list that count are determined (`IsKept.unique`), stand in its order
  (`IsKept.sublist`) and do not go back (`IsKept.pairwise`), and are all of it if it is sorted and each denotes a
  part (`isKept_of_sorted`).
* `ofRangesFrom_skip`, `ofRangesFrom_keep` — one range, that does not count or does.
* **`forall₂_counted`** — the comments are the parts at the ranges that count, each on the line of its first byte.
-/

namespace AnnotationCheck

/-! ### The ranges that count -/

/-- A range begins and ends between two characters of a text, and `part` stands there. -/
def Range.Denotes (range : Range) (text part : Text) : Prop :=
  ∃ before rest, text = before ++ (part ++ rest) ∧ Text.size before = range.start ∧
    Text.size before + Text.size part = range.stop

theorem Range.denotes_iff {range : Range} {text part : Text} :
    range.Denotes text part ↔ Text.slice? text range.start range.stop = some part :=
  Text.slice?_eq_some_iff.symm

theorem Range.Denotes.start_le {range : Range} {text part : Text} (denotes : range.Denotes text part) :
    range.start ≤ Text.size text := by
  obtain ⟨before, rest, rfl, starts, -⟩ := denotes
  rw [← starts, Text.size_append]
  omega

namespace Comment

/-- Behind the ranges `kept`, a range counts that denotes a part of the text and does not begin before the last
of them. -/
def Counts (text : Text) (kept : List Range) (range : Range) : Prop :=
  (∃ part, range.Denotes text part) ∧ ∀ last ∈ kept.getLast?, last.start ≤ range.start

/-- Behind the ranges `kept`, the ranges `more` of a list count. -/
inductive IsKept (text : Text) : List Range → List Range → List Range → Prop
  | nil {kept : List Range} : IsKept text kept [] []
  | cons {kept rest more : List Range} {range : Range} : Counts text kept range →
      IsKept text (kept ++ [range]) rest more → IsKept text kept (range :: rest) (range :: more)
  | skip {kept rest more : List Range} {range : Range} : ¬ Counts text kept range →
      IsKept text kept rest more → IsKept text kept (range :: rest) more

variable {text : Text} {kept ranges more : List Range}

theorem IsKept.unique {others : List Range} (first : IsKept text kept ranges more)
    (second : IsKept text kept ranges others) : others = more := by
  induction first generalizing others with
  | nil =>
    cases second
    rfl
  | cons counts _ ih =>
    cases second with
    | cons _ later => rw [ih later]
    | skip absent _ => exact absurd counts absent
  | skip absent _ ih =>
    cases second with
    | cons counts _ => exact absurd counts absent
    | skip _ later => exact ih later

/-- Ranges in the order of their beginnings all count, if each denotes a part of the text. -/
theorem isKept_of_sorted (denote : ∀ range ∈ ranges, ∃ part, range.Denotes text part)
    (sorted : ranges.Pairwise fun range next => range.start ≤ next.start)
    (behind : ∀ range ∈ ranges, ∀ last ∈ kept.getLast?, last.start ≤ range.start) :
    IsKept text kept ranges ranges := by
  induction ranges generalizing kept with
  | nil => exact .nil
  | cons range rest ih =>
    obtain ⟨first, sorted⟩ := List.pairwise_cons.mp sorted
    have counts : Counts text kept range := ⟨denote range List.mem_cons_self, behind range List.mem_cons_self⟩
    refine .cons counts (ih (fun next there => denote next (List.mem_cons_of_mem _ there)) sorted ?_)
    intro next there last isLast
    rw [List.getLast?_concat] at isLast
    cases isLast
    exact first next there

/-! ### The scan -/

/-- The beginning of the last of some ranges; that of the text ahead of them all. -/
def lastStart (kept : List Range) : Nat := (kept.getLast?.map Range.start).getD 0

@[simp] theorem lastStart_concat (kept : List Range) (range : Range) : lastStart (kept ++ [range]) = range.start := by
  rw [lastStart, List.getLast?_concat, Option.map_some, Option.getD_some]

theorem lastStart_le_iff {kept : List Range} {offset : Nat} :
    lastStart kept ≤ offset ↔ ∀ last ∈ kept.getLast?, last.start ≤ offset := by
  unfold lastStart
  cases kept.getLast? with
  | none => simp
  | some last => simp

theorem counts_iff {range : Range} :
    Counts text kept range
      ↔ lastStart kept ≤ range.start ∧ (Text.slice? text range.start range.stop).isSome := by
  simp only [Counts, lastStart_le_iff, Range.denotes_iff, Option.isSome_iff_exists, and_comm]

/-- The ranges of a list that count, where the last one before them begins at `cursor`. -/
def countedFrom (text : Text) : Nat → List Range → List Range
  | _, [] => []
  | cursor, range :: rest =>
    if cursor ≤ range.start ∧ (Text.slice? text range.start range.stop).isSome then
      range :: countedFrom text range.start rest
    else countedFrom text cursor rest

/-- The ranges of a list that count. -/
def counted (text : Text) (ranges : List Range) : List Range := countedFrom text 0 ranges

theorem IsKept.sublist (isKept : IsKept text kept ranges more) : more.Sublist ranges := by
  induction isKept with
  | nil => exact .slnil
  | cons _ _ ih => exact ih.cons_cons _
  | skip _ _ ih => exact ih.cons _

/-- The ranges that count do not go back behind the last one before them, nor behind each other. -/
theorem IsKept.pairwise (isKept : IsKept text kept ranges more) :
    (more.Pairwise fun range next => range.start ≤ next.start)
      ∧ ∀ range ∈ more, lastStart kept ≤ range.start := by
  induction isKept with
  | nil => exact ⟨.nil, by simp⟩
  | @cons kept rest more range counts _ ih =>
    obtain ⟨inOrder, behind⟩ := ih
    rw [lastStart_concat] at behind
    have here : lastStart kept ≤ range.start := lastStart_le_iff.mpr counts.2
    refine ⟨.cons behind inOrder, fun next there => ?_⟩
    rcases List.mem_cons.mp there with rfl | there
    · exact here
    · exact Nat.le_trans here (behind next there)
  | skip _ _ ih => exact ih

/-- A comment is the part of the text at a range, and stands on the line of the first byte of it. -/
structure IsAt (text : Text) (range : Range) (comment : Comment) : Prop where
  denotes : range.Denotes text comment.text
  line_eq : comment.line = Text.lineAt text range.start

variable {range : Range}

/-- A range that does not count is passed by, and the line stays that of the last one that did. -/
theorem ofRangesFrom_skip (absent : ¬ Counts text kept range) (line : Nat) (rest : List Range) :
    ofRangesFrom text (lastStart kept) line (range :: rest) = ofRangesFrom text (lastStart kept) line rest := by
  rw [ofRangesFrom_cons]
  by_cases before : range.start < lastStart kept
  · exact if_pos before
  · have nothing : Text.slice? text range.start range.stop = none := by
      rw [counts_iff, not_and, Option.not_isSome_iff_eq_none] at absent
      exact absent (Nat.le_of_not_lt before)
    rw [nothing]
    exact ite_self _

/-- A range that counts is read: the line is counted on to its beginning, and the rest is read from there. -/
theorem ofRangesFrom_keep {part : Text} (denotes : range.Denotes text part) (inOrder : lastStart kept ≤ range.start)
    (rest : List Range) :
    ofRangesFrom text (lastStart kept) (Text.lineAt text (lastStart kept)) (range :: rest)
      = ⟨part, Text.lineAt text range.start⟩
        :: ofRangesFrom text range.start (Text.lineAt text range.start) rest := by
  have onwards : advance text (Text.lineAt text (lastStart kept)) (lastStart kept) range.start
      = Text.lineAt text range.start := Text.lineAt_add inOrder denotes.start_le
  rw [ofRangesFrom_cons, if_neg (Nat.not_lt.mpr inOrder), Range.denotes_iff.mp denotes]
  simp only [onwards]

/-- The ranges that count behind others are read from the line of the last of those. -/
theorem forall₂_countedFrom (text : Text) (kept ranges : List Range) :
    IsKept text kept ranges (countedFrom text (lastStart kept) ranges)
      ∧ List.Forall₂ (IsAt text) (countedFrom text (lastStart kept) ranges)
          (ofRangesFrom text (lastStart kept) (Text.lineAt text (lastStart kept)) ranges) := by
  induction ranges generalizing kept with
  | nil => exact ⟨.nil, .nil⟩
  | cons range rest ih =>
    by_cases counts : Counts text kept range
    · obtain ⟨part, denotes⟩ := counts.1
      obtain ⟨isKept, areAt⟩ := ih (kept ++ [range])
      rw [lastStart_concat] at isKept areAt
      rw [countedFrom, if_pos (counts_iff.mp counts), ofRangesFrom_keep denotes (lastStart_le_iff.mpr counts.2)]
      exact ⟨.cons counts isKept, .cons ⟨denotes, rfl⟩ areAt⟩
    · obtain ⟨isKept, areAt⟩ := ih kept
      rw [countedFrom, if_neg (counts_iff.not.mp counts), ofRangesFrom_skip counts]
      exact ⟨.skip counts isKept, areAt⟩

/-- **The comments at ranges** are the parts at those that count, each on the line of its first byte. -/
theorem forall₂_counted (text : Text) (ranges : List Range) :
    IsKept text [] ranges (counted text ranges)
      ∧ List.Forall₂ (IsAt text) (counted text ranges) (ofRanges text ranges) := by
  have found := forall₂_countedFrom text [] ranges
  rwa [show lastStart [] = 0 from rfl, Text.lineAt_zero] at found

/-- Sorted ranges that denote parts of the text are all read. -/
theorem forall₂_ofRanges (denote : ∀ range ∈ ranges, ∃ part, range.Denotes text part)
    (sorted : ranges.Pairwise fun range next => range.start ≤ next.start) :
    List.Forall₂ (IsAt text) ranges (ofRanges text ranges) := by
  obtain ⟨isKept, areAt⟩ := forall₂_counted text ranges
  have all : IsKept text [] ranges ranges := isKept_of_sorted denote sorted fun _ _ _ absent => by cases absent
  rwa [all.unique isKept] at areAt

end Comment

end AnnotationCheck
