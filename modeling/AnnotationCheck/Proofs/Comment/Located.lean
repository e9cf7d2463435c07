import AnnotationCheck.Proofs.Comment.Ranges

/-!
The comments of a script at their places, whatever a parser makes of the script.

* `Comment.StandsAt` — a comment stands at a range that the parser gives, on the line of its first byte; or it is
  the whole script on a line of its own, where the whole file is taken for a comment or the parser gives up.
* `AreInOrder`, `AreInOrderIn` — ranges of which each one ends before the next one begins, and scripts whose comments
  have such ranges.
* `located`, **`isLocated_located`** — the comments of a script stand at ranges that do not go back, and that lie
  one behind the other if those of the parser do.
* `pairwise_line_ofScript` — so the lines of comments do not decrease.
-/

namespace AnnotationCheck.Comment

variable [Php.Parser]

/-- A comment of a script takes up the bytes of a range. -/
inductive StandsAt (script : Text) (anchor : Nat) : Strategy → Range → Comment → Prop
  /-- The parser gives the range of the comment, which is on the line of its first byte. -/
  | part {program : Php.Program} {range : Range} {comment : Comment} : Php.parse? script = some program →
      range ∈ ranges program.trivia → IsAt script range comment → StandsAt script anchor .tokens range comment
  /-- The parser gives up, and the whole script is one comment. -/
  | givenUp : Php.parse? script = none → StandsAt script anchor .tokens ⟨0, Text.size script⟩ ⟨script, anchor⟩
  /-- The whole script is taken for one comment. -/
  | wholeFile : StandsAt script anchor .wholeFile ⟨0, Text.size script⟩ ⟨script, anchor⟩

/-- Each range ends before the next one begins. -/
def AreInOrder (ranges : List Range) : Prop := ranges.Pairwise fun range next => range.stop ≤ next.start

instance (ranges : List Range) : Decidable (AreInOrder ranges) :=
  inferInstanceAs (Decidable (ranges.Pairwise fun range next => range.stop ≤ next.start))

/-- The parser gives the comments of a script one behind the other, unless it gives the script up. -/
def AreInOrderIn (script : Text) : Prop :=
  ∀ program, Php.parse? script = some program → AreInOrder (ranges program.trivia)

variable {script : Text} {anchor : Nat} {strategy : Strategy}

theorem ofScript_of_parsed {program : Php.Program} (found : Php.parse? script = some program) :
    ofScript script .tokens anchor = ofRanges script (ranges program.trivia) := by
  rw [ofScript, ranges?, found]
  rfl

/-- Where the parser gives up, the whole file is all that is left to search. -/
theorem ofScript_of_givenUp (givenUp : Php.parse? script = none) :
    ofScript script .tokens anchor = [⟨script, anchor⟩] := by
  rw [ofScript, ranges?, givenUp]
  rfl

/-- A comment that begins behind another one stands on no earlier line. -/
theorem StandsAt.line_le {range other : Range} {comment next : Comment}
    (stands : StandsAt script anchor strategy range comment)
    (standsNext : StandsAt script anchor strategy other next) (inOrder : range.start ≤ other.start) :
    comment.line ≤ next.line := by
  cases stands with
  | part found _ isAt =>
    cases standsNext with
    | part _ _ isNext =>
      rw [isAt.line_eq, isNext.line_eq]
      exact Text.lineAt_mono script inOrder
    | givenUp none =>
      rw [found] at none
      cases none
  | givenUp none =>
    cases standsNext with
    | part found =>
      rw [none] at found
      cases found
    | givenUp => exact Nat.le_refl anchor
  | wholeFile =>
    cases standsNext
    exact Nat.le_refl anchor

/-- The comments of a script with the ranges at which they stand. -/
structure IsLocated (script : Text) (anchor : Nat) (strategy : Strategy) (located : List (Range × Comment)) : Prop where
  comments : located.map Prod.snd = ofScript script strategy anchor
  stand : ∀ entry ∈ located, StandsAt script anchor strategy entry.1 entry.2
  /-- The comments do not go back. -/
  starts : located.Pairwise fun entry next => entry.1.start ≤ next.1.start
  /-- They lie one behind the other, if those of the parser do. -/
  apart : AreInOrderIn script → located.Pairwise fun entry next => entry.1.stop ≤ next.1.start

/-- The comments of a script, each with the range at which it stands. -/
def located (script : Text) (strategy : Strategy) (anchor : Nat) : List (Range × Comment) :=
  match strategy, ranges? script with
  | .tokens, some ranges => (counted script ranges).zip (ofRanges script ranges)
  | .tokens, none | .wholeFile, _ => [(⟨0, Text.size script⟩, ⟨script, anchor⟩)]

theorem isLocated_whole (stands : StandsAt script anchor strategy ⟨0, Text.size script⟩ ⟨script, anchor⟩)
    (only : ofScript script strategy anchor = [⟨script, anchor⟩]) :
    IsLocated script anchor strategy [(⟨0, Text.size script⟩, ⟨script, anchor⟩)] where
  comments := only.symm
  stand := by simpa using stands
  starts := List.pairwise_singleton _ _
  apart _ := List.pairwise_singleton _ _

theorem isLocated_parts {program : Php.Program} (found : Php.parse? script = some program) :
    IsLocated script anchor .tokens
      ((counted script (ranges program.trivia)).zip (ofRanges script (ranges program.trivia))) := by
  obtain ⟨isKept, areAt⟩ := forall₂_counted script (ranges program.trivia)
  have length := areAt.length_eq
  have atRanges : ((counted script (ranges program.trivia)).zip (ofRanges script (ranges program.trivia))).map Prod.fst
      = counted script (ranges program.trivia) := List.map_fst_zip (Nat.le_of_eq length)
  have pairwise {related : Range → Range → Prop} (inOrder : (counted script (ranges program.trivia)).Pairwise related) :
      ((counted script (ranges program.trivia)).zip (ofRanges script (ranges program.trivia))).Pairwise
        fun entry next => related entry.1 next.1 :=
    List.pairwise_map.mp (atRanges.symm ▸ inOrder : (List.map Prod.fst _).Pairwise related)
  refine ⟨?_, fun entry there => ?_, pairwise isKept.pairwise.1,
    fun inOrder => pairwise ((inOrder program found).sublist isKept.sublist)⟩
  · rw [ofScript_of_parsed found, List.map_snd_zip (Nat.le_of_eq length.symm)]
  · refine .part found (isKept.sublist.subset (List.of_mem_zip there).1) ?_
    exact (List.forall₂_iff_zip.mp areAt).2 there

/-- **The comments of a script stand at ranges**, whatever the parser makes of it. -/
theorem isLocated_located (script : Text) (strategy : Strategy) (anchor : Nat) :
    IsLocated script anchor strategy (located script strategy anchor) := by
  cases strategy with
  | wholeFile => exact isLocated_whole .wholeFile rfl
  | tokens =>
    unfold located ranges?
    cases found : Php.parse? script with
    | none => exact isLocated_whole (.givenUp found) (ofScript_of_givenUp found)
    | some program => exact isLocated_parts found

/-- The lines of the comments of a script do not decrease. -/
theorem pairwise_line_ofScript (script : Text) (strategy : Strategy) (anchor : Nat) :
    (ofScript script strategy anchor).Pairwise fun comment next => comment.line ≤ next.line := by
  have isLocated := isLocated_located script strategy anchor
  rw [← isLocated.comments, List.pairwise_map]
  exact isLocated.starts.imp_of_mem fun there isNext inOrder =>
    (isLocated.stand _ there).line_le (isLocated.stand _ isNext) inOrder

end AnnotationCheck.Comment
