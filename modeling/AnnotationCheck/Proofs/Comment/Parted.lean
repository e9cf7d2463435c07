import AnnotationCheck.Proofs.Comment.Located
import AnnotationCheck.Proofs.VarTag.Parts

/-!
Comments behind which no word runs on.

* `Range.IsParted` — a part of a text ends with the text, before a character that belongs to no word, or with the
  mark that closes a comment.
* `AreParted` — such parts, of which each one ends before the next one begins.
* **`AreParted.sublist`** — the annotations of such parts are among those of the text, in their order.
-/

namespace AnnotationCheck

/-- The mark that closes a comment. -/
def Comment.closing : Text := "*/".toList

/-- A range begins and ends between two characters of a text, and no word runs on behind it: the text ends there,
the next character belongs to no word, or the part ends with the mark that closes a comment. -/
def Range.IsParted (range : Range) (text : Text) : Prop :=
  ∃ before part rest, text = before ++ (part ++ rest) ∧ Text.size before = range.start
    ∧ Text.size before + Text.size part = range.stop
    ∧ (rest = [] ∨ (∃ c more, rest = c :: more ∧ Text.isWord c = false) ∨ Comment.closing <:+ part)

theorem Range.IsParted.denotes {text : Text} {range : Range} (parted : range.IsParted text) :
    ∃ part, range.Denotes text part := by
  obtain ⟨before, part, rest, whole, starts, ends, -⟩ := parted
  exact ⟨part, before, rest, whole, starts, ends⟩

namespace Comment

/-- Parts of a text that lie one behind the other, with no word running on behind any of them. -/
structure AreParted (text : Text) (ranges : List Range) : Prop where
  inOrder : AreInOrder ranges
  parted : ∀ range ∈ ranges, range.IsParted text

/-- No annotation runs on behind the end of a comment. -/
theorem parted_of_end {part rest : Text}
    (ends : rest = [] ∨ (∃ c more, rest = c :: more ∧ Text.isWord c = false) ∨ closing <:+ part) :
    VarTag.Parted part rest := by
  intro endsInWord
  rcases ends with rfl | ⟨c, more, rfl, foreign⟩ | ⟨front, rfl⟩
  · rfl
  · simpa [Text.Stops] using foreign
  · rw [List.getLast?_append_of_ne_nil _ (by decide)] at endsInWord
    exact absurd endsInWord (by decide)

/-- **The annotations of such parts are among those of the text**, in their order: behind what was `seen`, those of
the parts that remain are among those of what remains of the text. -/
theorem AreParted.sublistFrom {text : Text} (line : Nat) {ranges : List Range} {comments : List Comment}
    (parted : AreParted text ranges) (areAt : List.Forall₂ (IsAt text) ranges comments) {seen remaining : Text}
    (whole : text = seen ++ remaining) (ahead : ∀ range ∈ ranges, Text.size seen ≤ range.start) :
    (comments.flatMap fun comment => VarTag.ofText line comment.text).Sublist (VarTag.ofText line remaining) := by
  induction areAt generalizing seen remaining with
  | nil => exact List.nil_sublist _
  | @cons range comment ranges comments isAt _ ih =>
    obtain ⟨inOrder, each⟩ := parted
    obtain ⟨apart, inOrder⟩ := List.pairwise_cons.mp inOrder
    obtain ⟨before, part, rest, cut, starts, ends, end?⟩ := each range List.mem_cons_self
    have same : comment.text = part := by
      have there : Text.slice? text range.start range.stop = some part :=
        Range.denotes_iff.mp ⟨before, rest, cut, starts, ends⟩
      exact Option.some.inj ((Range.denotes_iff.mp isAt.denotes).symm.trans there)
    have here : Text.size seen ≤ Text.size before := starts ▸ ahead range List.mem_cons_self
    obtain ⟨between, rfl, rfl⟩ := Text.exists_between (whole.symm.trans cut) here
    have cutBehind : text = (seen ++ between ++ part) ++ rest := by
      rw [cut]
      simp
    have later := ih ⟨inOrder, fun next there => each next (List.mem_cons_of_mem range there)⟩ cutBehind
      fun next there => by
        rw [Text.size_append, ends]
        exact apart next there
    rw [List.flatMap_cons, same]
    exact ((later.append_left _).trans (VarTag.ofText_append_sublist line (parted_of_end end?))).trans
      (VarTag.ofText_sublist_append line between (part ++ rest))

theorem AreParted.sublist {text : Text} (line : Nat) {ranges : List Range} (parted : AreParted text ranges) :
    ((ofRanges text ranges).flatMap fun comment => VarTag.ofText line comment.text).Sublist
      (VarTag.ofText line text) := by
  have denote : ∀ range ∈ ranges, ∃ part, range.Denotes text part :=
    fun range there => (parted.parted range there).denotes
  have sorted : ranges.Pairwise fun range next => range.start ≤ next.start := by
    refine parted.inOrder.imp_of_mem fun {range next} there _ apart => ?_
    obtain ⟨before, part, rest, -, starts, ends, -⟩ := parted.parted range there
    omega
  exact parted.sublistFrom line (forall₂_ofRanges denote sorted) (List.nil_append text).symm
    fun _ _ => Nat.zero_le _

end Comment

end AnnotationCheck
