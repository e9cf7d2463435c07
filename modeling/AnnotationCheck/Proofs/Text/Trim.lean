import AnnotationCheck.Text.Basic
import Mathlib.Data.List.DropRight

/-!
Trimming a text.

* `trimEnd_append` — what is trimmed off the end of two parts together.
* `dropWhile_trimEnd` — a text is trimmed at its end before or after characters are dropped at its beginning.
* **`trim_of_enclosed`** — trimming leaves just what is enclosed, if it neither begins nor ends in the class.
-/

namespace AnnotationCheck.Text

variable {inClass : Char → Bool}

theorem trimEnd_eq_rdropWhile (text : Text) : trimEnd inClass text = text.rdropWhile inClass := rfl

/-- What is trimmed off the end is of the class alone. -/
theorem exists_append_trimEnd (inClass : Char → Bool) (text : Text) :
    ∃ ending, text = trimEnd inClass text ++ ending ∧ ∀ c ∈ ending, inClass c = true :=
  ⟨text.rtakeWhile inClass, List.rdropWhile_append_rtakeWhile.symm, fun _ there => List.mem_rtakeWhile_imp there⟩

theorem trim_sublist (inClass : Char → Bool) (text : Text) : (trim inClass text).Sublist text :=
  (List.rdropWhile_prefix inClass (text.dropWhile inClass)).sublist.trans (List.dropWhile_sublist inClass)

theorem trimEnd_eq_nil {text : Text} (all : ∀ c ∈ text, inClass c = true) : trimEnd inClass text = [] :=
  List.rdropWhile_eq_nil_iff.mpr all

theorem trimEnd_eq_self {text : Text} (none : ∀ c ∈ text, inClass c = false) : trimEnd inClass text = text := by
  refine List.rdropWhile_eq_self_iff.mpr fun some => ?_
  rw [none _ (List.getLast_mem some)]
  exact Bool.false_ne_true

theorem trimEnd_append (front rest : Text) :
    trimEnd inClass (front ++ rest)
      = if trimEnd inClass rest = [] then trimEnd inClass front else front ++ trimEnd inClass rest := by
  unfold trimEnd
  rw [List.reverse_append, List.dropWhile_append]
  cases kept : rest.reverse.dropWhile inClass <;> simp

theorem trimEnd_cons (c : Char) (rest : Text) :
    trimEnd inClass (c :: rest)
      = if trimEnd inClass rest = [] then (if inClass c = true then [] else [c])
        else c :: trimEnd inClass rest := by
  rw [← List.singleton_append, trimEnd_append, trimEnd_eq_rdropWhile [c], List.rdropWhile_singleton]
  rfl

/-- Behind a text that does not end in the class, only what follows is trimmed. -/
theorem trimEnd_append_of_trimmed {front : Text} (trimmed : trimEnd inClass front = front) (rest : Text) :
    trimEnd inClass (front ++ rest) = front ++ trimEnd inClass rest := by
  rw [trimEnd_append]
  split
  · rename_i none
    rw [none, trimmed, List.append_nil]
  · rfl

/-- A text is trimmed at its end before or after characters are dropped at its beginning. -/
theorem dropWhile_trimEnd (dropped : Char → Bool) (text : Text) :
    (trimEnd inClass text).dropWhile dropped = trimEnd inClass (text.dropWhile dropped) := by
  induction text with
  | nil => rfl
  | cons c rest ih =>
    rw [List.dropWhile_cons]
    by_cases drops : dropped c = true
    · rw [if_pos drops, ← ih, trimEnd_cons]
      split
      · rename_i none
        rw [none]
        split <;> simp [drops]
      · rw [List.dropWhile_cons_of_pos drops]
    · rw [if_neg drops, trimEnd_cons]
      split
      · split <;> simp [drops]
      · rw [List.dropWhile_cons_of_neg drops]

/-- **Trimming leaves what is enclosed** in characters of the class, if it begins and ends otherwise. -/
theorem trim_of_enclosed {lead core trail : Text} (isLead : ∀ c ∈ lead, inClass c = true)
    (isTrail : ∀ c ∈ trail, inClass c = true) (begins : (core ++ trail).dropWhile inClass = core ++ trail)
    (trimmed : trimEnd inClass core = core) : trim inClass (lead ++ (core ++ trail)) = core := by
  rw [trim, List.dropWhile_append_of_pos isLead, begins, trimEnd_append_of_trimmed trimmed, trimEnd_eq_nil isTrail,
    List.append_nil]

end AnnotationCheck.Text
