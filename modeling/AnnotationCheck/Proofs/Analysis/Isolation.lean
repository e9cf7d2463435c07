import AnnotationCheck.Proofs.Analysis.Memo

/-!
Checkers that share a memo, and checkers that do not.

* `World.Alike` — two worlds that differ in other memos than the given one, and in what was read for these.
* `Alike.step_of_own`, `Alike.step_of_idle`, `Alike.step_of_other` — a step by a checker on the memo answers
  alike in both; one that fills no memo keeps them alike; one that fills another memo can be left out of one.
* `History.answersOn` — the answers to the steps by the checkers on a memo.
* `History.merged`, `History.alone` — the checkers where those on a memo are one for each way to find comments,
  and the history of these alone.
* **`answersOn_alone`** — to the checkers on a memo it makes no difference what is done on the other memos,
  nor how many of them there are.
-/

namespace AnnotationCheck

open History

/-! ### Worlds that look alike to the checkers on a memo -/

/-- Two worlds that look alike to the checkers on a memo. -/
structure World.Alike (memo : Nat) (left right : World) : Prop where
  files : left.files = right.files
  excluded : left.excluded = right.excluded
  symbols : left.symbols = right.symbols
  memos : left.memos memo = right.memos memo
  /-- The same files were read for the memo, in the same order. -/
  reads : (left.reads.filter fun read => decide (read.1 = memo))
    = right.reads.filter fun read => decide (read.1 = memo)

namespace History

/-- Whether an action can put a file into a memo. -/
def Action.fillsMemo : Action → Bool
  | .analyze .. | .mark _ => true
  | _ => false

/-- Whether an action is about a memo, and not about the code base alone. -/
def Action.usesMemo : Action → Bool
  | .contains _ | .size => true
  | action => action.fillsMemo

/-- An answer without the number of reads, which counts those for all memos. -/
def Answer.ownPart : Answer → Answer
  | .analysis outcome _ memoSize => .analysis outcome 0 memoSize
  | answer => answer

end History

namespace World

theorem Alike.refl (memo : Nat) (world : World) : world.Alike memo world := ⟨rfl, rfl, rfl, rfl, rfl⟩

/-! ### One step -/

section Step

variable {memo : Nat} {left right : World} (alike : left.Alike memo right)
include alike

theorem Alike.host : left.host = right.host := by
  obtain ⟨files, excluded, symbols, -, -⟩ := alike
  unfold World.host World.read World.find?
  rw [files, excluded, symbols]

variable [Php.Parser]

/-- A step on the code base alone answers the same in both worlds, and it keeps them alike. -/
theorem Alike.step_of_codeBase {action : Action} (onCodeBase : action.usesMemo = false) (checker : Checker) :
    (step left checker action).1 = (step right checker action).1
      ∧ (step left checker action).2.Alike memo (step right checker action).2 := by
  obtain ⟨files, excluded, symbols, leftMemos, leftReads⟩ := left
  obtain ⟨sameFiles, sameExcluded, sameSymbols, rightMemos, rightReads⟩ := right
  obtain ⟨rfl, rfl, rfl, memos, reads⟩ := alike
  cases action with
  | analyze | mark | contains | size => cases onCodeBase
  | _ => exact ⟨rfl, rfl, rfl, rfl, memos, reads⟩

/-- **A step by a checker on the memo** answers alike in worlds that look alike to it, and so they stay. -/
theorem Alike.step_of_own {checker : Checker} (own : checker.memo = memo) (action : Action) :
    (step left checker action).1.ownPart = (step right checker action).1.ownPart
      ∧ (step left checker action).2.Alike memo (step right checker action).2 := by
  subst own
  cases action with
  | analyze file scope room =>
    have same : Analysis.run left.host checker.strategy file scope room (left.memos checker.memo)
        = Analysis.run right.host checker.strategy file scope room (right.memos checker.memo) := by
      rw [alike.host, alike.memos]
    simp only [step, same, Answer.ownPart, true_and]
    -- the same file is asked for in both, whatever was read before
    refine ⟨alike.files, alike.excluded, alike.symbols, by simp [setMemo], ?_⟩
    rw [List.filter_append, List.filter_append, alike.reads]
  | mark file =>
    simp only [step, alike.memos, true_and]
    exact ⟨alike.files, alike.excluded, alike.symbols, by simp [setMemo], alike.reads⟩
  | contains | size => exact ⟨by simp only [step, alike.memos], alike⟩
  | _ => exact (alike.step_of_codeBase rfl checker).imp_left (congrArg Answer.ownPart)

/-- A step that fills no memo keeps worlds alike, whichever checker takes it. -/
theorem Alike.step_of_idle {action : Action} (idle : action.fillsMemo = false) (checker : Checker) :
    (step left checker action).2.Alike memo (step right checker action).2 := by
  cases action with
  | analyze | mark => cases idle
  | contains | size => exact alike
  | _ => exact (alike.step_of_codeBase rfl checker).2

/-- A step that fills another memo can be left out of one of the worlds. -/
theorem Alike.step_of_other {checker : Checker} (other : checker.memo ≠ memo) {action : Action}
    (fills : action.fillsMemo = true) : (step left checker action).2.Alike memo right := by
  cases action with
  | analyze file scope room =>
    refine ⟨alike.files, alike.excluded, alike.symbols, ?_, ?_⟩
    · simp [step, setMemo, other.symm, alike.memos]
    · have elsewhere : ∀ asked : List Path,
          ((asked.map fun path => (checker.memo, path)).filter fun read => decide (read.1 = memo)) = [] := by
        intro asked
        simp [other]
      simp only [step, List.filter_append, elsewhere, List.append_nil, alike.reads]
  | mark file =>
    exact ⟨alike.files, alike.excluded, alike.symbols, by simp [step, setMemo, other.symm, alike.memos],
      alike.reads⟩
  | _ => cases fills

end Step

end World

namespace History

/-! ### Histories -/

variable {κ : Type}

/-- The history that checkers of given names make. -/
def ofNamed (checkers : κ → Checker) (history : List (κ × Action)) : List (Checker × Action) :=
  history.map fun step => (checkers step.1, step.2)

theorem ofNamed_cons (checkers : κ → Checker) (name : κ) (action : Action) (rest : List (κ × Action)) :
    ofNamed checkers ((name, action) :: rest) = (checkers name, action) :: ofNamed checkers rest := rfl

variable (checkers : κ → Checker) (memo : Nat)

/-- The checkers where there is one on a memo for each way to find comments; the others are as they were. -/
def merged : Strategy ⊕ κ → Checker := Sum.elim (fun strategy => ⟨strategy, memo⟩) checkers

/-- A step of the checkers on a memo alone, which the one of its strategy takes for them; a step that fills
another memo is left out. -/
def alone? (step : κ × Action) : Option ((Strategy ⊕ κ) × Action) :=
  if (checkers step.1).memo = memo then some (.inl (checkers step.1).strategy, step.2)
  else if step.2.fillsMemo then none
  else some (.inr step.1, step.2)

/-- The history of the checkers on a memo alone. -/
def alone (history : List (κ × Action)) : List ((Strategy ⊕ κ) × Action) :=
  history.filterMap (alone? checkers memo)

section Answers

variable [Php.Parser]

/-- The answers to the steps of a history by the checkers on a memo. -/
def answersOn (memo : Nat) (world : World) (history : List (Checker × Action)) : List Answer :=
  ((history.zip (run world history).1).filter fun entry => decide (entry.1.1.memo = memo)).map fun entry =>
    entry.2.ownPart

theorem answersOn_cons (memo : Nat) (world : World) (checker : Checker) (action : Action)
    (rest : List (Checker × Action)) :
    answersOn memo world ((checker, action) :: rest)
      = (if checker.memo = memo then [(step world checker action).1.ownPart] else [])
          ++ answersOn memo (step world checker action).2 rest := by
  unfold answersOn
  rw [run, List.zip_cons_cons, List.filter_cons]
  by_cases own : checker.memo = memo <;> simp [own]

variable {checkers memo}

/-- **From worlds that look alike**, the whole history and that of the checkers on the memo alone give these the
same answers, and lead to worlds that look alike. -/
theorem answersOn_of_alike {left right : World} (alike : left.Alike memo right) (history : List (κ × Action)) :
    let whole := ofNamed checkers history
    let own := ofNamed (merged checkers memo) (alone checkers memo history)
    answersOn memo left whole = answersOn memo right own
      ∧ (left.after whole).Alike memo (right.after own) := by
  -- a step is taken in both histories or, where it fills another memo, in the whole one alone; the worlds
  -- behind it look alike in either case, which is all that the rest of the histories needs
  induction history generalizing left right with
  | nil => exact ⟨rfl, alike⟩
  | cons first history ih =>
    obtain ⟨name, action⟩ := first
    by_cases own : (checkers name).memo = memo
    · have taken : alone checkers memo ((name, action) :: history)
          = (.inl (checkers name).strategy, action) :: alone checkers memo history :=
        List.filterMap_cons_some (if_pos own)
      have same : merged checkers memo (.inl (checkers name).strategy) = checkers name := by rw [← own]; rfl
      obtain ⟨answer, alike⟩ := alike.step_of_own own action
      obtain ⟨answers, last⟩ := ih alike
      rw [taken]
      simp only [ofNamed_cons, answersOn_cons, World.after_cons, same, own, if_true, answer, answers,
        true_and]
      exact last
    · cases fills : action.fillsMemo with
      | true =>
        have dropped : alone checkers memo ((name, action) :: history) = alone checkers memo history :=
          List.filterMap_cons_none (by simp [alone?, own, fills])
        obtain ⟨answers, last⟩ := ih (alike.step_of_other own fills)
        rw [dropped]
        simp only [ofNamed_cons, answersOn_cons, World.after_cons, own, if_false, List.nil_append, answers,
          true_and]
        exact last
      | false =>
        have taken : alone checkers memo ((name, action) :: history)
            = (.inr name, action) :: alone checkers memo history :=
          List.filterMap_cons_some (by simp [alone?, own, fills])
        have same : merged checkers memo (.inr name) = checkers name := rfl
        obtain ⟨answers, last⟩ := ih (alike.step_of_idle fills (checkers name))
        rw [taken]
        simp only [ofNamed_cons, answersOn_cons, World.after_cons, same, own, if_false, List.nil_append, answers,
          true_and]
        exact last

/-- **Checkers on one memo act as one, and those on other memos do not matter to them**: the answers that they
get, but for the number of all reads, are those that they get where nothing is analyzed or marked on another
memo, and where all those that find comments in the same way are a single one. The memo and the code base end
up the same, too, and the same files were read for the memo. -/
theorem answersOn_alone (world : World) (checkers : κ → Checker) (memo : Nat) (history : List (κ × Action)) :
    let whole := ofNamed checkers history
    let own := ofNamed (merged checkers memo) (alone checkers memo history)
    answersOn memo world whole = answersOn memo world own ∧ (world.after whole).Alike memo (world.after own) :=
  answersOn_of_alike (.refl memo world) history

end Answers

end History

end AnnotationCheck
