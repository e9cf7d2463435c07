import AnnotationCheck.Analysis.History
import AnnotationCheck.Proofs.Analysis.Offer

/-!
What the memos of a history hold, and which files are read for them.

* `World.fresh` — a world in which nothing counts as analyzed and nothing was read.
* `World.Records` — a step that makes a file count as analyzed for a memo: it marks the file, or it
  analyzes it while it is not excluded, whatever becomes of that analysis.
* `contains_step`, `readsOf_step` — what one step changes for a memo and a file.
* `contains_after`, `settled_after`, `readsOf_after_of_contains` — what a whole history comes to for them.
* **`memo_of_history`** — every file is read at most once for a memo, and never again once it was marked;
  the memo holds the files that a step has recorded, and no others; an analysis that has nothing to do
  leaves the world as it was.
-/

namespace AnnotationCheck

open History

/-- A file that is neither excluded nor analyzed is asked for its text and counts as analyzed, whether
or not it can be read and whatever the sink takes. -/
theorem Analysis.counts_of_due [Php.Parser] {host : Host} {analyzed : PathSet} {file : Path}
    (included : host.isExcluded file = false) (fresh : analyzed.contains file = false)
    (strategy : Strategy) (scope : Scope) (room : Option Nat) :
    (run host strategy (some file) scope room analyzed).asked = [file]
      ∧ (run host strategy (some file) scope room analyzed).analyzed = analyzed.insert file := by
  rw [run_of_due included fresh]
  cases host.read file with
  | error reason => exact ⟨rfl, rfl⟩
  | ok content => exact ⟨asked_ofText .., analyzed_ofText ..⟩

namespace World

/-- A world in which nothing counts as analyzed and nothing was read. -/
def fresh (files : List (Path × Text)) (excluded : PathSet) (symbols : Symbols) : World :=
  { files := files, excluded := excluded, symbols := symbols }

/-- How often a file was read for a memo. -/
def readsOf (world : World) (memo : Nat) (file : Path) : Nat :=
  world.reads.countP fun read => decide (read.1 = memo ∧ read.2.Same file)

/-- A file for which an analysis has nothing to do: that of a built-in class, and one that is excluded or
analyzed already. -/
def IsSkipped (world : World) (memo : Nat) : Option Path → Prop
  | none => True
  | some file => world.excluded.contains file = true ∨ (world.memos memo).contains file = true

/-- A step that makes a file count as analyzed for a memo. -/
inductive Records (world : World) (memo : Nat) (file : Path) : Checker × Action → Prop
  | mark {checker : Checker} {marked : Path} : checker.memo = memo → marked.Same file →
      Records world memo file (checker, .mark marked)
  | analyze {checker : Checker} {declaring : Path} {scope : Scope} {room : Option Nat} :
      checker.memo = memo → declaring.Same file → world.excluded.contains declaring = false →
      Records world memo file (checker, .analyze (some declaring) scope room)

variable {world : World}

theorem setMemo_self (world : World) (memo : Nat) : world.setMemo memo (world.memos memo) = world := by
  have unchanged : (fun other => if other = memo then world.memos memo else world.memos other)
      = world.memos := by
    funext other
    split
    · next same => rw [same]
    · rfl
  rw [setMemo, unchanged]

theorem contains_memos_setMemo_insert (world : World) (own memo : Nat) (added file : Path) :
    ((world.setMemo own ((world.memos own).insert added)).memos memo).contains file
      = (decide (own = memo ∧ added.Same file) || (world.memos memo).contains file) := by
  by_cases same : memo = own
  · subst same
    simp [setMemo, PathSet.contains_insert]
  · simp [setMemo, same, Ne.symm same]

/-- An analysis has nothing to do, or its file is due. -/
theorem isSkipped_or_due (world : World) (memo : Nat) (file : Option Path) :
    world.IsSkipped memo file ∨ ∃ path, file = some path ∧ world.excluded.contains path = false
      ∧ (world.memos memo).contains path = false := by
  cases file with
  | none => exact .inl trivial
  | some path =>
    by_cases skipped : world.IsSkipped memo (some path)
    · exact .inl skipped
    · refine .inr ⟨path, rfl, ?_⟩
      simpa [IsSkipped] using skipped

variable [Php.Parser]

/-! ### One step -/

/-- An analysis that has nothing to do finds nothing and leaves the world as it was. -/
theorem step_of_isSkipped {checker : Checker} {file : Option Path}
    (skipped : world.IsSkipped checker.memo file) (scope : Scope) (room : Option Nat) :
    step world checker (.analyze file scope room)
      = (.analysis { scope := scope, analyzed := world.memos checker.memo } world.reads.length
          (world.memos checker.memo).size, world) := by
  have nothing : Analysis.run world.host checker.strategy file scope room (world.memos checker.memo)
      = { scope := scope, analyzed := world.memos checker.memo } := by
    cases file with
    | none => rfl
    | some path =>
      have skips : world.host.isExcluded path = true
          ∨ (world.memos checker.memo).contains path = true := skipped
      exact Analysis.run_of_skipped skips room
  simp only [step, nothing, List.map_nil, List.append_nil, setMemo_self]

/-- An analysis of a file that is due reads it once, for the memo in which it then stands. -/
theorem step_of_due {checker : Checker} {file : Path} (included : world.excluded.contains file = false)
    (fresh : (world.memos checker.memo).contains file = false) (scope : Scope) (room : Option Nat) :
    (step world checker (.analyze (some file) scope room)).2
      = { world.setMemo checker.memo ((world.memos checker.memo).insert file) with
          reads := world.reads ++ [(checker.memo, file)] } := by
  have includes : world.host.isExcluded file = false := included
  obtain ⟨asked, grown⟩ := Analysis.counts_of_due includes fresh checker.strategy scope room
  simp only [step, asked, grown, List.map_cons, List.map_nil]

/-- **After a step, a memo holds a file** that it held before or that the step records. -/
theorem contains_step (world : World) (checker : Checker) (action : Action) (memo : Nat) (file : Path) :
    ((step world checker action).2.memos memo).contains file = true
      ↔ (world.memos memo).contains file = true ∨ world.Records memo file (checker, action) := by
  -- only marks and analyses touch the memos
  cases action with
  | mark marked =>
    have left : ((step world checker (.mark marked)).2.memos memo).contains file
        = (decide (checker.memo = memo ∧ marked.Same file) || (world.memos memo).contains file) :=
      contains_memos_setMemo_insert world checker.memo memo marked file
    rw [left, Bool.or_eq_true, decide_eq_true_eq, or_comm]
    refine or_congr_right ⟨fun ⟨own, same⟩ => .mark own same, fun records => ?_⟩
    cases records with
    | mark own same => exact ⟨own, same⟩
  | analyze declaring scope room =>
    rcases isSkipped_or_due world checker.memo declaring with skipped | ⟨path, rfl, included, fresh⟩
    · rw [step_of_isSkipped skipped]
      refine ⟨.inl, fun held => held.elim id fun records => ?_⟩
      cases records with
      | analyze own same included =>
        -- the file was not excluded, so the analysis was skipped because of the memo
        have there := skipped.resolve_left (by simp [included])
        rwa [own, PathSet.contains_congr _ same] at there
    · rw [step_of_due included fresh]
      have left := contains_memos_setMemo_insert world checker.memo memo path file
      rw [left, Bool.or_eq_true, decide_eq_true_eq, or_comm]
      refine or_congr_right ⟨fun ⟨own, same⟩ => .analyze own same included, fun records => ?_⟩
      cases records with
      | analyze own same _ => exact ⟨own, same⟩
  | _ => exact ⟨.inl, fun held => held.elim id fun records => nomatch records⟩

/-- **A step reads a file for a memo** only while the memo does not hold it, and from then on it does. -/
theorem readsOf_step (world : World) (checker : Checker) (action : Action) (memo : Nat) (file : Path) :
    (step world checker action).2.readsOf memo file = world.readsOf memo file
      ∨ (step world checker action).2.readsOf memo file = world.readsOf memo file + 1
        ∧ (world.memos memo).contains file = false
        ∧ ((step world checker action).2.memos memo).contains file = true := by
  cases action with
  | analyze declaring scope room =>
    rcases isSkipped_or_due world checker.memo declaring with skipped | ⟨path, rfl, included, fresh⟩
    · rw [step_of_isSkipped skipped]
      exact .inl rfl
    · by_cases asked : checker.memo = memo ∧ path.Same file
      · obtain ⟨own, same⟩ := asked
        have there := (contains_step world checker (.analyze (some path) scope room) memo file).mpr
          (.inr (.analyze own same included))
        refine .inr ⟨?_, ?_, there⟩
        · rw [step_of_due included fresh]
          simp [readsOf, own, same]
        · rw [← own, ← PathSet.contains_congr _ same, fresh]
      · left
        rw [step_of_due included fresh]
        simp [readsOf, asked]
  | _ => exact .inl rfl

/-! ### Histories -/

/-- The world after a history. -/
def after (world : World) (history : List (Checker × Action)) : World := (run world history).2

@[simp] theorem after_nil (world : World) : world.after [] = world := rfl

@[simp] theorem after_cons (world : World) (checker : Checker) (action : Action)
    (rest : List (Checker × Action)) :
    world.after ((checker, action) :: rest) = (step world checker action).2.after rest := rfl

theorem after_append (world : World) (before rest : List (Checker × Action)) :
    world.after (before ++ rest) = (world.after before).after rest := by
  induction before generalizing world with
  | nil => rfl
  | cons first before ih =>
    rw [List.cons_append, after_cons, after_cons, ih]

/-- After a history, a memo holds a file that it held before or that some step of the history records. -/
theorem contains_after (world : World) (history : List (Checker × Action)) (memo : Nat) (file : Path) :
    ((world.after history).memos memo).contains file = true
      ↔ (world.memos memo).contains file = true
        ∨ ∃ before step rest, history = before ++ step :: rest
            ∧ (world.after before).Records memo file step := by
  induction history generalizing world with
  | nil => simp
  | cons first history ih =>
    obtain ⟨checker, action⟩ := first
    rw [after_cons, ih, contains_step, or_assoc]
    refine or_congr_right ⟨?_, ?_⟩
    · rintro (records | ⟨before, step, rest, rfl, records⟩)
      · exact ⟨[], (checker, action), history, rfl, records⟩
      · exact ⟨(checker, action) :: before, step, rest, rfl, records⟩
    · rintro ⟨before, step, rest, split, records⟩
      cases before with
      | nil =>
        obtain ⟨rfl, -⟩ := List.cons.inj split
        exact .inl records
      | cons _ before =>
        obtain ⟨rfl, rfl⟩ := List.cons.inj split
        exact .inr ⟨before, step, rest, rfl, records⟩

/-- A file is read at most once for a memo, and only if the memo holds it: the invariant of a history. -/
def Settled (world : World) (memo : Nat) (file : Path) : Prop :=
  world.readsOf memo file ≤ ((world.memos memo).contains file).toNat

theorem settled_step {memo : Nat} {file : Path} (settled : world.Settled memo file) (checker : Checker)
    (action : Action) : (step world checker action).2.Settled memo file := by
  rcases readsOf_step world checker action memo file with same | ⟨grown, fresh, there⟩
  · have kept : ((world.memos memo).contains file).toNat
        ≤ (((step world checker action).2.memos memo).contains file).toNat := by
      cases held : (world.memos memo).contains file with
      | false => exact Nat.zero_le _
      | true => exact Nat.le_of_eq (congrArg Bool.toNat
          ((contains_step world checker action memo file).mpr (.inl held)).symm)
    calc (step world checker action).2.readsOf memo file
        = world.readsOf memo file := same
      _ ≤ ((world.memos memo).contains file).toNat := settled
      _ ≤ (((step world checker action).2.memos memo).contains file).toNat := kept
  · rw [Settled, fresh] at settled
    rw [Settled, grown, there]
    exact Nat.succ_le_succ settled

theorem settled_after {memo : Nat} {file : Path} (settled : world.Settled memo file)
    (history : List (Checker × Action)) : (world.after history).Settled memo file := by
  induction history generalizing world with
  | nil => exact settled
  | cons first history ih => exact ih (settled_step settled first.1 first.2)

/-- A file that a memo holds is not read again for it. -/
theorem readsOf_after_of_contains (world : World) (history : List (Checker × Action)) {memo : Nat}
    {file : Path} (held : (world.memos memo).contains file = true) :
    (world.after history).readsOf memo file = world.readsOf memo file := by
  induction history generalizing world with
  | nil => rfl
  | cons first history ih =>
    obtain ⟨checker, action⟩ := first
    rw [after_cons, ih _ ((contains_step world checker action memo file).mpr (.inl held))]
    rcases readsOf_step world checker action memo file with same | ⟨-, fresh, -⟩
    · exact same
    · rw [held] at fresh
      cases fresh

/-- **The memos of a history**, which begins where nothing counts as analyzed and nothing was read.
A file is read at most once for a memo, and not again once it was marked; the memo holds the files that a
step of the history records; an analysis that has nothing to do finds nothing, reads nothing and leaves
everything as it was. -/
theorem memo_of_history (files : List (Path × Text)) (excluded : PathSet) (symbols : Symbols)
    (history : List (Checker × Action)) (memo : Nat) (file : Path) :
    let start := World.fresh files excluded symbols
    let last := start.after history
    last.readsOf memo file ≤ 1
      ∧ (∀ before checker marked rest, history = before ++ (checker, .mark marked) :: rest →
          checker.memo = memo → marked.Same file →
            last.readsOf memo file = (start.after before).readsOf memo file)
      ∧ ((last.memos memo).contains file = true
          ↔ ∃ before step rest, history = before ++ step :: rest
              ∧ (start.after before).Records memo file step)
      ∧ ∀ checker declaring scope room, last.IsSkipped checker.memo declaring →
          step last checker (.analyze declaring scope room)
            = (.analysis { scope := scope, analyzed := last.memos checker.memo } last.reads.length
                (last.memos checker.memo).size, last) := by
  intro start last
  have settled : start.Settled memo file := Nat.zero_le _
  refine ⟨?once, ?marked, ?held, fun checker declaring scope room skipped => ?skipped⟩
  case once => exact Nat.le_trans (settled_after settled history) (Bool.toNat_le _)
  case marked =>
    rintro before checker marked rest split own same
    have ends : last = (step (start.after before) checker (.mark marked)).2.after rest := by
      rw [← after_cons, ← after_append, ← split]
    have recorded : ((step (start.after before) checker (.mark marked)).2.memos memo).contains file
        = true := (contains_step _ checker _ memo file).mpr (.inr (.mark own same))
    rw [ends, readsOf_after_of_contains _ rest recorded]
    rfl
  case held =>
    rw [contains_after]
    exact or_iff_right Bool.false_ne_true
  case skipped => exact step_of_isSkipped skipped scope room

end World

end AnnotationCheck
