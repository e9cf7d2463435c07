import AnnotationCheck.Analysis.History
import AnnotationCheck.Proofs.Analysis.Offer
import Mathlib.Tactic.SplitIfs

/-!
Analyses with a sink that breaks.

* `Sink.foldlM_give_of_room` — a sink takes the issues that it has room for, and breaks if there are more.
* `Analysis.ofText_of_room`, `Analysis.run_of_room` — what an analysis leaves differs in the issues that were
  taken and in the error, and in nothing else.
* **`Analysis.run_of_breaking_sink`** — a sink that breaks was given the first issues that another one is
  given, and everything that happens later happens as if it had not broken.
-/

namespace AnnotationCheck

/-- A sink takes the issues that it has room for, in order, and breaks if there are more of them. -/
theorem Sink.foldlM_give_of_room (taken : List Issue) (room : Nat) (issues : List Issue) :
    issues.foldlM give { taken := taken, room := some room }
      = if room < issues.length then .error { taken := taken ++ issues.take room, room := some 0 }
        else .ok { taken := taken ++ issues.take room, room := some (room - issues.length) } := by
  induction issues generalizing taken room with
  | nil => simp [pure, Except.pure]
  | cons issue rest ih =>
    cases room with
    | zero =>
      rw [if_pos (by simp), List.take_zero, List.append_nil]
      rfl
    | succ room =>
      have taken : Sink.give { taken := taken, room := some (room + 1) } issue
          = .ok { taken := taken ++ [issue], room := some room } := rfl
      rw [List.foldlM_cons, taken]
      refine (ih _ _).trans ?_
      simp only [List.length_cons, Nat.succ_lt_succ_iff, List.take_succ_cons, List.append_assoc,
        List.singleton_append, Nat.add_sub_add_right]

namespace Analysis

/-- What an analysis comes to for a sink with room for so many issues. -/
def limit (room : Nat) (whole : Analysis) : Analysis :=
  { whole with
    issues := whole.issues.take room
    error := if room < whole.issues.length then some .brokenSink else whole.error }

variable [Php.Parser] (host : Host) (strategy : Strategy) (scope : Scope) (analyzed : PathSet) (room : Nat)

theorem ofText_of_room (asked : List Path) (content : Text) :
    ofText host strategy scope (some room) analyzed asked content
      = (ofText host strategy scope none analyzed asked content).limit room := by
  rw [ofText_unlimited, ofText_eq, Sink.foldlM_give_of_room, limit]
  split_ifs <;> rfl

/-- A sink with little room makes a difference to the issues and to the error alone: whether a file counts
as analyzed, and whether it is read, is settled before the first issue is found. -/
theorem run_of_room (file : Option Path) :
    run host strategy file scope (some room) analyzed
      = (run host strategy file scope none analyzed).limit room := by
  cases course host analyzed file with
  | builtIn => simp [run, limit]
  | skipped skips =>
    rw [run_of_skipped skips, run_of_skipped skips]
    simp [limit]
  | unreadable included fresh failed =>
    rw [run_of_unreadable included fresh failed, run_of_unreadable included fresh failed]
    simp [limit]
  | @readable path content included fresh read =>
    rw [run_of_readable included fresh read, run_of_readable included fresh read]
    exact ofText_of_room host strategy scope (analyzed.insert path) room [path] content

/-- An unlimited sink does not break, and the scope is handed back as it was. -/
theorem run_of_unlimited (file : Option Path) :
    (run host strategy file scope none analyzed).error ≠ some .brokenSink
      ∧ (run host strategy file scope none analyzed).scope = scope := by
  cases course host analyzed file with
  | builtIn => exact ⟨nofun, rfl⟩
  | skipped skips =>
    rw [run_of_skipped skips]
    exact ⟨nofun, rfl⟩
  | unreadable included fresh failed =>
    rw [run_of_unreadable included fresh failed]
    exact ⟨nofun, rfl⟩
  | readable included fresh read =>
    rw [run_of_readable included fresh read, ofText_unlimited]
    exact ⟨nofun, rfl⟩

/-- **A sink that breaks was given the first issues, and does no damage.** With room for `room` issues it
takes as many of those that an unlimited sink is given, and the analysis breaks off exactly if there are
more; the memo, the file that was read and the scope are the same. A world in which it broke is the one in
which it did not, so every later step answers the same in both. -/
theorem run_of_breaking_sink (file : Option Path) :
    let whole := run host strategy file scope none analyzed
    let cut := run host strategy file scope (some room) analyzed
    (cut.issues = whole.issues.take room
        ∧ (cut.error = some .brokenSink ↔ room < whole.issues.length)
        ∧ (whole.issues.length ≤ room → cut = whole))
      ∧ (cut.analyzed = whole.analyzed ∧ cut.asked = whole.asked
        ∧ cut.scope = whole.scope ∧ whole.scope = scope)
      ∧ ∀ (world : World) (checker : Checker) (later : List (Checker × History.Action)),
        let broken := History.step world checker (.analyze file scope (some room))
        let intact := History.step world checker (.analyze file scope none)
        broken.2 = intact.2 ∧ History.run broken.2 later = History.run intact.2 later := by
  intro whole cut
  have limited : cut = whole.limit room := run_of_room host strategy scope analyzed room file
  obtain ⟨unbroken, restored⟩ := run_of_unlimited host strategy scope analyzed file
  refine ⟨⟨by rw [limited]; rfl, ?breaks, ?enough⟩, ?state, fun world checker later => ?later⟩
  case breaks =>
    rw [limited, limit]
    by_cases more : room < whole.issues.length
    · simp [more]
    · simpa [more] using unbroken
  case enough =>
    intro enough
    rw [limited, limit, List.take_of_length_le enough, if_neg (Nat.not_lt.mpr enough)]
  case state => exact ⟨by rw [limited]; rfl, by rw [limited]; rfl, by rw [limited]; rfl, restored⟩
  case later =>
    have same : (History.step world checker (.analyze file scope (some room))).2
        = (History.step world checker (.analyze file scope none)).2 := by
      simp only [History.step, run_of_room, limit]
    exact ⟨same, congrArg (History.run · later) same⟩

end Analysis

end AnnotationCheck
