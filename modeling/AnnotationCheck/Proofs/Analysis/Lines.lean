import AnnotationCheck.Proofs.Analysis.Names
import AnnotationCheck.Proofs.Analysis.Sink
import AnnotationCheck.Proofs.Comment.Located

/-!
The line of a scope during an analysis and after it.

* `Host.obtains?`, `Host.comments` — the text that an analysis obtains, and the comments that it goes
  through; there are none where the file is skipped or cannot be read.
* `Pass.run_of_goes`, `Pass.run_of_breaks` — where the way through some comments goes on to its end, and where it
  breaks off in the middle of one, the scope differs in its line alone, and is put back.
* `Analysis.issues_run` — the issues of an analysis are those of its comments, as far as the sink has room.
* **`Analysis.scope_restored`** — every analysis hands the scope back as it was, and every issue lies on the
  line of the comment in which it was found.
-/

namespace AnnotationCheck

/-! ### What an analysis goes through -/

/-- The text that an analysis obtains: that of its file, unless the file is excluded or analyzed already. -/
def Host.obtains? (host : Host) (analyzed : PathSet) (file : Option Path) : Option Text :=
  (file.filter fun path => !host.isExcluded path && !analyzed.contains path).bind fun path =>
    (host.read path).toOption

/-- The comments that an analysis goes through, where the scope is on the given line. -/
def Host.comments [Php.Parser] (host : Host) (strategy : Strategy) (file : Option Path) (line : Nat)
    (analyzed : PathSet) : List Comment :=
  match host.obtains? analyzed file with
  | some content => Comment.ofScript content strategy line
  | none => []

/-- Those of some issues for which a sink has room. -/
def Sink.accepted (room : Option Nat) (issues : List Issue) : List Issue :=
  match room with
  | some room => issues.take room
  | none => issues

/-! ### The middle of a comment -/

namespace Pass

variable {known : Text → Bool} {scope : Scope} {sink : Sink} {comments : List Comment}

/-- Behind the last comment the scope differs in its line alone, and is put back. -/
theorem run_of_goes {pass : Pass} (goes : comments.foldlM (comment known) ⟨scope, sink⟩ = .ok pass) :
    pass.scope = { scope with line := pass.scope.line }
      ∧ run known comments ⟨scope, sink⟩ = .ok ⟨scope, pass.sink⟩ := by
  obtain ⟨line, after⟩ := foldlM_comment known scope sink comments
  rw [goes] at after
  have restored : run known comments ⟨scope, sink⟩ = .ok (pass.atLine scope.line) := by
    rw [run, goes]
    rfl
  rw [restored]
  cases given : (comments.flatMap fun comment => comment.issues known scope).foldlM Sink.give sink with
  | ok sink =>
    rw [given] at after
    cases after
    exact ⟨rfl, rfl⟩
  | error broken =>
    rw [given] at after
    cases after

/-- A way that breaks off does so in the middle of a comment, with the scope on the line of it. -/
theorem exists_comment_of_breaks {broken : Pass}
    (breaks : comments.foldlM (comment known) ⟨scope, sink⟩ = .error broken) :
    ∃ comment ∈ comments, broken.scope = { scope with line := comment.line } := by
  induction comments generalizing scope sink with
  | nil => cases breaks
  | cons comment rest ih =>
    rw [List.foldlM_cons, comment_eq] at breaks
    cases given : (comment.issues known scope).foldlM Sink.give sink with
    | ok after =>
      rw [given] at breaks
      obtain ⟨later, there, onLine⟩ := ih breaks
      exact ⟨later, List.mem_cons_of_mem comment there, onLine⟩
    | error last =>
      rw [given] at breaks
      cases breaks
      exact ⟨comment, List.mem_cons_self, rfl⟩

/-- In the middle of a comment the scope differs in its line alone, and is put back where the sink breaks. -/
theorem run_of_breaks {broken : Pass} (breaks : comments.foldlM (comment known) ⟨scope, sink⟩ = .error broken) :
    (∃ comment ∈ comments, broken.scope = { scope with line := comment.line })
      ∧ run known comments ⟨scope, sink⟩ = .error ⟨scope, broken.sink⟩ := by
  obtain ⟨comment, there, onLine⟩ := exists_comment_of_breaks breaks
  refine ⟨⟨comment, there, onLine⟩, ?_⟩
  have restored : run known comments ⟨scope, sink⟩ = .error (broken.atLine scope.line) := by
    rw [run, breaks]
    rfl
  rw [restored, atLine, onLine]

end Pass

namespace Comment

theorem line_of_mem_issues {known : Text → Bool} {scope : Scope} {comment : Comment} {issue : Issue}
    (found : issue ∈ comment.issues known scope) : issue.line = comment.line := by
  rw [issues_eq] at found
  obtain ⟨name, -, rfl⟩ := List.mem_map.mp found
  rfl

end Comment

namespace Analysis

section Run

variable [Php.Parser] (host : Host) (strategy : Strategy) (file : Option Path) (scope : Scope) (room : Option Nat)
  (analyzed : PathSet)

variable {host analyzed file} in
/-- A text that an analysis obtains is the one that it goes through. -/
theorem run_of_obtained {content : Text} (obtained : content ∈ host.obtains? analyzed file) :
    ∃ path, ∀ strategy, run host strategy file scope room analyzed
      = ofText host strategy scope room (analyzed.insert path) [path] content := by
  unfold Host.obtains? at obtained
  cases course host analyzed file with
  | builtIn => cases obtained
  | @skipped path skips =>
    have dropped : (!host.isExcluded path && !analyzed.contains path) = false := by
      rcases skips with skips | skips <;> simp [skips]
    rw [Option.filter_some, dropped] at obtained
    cases obtained
  | unreadable included fresh failed =>
    rw [Option.filter_some, included, fresh] at obtained
    simp [failed, Except.toOption] at obtained
  | @readable path _ included fresh read =>
    rw [Option.filter_some, included, fresh] at obtained
    simp only [Bool.not_false, Bool.and_self, if_true, Option.bind_some, read, Except.toOption, Option.mem_def,
      Option.some.injEq] at obtained
    exact ⟨path, fun strategy => obtained ▸ run_of_readable included fresh read room⟩

theorem issues_run_of_unlimited :
    (run host strategy file scope none analyzed).issues
      = (host.comments strategy file scope.line analyzed).flatMap fun comment =>
          comment.issues host.has scope := by
  unfold Host.comments Host.obtains?
  cases course host analyzed file with
  | builtIn => rfl
  | @skipped path skips =>
    have dropped : (!host.isExcluded path && !analyzed.contains path) = false := by
      rcases skips with skips | skips <;> simp [skips]
    rw [run_of_skipped skips, Option.filter_some, dropped]
    rfl
  | unreadable included fresh failed =>
    rw [run_of_unreadable included fresh failed, Option.filter_some, included, fresh]
    simp [failed, Except.toOption]
  | readable included fresh read =>
    rw [run_of_readable included fresh read, ofText_unlimited, Option.filter_some, included, fresh]
    simp [read, Except.toOption]

/-- **The issues of an analysis** are those of the comments that it goes through, as far as the sink has
room for them. -/
theorem issues_run :
    (run host strategy file scope room analyzed).issues
      = Sink.accepted room ((host.comments strategy file scope.line analyzed).flatMap fun comment =>
          comment.issues host.has scope) := by
  cases room with
  | none => exact issues_run_of_unlimited host strategy file scope analyzed
  | some room =>
    rw [run_of_room, limit, issues_run_of_unlimited]
    rfl

theorem scope_run : (run host strategy file scope room analyzed).scope = scope := by
  have restored := (run_of_unlimited host strategy scope analyzed file).2
  cases room with
  | none => exact restored
  | some room =>
    rw [run_of_room]
    exact restored

end Run

/-- **The scope is handed back as it was** on every way out of an analysis: for a built-in class, for a file
that is excluded, analyzed already or unreadable, behind the last comment, and where the sink breaks. The
issues up to there are found in the comments of the file, each on the line of its comment: the one on which
the comment begins or, where the whole file is taken for a comment, the line of the scope. For whatever the comments
and the sink are, the scope differs in its line alone from what it was, behind the last comment as well as in the
middle of the one at which the sink breaks, and on either way it is put back. -/
theorem scope_restored [Php.Parser] (host : Host) (strategy : Strategy) (file : Option Path) (scope : Scope)
    (room : Option Nat) (analyzed : PathSet) :
    let analysis := run host strategy file scope room analyzed
    let comments := host.comments strategy file scope.line analyzed
    let found := comments.flatMap fun comment =>
      (comment.issues host.has scope).map fun issue => (comment, issue)
    analysis.scope = scope
      ∧ analysis.issues = Sink.accepted room (found.map (·.2))
      ∧ (∀ entry ∈ found, entry.2.line = entry.1.line)
      ∧ (∀ content ∈ host.obtains? analyzed file, ∃ located,
          Comment.IsLocated content scope.line strategy located ∧ located.map Prod.snd = comments)
      ∧ ∀ (sink : Sink) (comments : List Comment),
          let way := comments.foldlM (Pass.comment host.has) ⟨scope, sink⟩
          let left := Pass.run host.has comments ⟨scope, sink⟩
          (∀ pass, way = .ok pass → pass.scope = { scope with line := pass.scope.line }
            ∧ left = .ok ⟨scope, pass.sink⟩)
          ∧ ∀ broken, way = .error broken →
              (∃ comment ∈ comments, broken.scope = { scope with line := comment.line })
                ∧ left = .error ⟨scope, broken.sink⟩ := by
  intro analysis comments found
  refine ⟨scope_run host strategy file scope room analyzed, ?issues, ?lines, ?comments,
    fun sink comments => ⟨fun pass goes => Pass.run_of_goes goes, fun broken breaks => Pass.run_of_breaks breaks⟩⟩
  case issues =>
    have all : found.map (·.2) = comments.flatMap fun comment => comment.issues host.has scope := by
      simp only [found, List.map_flatMap, List.map_map, Function.comp_def, List.map_id']
    rw [all]
    exact issues_run host strategy file scope room analyzed
  case lines =>
    intro entry isEntry
    obtain ⟨comment, -, isFound⟩ := List.mem_flatMap.mp isEntry
    obtain ⟨issue, isIssue, rfl⟩ := List.mem_map.mp isFound
    exact Comment.line_of_mem_issues isIssue
  case comments =>
    intro content obtained
    have isLocated := Comment.isLocated_located content strategy scope.line
    refine ⟨_, isLocated, isLocated.comments.trans ?_⟩
    simp only [comments, Host.comments, Option.mem_def.mp obtained]

end Analysis

end AnnotationCheck
