import AnnotationCheck.Analysis.Basic

/-!
What an analysis offers its sink.

* `Comment.issues` — the issues that a comment gives rise to, whatever the sink does with them.
* `Sink.give` — a sink is given an issue and goes on, or breaks and stays as it was.
* `Pass.foldlM_withScope` — items that leave the scope alone give the sink their issues, up to the one at which it
  breaks.
* **`Pass.run_eq`** — so does the way through the comments of a file, which leaves the scope as it was whether it
  came to its end or broke off.
* `Sink.foldlM_give_of_unlimited` — a sink without a limit takes all of them.
* `Analysis.course` — how far an analysis comes, with what it then leaves (`run_of_skipped`,
  `run_of_unreadable`, `run_of_readable`).
-/

namespace AnnotationCheck

/-! ### The issues of comments -/

section Issues

variable (known : Text → Bool)

/-- The issues that an annotation in a scope gives rise to. -/
def Scope.issues (scope : Scope) (type : Text) : List Issue :=
  (scope.missing known type).map (Issue.undeclared scope)

/-- The issues that a comment gives rise to. -/
def Comment.issues (scope : Scope) (comment : Comment) : List Issue :=
  (VarTag.ofText comment.line comment.text).flatMap fun tag =>
    Scope.issues known { scope with line := comment.line } tag.type

end Issues

/-! ### Sinks -/

namespace Sink

/-- The sink after an issue, or the sink as it was where it breaks. -/
def give (sink : Sink) (issue : Issue) : Except Sink Sink :=
  match sink.put? issue with
  | some after => .ok after
  | none => .error sink

/-- A sink without a limit takes everything. -/
theorem foldlM_give_of_unlimited (sink : Sink) (unlimited : sink.room = none) (issues : List Issue) :
    issues.foldlM give sink = .ok { sink with taken := sink.taken ++ issues } := by
  induction issues generalizing sink with
  | nil => simp [pure, Except.pure]
  | cons issue rest ih =>
    have taken : sink.give issue = .ok { sink with taken := sink.taken ++ [issue] } := by
      simp only [give, put?, unlimited]
    have later := ih { sink with taken := sink.taken ++ [issue] } unlimited
    rw [List.append_assoc] at later
    rw [List.foldlM_cons, taken]
    exact later

end Sink

/-! ### Ways through a file -/

namespace Pass

/-- The way of a sink as the way of a pass with the given scope. -/
def withScope (scope : Scope) : Except Sink Sink → Except Pass Pass
  | .ok sink => .ok ⟨scope, sink⟩
  | .error sink => .error ⟨scope, sink⟩

/-- Items of which each one leaves the scope alone and gives the sink its issues: together they give it the issues
of all, up to the one at which it breaks. -/
theorem foldlM_withScope {Item : Type} {scope : Scope} {step : Pass → Item → Except Pass Pass}
    {issues : Item → List Issue}
    (gives : ∀ sink item, step ⟨scope, sink⟩ item = withScope scope ((issues item).foldlM Sink.give sink))
    (items : List Item) (sink : Sink) :
    items.foldlM step ⟨scope, sink⟩ = withScope scope ((items.flatMap issues).foldlM Sink.give sink) := by
  induction items generalizing sink with
  | nil => rfl
  | cons item rest ih =>
    rw [List.foldlM_cons, gives, List.flatMap_cons, List.foldlM_append]
    cases (issues item).foldlM Sink.give sink with
    | ok after => exact ih after
    | error broken => rfl

variable (known : Text → Bool)

theorem report_eq (scope : Scope) (sink : Sink) (name : Text) :
    report ⟨scope, sink⟩ name = withScope scope ([Issue.undeclared scope name].foldlM Sink.give sink) := by
  rw [List.foldlM_cons, report, Sink.give]
  cases sink.put? (Issue.undeclared scope name) <;> rfl

theorem tag_eq (scope : Scope) (sink : Sink) (found : VarTag) :
    tag known ⟨scope, sink⟩ found = withScope scope ((scope.issues known found.type).foldlM Sink.give sink) := by
  rw [tag, foldlM_withScope (report_eq scope), ← List.map_eq_flatMap]
  rfl

theorem comment_eq (scope : Scope) (sink : Sink) (comment : Comment) :
    Pass.comment known ⟨scope, sink⟩ comment
      = withScope { scope with line := comment.line } ((comment.issues known scope).foldlM Sink.give sink) :=
  foldlM_withScope (tag_eq known { scope with line := comment.line }) _ sink

/-- The way through comments changes nothing of the scope but its line, on which the issues do not depend. -/
theorem foldlM_comment (scope : Scope) (sink : Sink) (comments : List Comment) :
    ∃ line, comments.foldlM (Pass.comment known) ⟨scope, sink⟩
      = withScope { scope with line := line }
          ((comments.flatMap fun comment => comment.issues known scope).foldlM Sink.give sink) := by
  induction comments generalizing scope sink with
  | nil => exact ⟨scope.line, rfl⟩
  | cons comment rest ih =>
    rw [List.foldlM_cons, comment_eq, List.flatMap_cons, List.foldlM_append]
    cases (comment.issues known scope).foldlM Sink.give sink with
    | ok after => exact ih { scope with line := comment.line } after
    | error broken => exact ⟨comment.line, rfl⟩

/-- **The way through the comments of a file** gives their issues to the sink one after the other, up to the one at
which it breaks, and leaves the scope as it was. -/
theorem run_eq (scope : Scope) (sink : Sink) (comments : List Comment) :
    run known comments ⟨scope, sink⟩
      = withScope scope ((comments.flatMap fun comment => comment.issues known scope).foldlM Sink.give sink) := by
  obtain ⟨line, after⟩ := foldlM_comment known scope sink comments
  rw [run, after]
  cases (comments.flatMap fun comment => comment.issues known scope).foldlM Sink.give sink <;> rfl

end Pass

namespace Analysis

/-- How far an analysis of a file comes: each way settles what `run` is. -/
inductive Course (host : Host) (analyzed : PathSet) : Option Path → Prop
  /-- A built-in class has no file. -/
  | builtIn : Course host analyzed none
  | skipped {file : Path} : host.isExcluded file = true ∨ analyzed.contains file = true →
      Course host analyzed (some file)
  | unreadable {file : Path} {reason : Text} : host.isExcluded file = false → analyzed.contains file = false →
      host.read file = .error reason → Course host analyzed (some file)
  | readable {file : Path} {content : Text} : host.isExcluded file = false → analyzed.contains file = false →
      host.read file = .ok content → Course host analyzed (some file)

theorem course (host : Host) (analyzed : PathSet) (file : Option Path) : Course host analyzed file := by
  cases file with
  | none => exact .builtIn
  | some file =>
    by_cases skips : host.isExcluded file = true ∨ analyzed.contains file = true
    · exact .skipped skips
    · simp only [not_or, Bool.not_eq_true] at skips
      cases read : host.read file with
      | error reason => exact .unreadable skips.1 skips.2 read
      | ok content => exact .readable skips.1 skips.2 read

variable [Php.Parser] {host : Host} {strategy : Strategy} {scope : Scope} {analyzed : PathSet}

/-- The analysis of a text, whose comments give a sink their issues. -/
theorem ofText_eq (room : Option Nat) (asked : List Path) (content : Text) :
    ofText host strategy scope room analyzed asked content
      = match ((Comment.ofScript content strategy scope.line).flatMap fun comment =>
            comment.issues host.has scope).foldlM Sink.give { room := room } with
        | .ok sink => { issues := sink.taken, scope := scope, analyzed := analyzed, asked := asked }
        | .error sink =>
          { issues := sink.taken, error := some .brokenSink, scope := scope, analyzed := analyzed,
            asked := asked } := by
  rw [ofText, Pass.run_eq]
  cases ((Comment.ofScript content strategy scope.line).flatMap fun comment =>
    comment.issues host.has scope).foldlM Sink.give { room := room } <;> rfl

/-- With an unlimited sink, an analysis of a text finds the issues of the comments in it. -/
theorem ofText_unlimited (asked : List Path) (content : Text) :
    ofText host strategy scope none analyzed asked content
      = { issues := (Comment.ofScript content strategy scope.line).flatMap fun comment =>
            comment.issues host.has scope
          scope := scope, analyzed := analyzed, asked := asked } := by
  rw [ofText_eq, Sink.foldlM_give_of_unlimited _ rfl]
  rfl

@[simp] theorem asked_ofText (room : Option Nat) (asked : List Path) (content : Text) :
    (ofText host strategy scope room analyzed asked content).asked = asked := by
  rw [ofText]
  split <;> rfl

@[simp] theorem analyzed_ofText (room : Option Nat) (asked : List Path) (content : Text) :
    (ofText host strategy scope room analyzed asked content).analyzed = analyzed := by
  rw [ofText]
  split <;> rfl

/-- A class whose file is excluded or analyzed already leaves everything as it was. -/
theorem run_of_skipped {file : Path} (skipped : host.isExcluded file = true ∨ analyzed.contains file = true)
    (room : Option Nat) :
    run host strategy (some file) scope room analyzed = { scope := scope, analyzed := analyzed } := by
  have skips : (host.isExcluded file || analyzed.contains file) = true := by simpa using skipped
  simp only [run, skips, if_true]

/-- A file that is due counts as analyzed from before it is read. -/
theorem run_of_due {file : Path} (included : host.isExcluded file = false)
    (fresh : analyzed.contains file = false) (room : Option Nat) :
    run host strategy (some file) scope room analyzed
      = match host.read file with
        | .error reason =>
          { error := some (.unreadable file reason), scope := scope, analyzed := analyzed.insert file,
            asked := [file] }
        | .ok content => ofText host strategy scope room (analyzed.insert file) [file] content := by
  have due : (host.isExcluded file || analyzed.contains file) = false := by simp [included, fresh]
  cases read : host.read file with
  | error reason => simp only [run, due, Host.fetch, read, Bool.false_eq_true, if_false]
  | ok content => simp only [run, due, Host.fetch, read, Bool.false_eq_true, if_false]

theorem run_of_unreadable {file : Path} {reason : Text} (included : host.isExcluded file = false)
    (fresh : analyzed.contains file = false) (failed : host.read file = .error reason) (room : Option Nat) :
    run host strategy (some file) scope room analyzed
      = { error := some (.unreadable file reason), scope := scope, analyzed := analyzed.insert file,
          asked := [file] } := by
  rw [run_of_due included fresh, failed]

theorem run_of_readable {file : Path} {content : Text} (included : host.isExcluded file = false)
    (fresh : analyzed.contains file = false) (read : host.read file = .ok content) (room : Option Nat) :
    run host strategy (some file) scope room analyzed
      = ofText host strategy scope room (analyzed.insert file) [file] content := by
  rw [run_of_due included fresh, read]

end Analysis

end AnnotationCheck
