import Mathlib.Data.List.Flatten
import AnnotationCheck.Proofs.Analysis.Lines
import AnnotationCheck.Proofs.Php.Comments

/-!
Taking the whole file for one comment.

* `Comment.typings` — the variables to which a comment gives types; the line of the comment makes no
  difference to them.
* `typings_tokens_sublist` — what the comments of a script give is among what the whole file gives.
* **`wholeFile_keeps_findings`** — so the whole file is reported for all that its comments are, in the same
  order and as often.
-/

namespace AnnotationCheck

/-- The type that an annotation gives, and the variable to which it does. -/
def VarTag.typing (tag : VarTag) : Text × Text := (tag.type, tag.subject)

/-- An annotation gives the same type to the same variable, on whichever line its comment begins. -/
theorem VarTag.map_typing_ofText (line other : Nat) (text : Text) :
    (ofText line text).map typing = (ofText other text).map typing := by
  induction text with
  | nil => rfl
  | cons c rest ih =>
    by_cases here : c = '@'
    · subst here
      cases found : behindAt? rest with
      | none => rw [ofText_at_of_none line found, ofText_at_of_none other found, ih]
      | some parts =>
        rw [ofText_at_of_some line found, ofText_at_of_some other found, List.map_cons, List.map_cons, ih]
        rfl
    · rw [ofText_cons_of_ne line here, ofText_cons_of_ne other here, ih]

namespace Comment

/-- The types that the annotations of a comment give, each with its variable. -/
def typings (comment : Comment) : List (Text × Text) :=
  (VarTag.ofText comment.line comment.text).map VarTag.typing

theorem types_eq_map_typings (comment : Comment) : comment.types = comment.typings.map Prod.fst := by
  rw [types, typings, List.map_map]
  rfl

section Parser

variable [Php.Parser]

/-- The comments that the parser gives of a script lie one behind the other, and no word runs on behind any of them.
Where the parser gives up there is nothing to say. -/
def ArePartedIn (script : Text) : Prop :=
  ∀ program, Php.parse? script = some program → AreParted script (ranges program.trivia)

/-- **What the comments of a script give is among what the whole file gives**, in the same order. -/
theorem typings_tokens_sublist {script : Text} (parted : ArePartedIn script) (anchor : Nat) :
    ((ofScript script .tokens anchor).flatMap typings).Sublist
      ((ofScript script .wholeFile anchor).flatMap typings) := by
  cases found : Php.parse? script with
  | none =>
    -- the whole file is all that is left to search
    have same : ofScript script .tokens anchor = ofScript script .wholeFile anchor := ofScript_of_givenUp found
    rw [same]
  | some program =>
    have among := ((parted program found).sublist anchor).map VarTag.typing
    rw [List.map_flatMap] at among
    have onAnchor : (ofRanges script (ranges program.trivia)).flatMap typings
        = (ofRanges script (ranges program.trivia)).flatMap fun comment =>
            (VarTag.ofText anchor comment.text).map VarTag.typing :=
      List.flatMap_congr fun comment _ => VarTag.map_typing_ofText _ anchor comment.text
    rw [ofScript_of_parsed found, onAnchor, ofScript, List.flatMap_singleton]
    exact among

end Parser

end Comment

namespace Analysis

section Parser

variable [Php.Parser]

theorem className_run (host : Host) (strategy : Strategy) (file : Option Path) (scope : Scope) (analyzed : PathSet) :
    (run host strategy file scope none analyzed).issues.map Issue.className
      = ((host.comments strategy file scope.line analyzed).flatMap Comment.typings).flatMap
          fun typing => scope.missing host.has typing.1 := by
  rw [issues_run_of_unlimited]
  simp only [List.map_flatMap, Comment.className_issues, List.flatMap_assoc, Comment.types_eq_map_typings,
    List.flatMap_map]

/-- **Taking the whole file for one comment keeps all findings**, if the comments that the parser gives lie one behind
the other and no word runs on behind any of them: the names that are reported for the comments of a file are reported
for the whole file too, in the same order and at least as often, and what an annotation in a comment says is read
there with the same type and for the same variable. Where the parser gives the file up, both are the same. -/
theorem wholeFile_keeps_findings (host : Host) (file : Option Path) (scope : Scope) (analyzed : PathSet)
    (parted : ∀ content ∈ host.obtains? analyzed file, Comment.ArePartedIn content) :
    ((run host .tokens file scope none analyzed).issues.map Issue.className).Sublist
        ((run host .wholeFile file scope none analyzed).issues.map Issue.className)
      ∧ ((host.comments .tokens file scope.line analyzed).flatMap Comment.typings).Sublist
          ((host.comments .wholeFile file scope.line analyzed).flatMap Comment.typings)
      ∧ ∀ content ∈ host.obtains? analyzed file, Php.parse? content = none →
          run host .tokens file scope none analyzed = run host .wholeFile file scope none analyzed := by
  have among : ((host.comments .tokens file scope.line analyzed).flatMap Comment.typings).Sublist
      ((host.comments .wholeFile file scope.line analyzed).flatMap Comment.typings) := by
    unfold Host.comments
    cases obtained : host.obtains? analyzed file with
    | none => exact .refl _
    | some content => exact Comment.typings_tokens_sublist (parted content obtained) scope.line
  refine ⟨?_, among, ?_⟩
  · rw [className_run, className_run]
    exact among.flatMap _
  · intro content obtained givenUp
    obtain ⟨path, isText⟩ := run_of_obtained scope none obtained
    rw [isText, isText, ofText, ofText, Comment.ofScript_of_givenUp givenUp]
    rfl

end Parser

/-- A script with annotations in a comment, in a string and in a comment that runs to the end of the line. -/
theorem wholeFile_keeps_two_names :
    let content := "<?php\n/** @var A $a */\n$s = '@var B $b';\n// @var C $c".toList
    let host : Host := ⟨fun _ => false, fun _ => false, fun _ => .ok content⟩
    let file := some (Path.ofString "a.php")
    (∀ content ∈ host.obtains? {} file, Comment.ArePartedIn content)
      ∧ (run host .tokens file {} none {}).issues.map Issue.className = ["\\A".toList, "\\C".toList]
      ∧ (run host .wholeFile file {} none {}).issues.map Issue.className
          = ["\\A".toList, "\\B".toList, "\\C".toList]
      ∧ ((run host .tokens file {} none {}).issues.map Issue.className).Sublist
          ((run host .wholeFile file {} none {}).issues.map Issue.className) := by
  intro content host file
  have parted : ∀ content ∈ host.obtains? {} file, Comment.ArePartedIn content := by
    rintro content - program ⟨⟩
    exact Php.areParted_trivia content
  exact ⟨parted, by decide +kernel, by decide +kernel, (wholeFile_keeps_findings host file {} {} parted).1⟩

end Analysis

end AnnotationCheck
