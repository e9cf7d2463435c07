import AnnotationCheck.Declarations
import AnnotationCheck.Proofs.Analysis.Lines
import AnnotationCheck.Proofs.Analysis.WholeFile
import AnnotationCheck.Proofs.Scope.Resolves
import Mathlib.Data.List.Forall2

/-!
Analyses of one file in scopes that differ in nothing by which names are read.

* `Scope.Alike` — two scopes of a file with the same namespace, the same imports and the same template
  parameters, in whichever order and however often the parameters are listed.
* `Scope.Alike.missing` — such scopes lack the same class-likes.
* `Issue.Alike`, `Comment.issues_of_alike` — their issues for a comment say the same, one by one.
* **`Analysis.issues_of_alike_scopes`** — so the class-like for which a file is analyzed makes no difference but to
  the owner of the issues and, where the whole file is taken for a comment, to their line. A file that declares
  something is one that the parser does not give up.
-/

namespace AnnotationCheck

/-! ### Scopes that read names alike -/

/-- Two scopes of one file in which names are read alike, whatever their lines and owners. -/
structure Scope.Alike (left right : Scope) : Prop where
  file : left.file.Same right.file
  home : left.home = right.home
  imports : left.imports.Alike right.imports
  templates : ∀ name, name ∈ left.templates ↔ name ∈ right.templates

theorem Reference.ofUnion_congr {left right : List Text} (same : ∀ name, name ∈ left ↔ name ∈ right) :
    ofUnion left = ofUnion right := by
  funext union
  simp only [ofUnion, ofName?, same]

namespace Scope.Alike

variable {left right : Scope} (alike : left.Alike right)
include alike

theorem resolve : left.resolve = right.resolve := by
  funext name
  unfold Scope.resolve
  rw [alike.home, Imports.lookup?_of_alike alike.imports]

/-- Alike scopes lack the same class-likes. -/
theorem missing (known : Text → Bool) : left.missing known = right.missing known := by
  funext type
  rw [missing_eq_filter_asked, missing_eq_filter_asked, asked, asked, mentions, mentions,
    Reference.ofUnion_congr alike.templates, alike.resolve]

end Scope.Alike

/-! ### Issues that say the same -/

/-- Two issues that say the same of one file, on whichever line and for whichever class. -/
structure Issue.Alike (first second : Issue) : Prop where
  kind : first.kind = second.kind
  template : first.template = second.template
  arguments : first.arguments = second.arguments
  file : first.file.Same second.file

theorem Comment.types_congr {first second : Comment} (same : first.text = second.text) :
    first.types = second.types := by
  rw [types_eq_map_typings, types_eq_map_typings, typings, typings, same,
    VarTag.map_typing_ofText first.line second.line]

/-- In alike scopes, comments of one text have issues that say the same, one by one. -/
theorem Comment.issues_of_alike {left right : Scope} (alike : left.Alike right) (known : Text → Bool)
    {fits : Nat → Nat → Prop} {first second : Comment} (same : first.text = second.text)
    (lines : fits first.line second.line) :
    List.Forall₂ (fun one other => one.Alike other ∧ fits one.line other.line)
      (first.issues known left) (second.issues known right) := by
  rw [issues_eq, issues_eq, types_congr same, alike.missing, List.forall₂_map_left_iff,
    List.forall₂_map_right_iff, List.forall₂_same]
  exact fun name _ => ⟨⟨rfl, rfl, rfl, alike.file⟩, lines⟩

/-! ### Analyses -/

namespace Analysis

section Alike

variable [Php.Parser] {left right : Scope} (alike : left.Alike right) (host : Host) (file : Option Path)
  (room : Option Nat) (analyzed : PathSet)
include alike

/-- Where the comments of the two analyses correspond one by one, so do the issues. -/
theorem forall₂_issues_run {strategy : Strategy} (fits : Nat → Nat → Prop)
    (comments : List.Forall₂ (fun first second => first.text = second.text ∧ fits first.line second.line)
      (host.comments strategy file left.line analyzed) (host.comments strategy file right.line analyzed)) :
    List.Forall₂ (fun first second => first.Alike second ∧ fits first.line second.line)
      (run host strategy file left room analyzed).issues
      (run host strategy file right room analyzed).issues := by
  have offered := List.rel_flatMap comments fun first second same =>
    Comment.issues_of_alike alike host.has same.1 same.2
  rw [issues_run, issues_run]
  cases room with
  | none => exact offered
  | some room => exact List.forall₂_take room offered

/-- Where each scope has the whole file for its comment, each issue lies on the line of its scope. -/
theorem forall₂_issues_run_of_whole {strategy : Strategy}
    (whole : ∀ content ∈ host.obtains? analyzed file, ∀ anchor,
      Comment.ofScript content strategy anchor = [⟨content, anchor⟩]) :
    List.Forall₂ (fun first second => first.Alike second ∧ first.line = left.line ∧ second.line = right.line)
      (run host strategy file left room analyzed).issues
      (run host strategy file right room analyzed).issues := by
  refine forall₂_issues_run alike host file room analyzed
    (fun first second => first = left.line ∧ second = right.line) ?_
  unfold Host.comments
  cases obtained : host.obtains? analyzed file with
  | none => exact .nil
  | some content =>
    simp only [whole content obtained]
    exact .cons ⟨rfl, rfl, rfl⟩ .nil

/-- **The class-like for which a file is analyzed makes no difference to what is found**, if the scopes read
names alike. With the comments found by tokens, in a file that declares something, the issues agree one by one in
everything but the class-like at hand, whatever lines the class-likes are declared on. With the whole file taken for a
comment, they agree but for that and for the line, which is that of the scope; and so they do where the parser gives
the file up, which then declares nothing. -/
theorem issues_of_alike_scopes :
    ((∀ content ∈ host.obtains? analyzed file, (Declarations.ofScript? content).isSome) →
        List.Forall₂ (fun first second => first.Alike second ∧ first.line = second.line)
          (run host .tokens file left room analyzed).issues
          (run host .tokens file right room analyzed).issues)
      ∧ List.Forall₂ (fun first second => first.Alike second ∧ first.line = left.line ∧ second.line = right.line)
          (run host .wholeFile file left room analyzed).issues
          (run host .wholeFile file right room analyzed).issues
      ∧ ((∀ content ∈ host.obtains? analyzed file, Declarations.ofScript? content = none) →
          List.Forall₂ (fun first second => first.Alike second ∧ first.line = left.line ∧ second.line = right.line)
            (run host .tokens file left room analyzed).issues
            (run host .tokens file right room analyzed).issues) := by
  refine ⟨fun declares => ?tokens, ?whole, fun givenUp => ?givenUp⟩
  case tokens =>
    refine forall₂_issues_run alike host file room analyzed (· = ·) ?_
    -- the line of the scope is of no use where the parser gives the comments
    have same : host.comments .tokens file left.line analyzed = host.comments .tokens file right.line analyzed := by
      unfold Host.comments
      cases obtained : host.obtains? analyzed file with
      | none => rfl
      | some content =>
        obtain ⟨declared, found⟩ := Option.isSome_iff_exists.mp (declares content obtained)
        obtain ⟨program, parsed, -⟩ := Option.map_eq_some_iff.mp found
        exact (Comment.ofScript_of_parsed parsed).trans (Comment.ofScript_of_parsed parsed).symm
    rw [same, List.forall₂_same]
    exact fun comment _ => ⟨rfl, rfl⟩
  case whole => exact forall₂_issues_run_of_whole alike host file room analyzed fun _ _ _ => rfl
  case givenUp =>
    exact forall₂_issues_run_of_whole alike host file room analyzed fun content obtained anchor =>
      Comment.ofScript_of_givenUp (Option.map_eq_none_iff.mp (givenUp content obtained))

end Alike

/-- Two class-likes of a file with the same template parameters, which one of them lists twice. -/
theorem issues_of_two_class_likes :
    let content := "<?php\nclass A {}\nclass B \x7b /** @var T|U[]|Gone $x */ \x7d".toList
    let host : Host := ⟨fun _ => false, fun _ => false, fun _ => .ok content⟩
    let file := some (Path.ofString "src/a.php")
    let left : Scope :=
      { file := .ofString "src/a.php", line := 2, owner := "\\A".toList, templates := ["T".toList, "U".toList] }
    let right : Scope :=
      { file := .ofString "src//a.php", line := 3, owner := "\\B".toList,
        templates := ["U".toList, "T".toList, "U".toList] }
    left.Alike right
      ∧ (run host .tokens file left none {}).issues.map Issue.className = ["\\Gone".toList]
      ∧ List.Forall₂ (fun first second => first.Alike second ∧ first.line = second.line)
          (run host .tokens file left none {}).issues (run host .tokens file right none {}).issues
      ∧ List.Forall₂ (fun first second => first.Alike second ∧ first.line = 2 ∧ second.line = 3)
          (run host .wholeFile file left none {}).issues (run host .wholeFile file right none {}).issues := by
  intro content host file left right
  have templates : ∀ name, name ∈ left.templates ↔ name ∈ right.templates := by
    intro name
    simp only [left, right, List.mem_cons, List.not_mem_nil, or_false]
    tauto
  have alike : left.Alike right := ⟨by decide, rfl, .inl rfl, templates⟩
  obtain ⟨byTokens, byWhole, -⟩ := issues_of_alike_scopes alike host file none {}
  exact ⟨alike, by decide +kernel, byTokens fun _ _ => rfl, byWhole⟩

end Analysis

end AnnotationCheck
