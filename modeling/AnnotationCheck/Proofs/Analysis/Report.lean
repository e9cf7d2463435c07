import AnnotationCheck.Php.Statement
import AnnotationCheck.Proofs.Analysis.Offer
import AnnotationCheck.Proofs.Scope.Resolves
import AnnotationCheck.Proofs.Union.Members
import AnnotationCheck.Proofs.VarTag.Reading

/-!
What the analysis of a file reports, stated without reference to it.

* `Scope.Lacks` — an element of a type names a class-like that is not known.
* `Report.OfMember`, `OfType`, `OfComment`, `Report` — the issues of a member of a type, of a type, of a
  comment and of the comments of a file; each level puts the issues of the level below one behind the
  other (`Collected`).
* **`Analysis.issues_eq_iff_report`** — the issues of an analysis are the report of the file's comments, and
  nothing else is one.
-/

namespace AnnotationCheck

/-! ### Lists collected from items -/

section Collected

variable {α β : Type}

/-- Lists for single items, one behind the other. -/
inductive Collected (gives : α → List β → Prop) : List α → List β → Prop
  | nil : Collected gives [] []
  | cons {item : α} {items : List α} {found more : List β} : gives item found → Collected gives items more →
      Collected gives (item :: items) (found ++ more)

/-- Where each item gives one list, so do the items together. -/
theorem collected_iff {gives : α → List β → Prop} {listOf : α → List β} {items : List α}
    (each : ∀ item ∈ items, ∀ found, gives item found ↔ found = listOf item) {found : List β} :
    Collected gives items found ↔ found = items.flatMap listOf := by
  constructor
  · intro collected
    induction collected with
    | nil => rfl
    | @cons item items found more first _ ih =>
      rw [List.flatMap_cons, (each item List.mem_cons_self found).mp first,
        ih fun other there => each other (List.mem_cons_of_mem _ there)]
  · rintro rfl
    induction items with
    | nil => exact .nil
    | cons item items ih =>
      refine .cons ((each item List.mem_cons_self _).mpr rfl) (ih fun other there => ?_)
      exact each other (List.mem_cons_of_mem _ there)

end Collected

/-! ### Elements that are not known -/

/-- An element of a type names a class-like of the given full name, and that is not known. -/
structure Scope.Lacks (scope : Scope) (known : Text → Bool) (element name : Text) : Prop where
  /-- The element does not consist of separators alone. -/
  named : ∃ c ∈ element, c ≠ Union.separator
  /-- It is no built-in type and does not stand for the class at hand, in any case. -/
  foreign : ∀ word ∈ Reference.nativeNames ++ Reference.ownNames,
    Text.sameIgnoringCase word (Reference.bare element) = false
  /-- It is no template parameter. -/
  ordinary : element ∉ scope.templates
  resolved : scope.Resolves element name
  unknown : known name = false

/-- A reference is a class-like if no other rule takes it. -/
theorem Reference.ofName?_eq_classLike_iff {templates : List Text} {element name : Text} :
    ofName? templates element = some (.classLike name) ↔
      (∃ c ∈ element, c ≠ Union.separator) ∧
      (∀ word ∈ nativeNames ++ ownNames, Text.sameIgnoringCase word (bare element) = false) ∧
      element ∉ templates ∧ name = element := by
  have named : (∃ c ∈ element, c ≠ Union.separator) ↔ bare element ≠ [] := by
    rw [ne_eq, bare_eq_nil_iff]
    simp
  have foreign : (∀ word ∈ nativeNames ++ ownNames, Text.sameIgnoringCase word (bare element) = false) ↔
      isNative (bare element) = false ∧ isOwnClass (bare element) = false := by
    simp only [isNative, isOwnClass, List.any_eq_false, List.forall_mem_append, Bool.not_eq_true]
  rw [named, foreign, ofName?]
  split
  · rename_i none
    simp [none]
  · rename_i some
    split
    · rename_i native
      simp [native]
    · rename_i notNative
      split
      · rename_i own
        simp [own]
      · rename_i notOwn
        split
        · rename_i template
          simp [template]
        · rename_i ordinary
          simp [some, notNative, notOwn, ordinary, eq_comm]

theorem Scope.missing?_eq_some_iff {scope : Scope} {known : Text → Bool} {reference : Reference}
    {name : Text} :
    scope.missing? known reference = some name ↔
      ∃ written, reference = .classLike written ∧ scope.resolve written = name ∧ known name = false := by
  cases reference with
  | classLike written =>
    simp only [missing?, Reference.classLike.injEq, exists_eq_left']
    split
    · rename_i isKnown
      constructor
      · rintro ⟨⟩
      · rintro ⟨rfl, unknown⟩
        rw [isKnown] at unknown
        cases unknown
    · rename_i unknown
      constructor
      · rintro ⟨⟩
        exact ⟨rfl, by simpa using unknown⟩
      · rintro ⟨rfl, _⟩
        rfl
  | native | ownClass | template => simp [missing?]

theorem Scope.lacks_of_missing {scope : Scope} {known : Text → Bool} {element name : Text}
    (missing : (Reference.ofName? scope.templates element).bind (scope.missing? known) = some name) :
    scope.Lacks known element name := by
  simp only [Option.bind_eq_some_iff, missing?_eq_some_iff] at missing
  obtain ⟨_, classified, written, rfl, rfl, unknown⟩ := missing
  obtain ⟨named, foreign, ordinary, rfl⟩ := Reference.ofName?_eq_classLike_iff.mp classified
  exact ⟨named, foreign, ordinary, resolves_resolve scope written, unknown⟩

/-- What is missing of an element is what the scope lacks. -/
theorem Scope.lacks_iff {scope : Scope} (distinct : scope.imports.Distinct) {known : Text → Bool}
    {element name : Text} :
    scope.Lacks known element name ↔
      (Reference.ofName? scope.templates element).bind (scope.missing? known) = some name := by
  refine ⟨?_, lacks_of_missing⟩
  simp only [Option.bind_eq_some_iff, missing?_eq_some_iff]
  rintro ⟨named, foreign, ordinary, resolved, unknown⟩
  refine ⟨.classLike element, ?_, element, rfl, ((resolves_iff distinct).mp resolved).symm, unknown⟩
  exact Reference.ofName?_eq_classLike_iff.mpr ⟨named, foreign, ordinary, rfl⟩

/-- The issues of a union type, member by member. -/
theorem Scope.issues_of_isUnion {type : Text} (union : Union.IsUnion type) (known : Text → Bool) (scope : Scope)
    (line : Nat) :
    Scope.issues known { scope with line := line } type
      = (Text.distinct (Text.fields '|' type)).flatMap fun member =>
        (((Reference.ofName? scope.templates (Union.element member)).bind
          (scope.missing? known)).map (Issue.undeclared { scope with line := line })).toList := by
  rw [Scope.issues, Scope.missing, Reference.ofUnion, Union.members_of_isUnion union,
    List.filterMap_filterMap, List.map_filterMap, List.filterMap_eq_flatMap_toList]
  rfl

/-! ### Reports -/

namespace Report

variable (known : Text → Bool) (scope : Scope)

/-- The issues of a member of a union type, in a comment on the given line: one if the scope lacks its
element, and else none. -/
inductive OfMember (line : Nat) (member : Text) : List Issue → Prop
  | lacked {element name : Text} : Union.IsElement member element → scope.Lacks known element name →
      OfMember line member
        [{ arguments := [name], file := scope.file, line := line, owner := scope.owner }]
  | silent {element : Text} : Union.IsElement member element →
      (∀ name, ¬ scope.Lacks known element name) → OfMember line member []

/-- The issues of a union type: those of its different members, in the order in which they are written. -/
def OfType (line : Nat) (type : Text) (issues : List Issue) : Prop :=
  Collected (OfMember known scope line) (Text.distinct (Text.fields '|' type)) issues

/-- The issues of a comment: those of the types of its annotations, from left to right. -/
def OfComment (comment : Comment) (issues : List Issue) : Prop :=
  ∃ tags, VarTag.IsReading comment.line comment.text tags ∧
    Collected (fun tag => OfType known scope comment.line tag.type) tags issues

end Report

/-- The issues of the comments of a file, in the order of the comments. -/
def Report (known : Text → Bool) (scope : Scope) (comments : List Comment) (issues : List Issue) : Prop :=
  Collected (Report.OfComment known scope) comments issues

namespace Report

variable {known : Text → Bool} {scope : Scope} (distinct : scope.imports.Distinct)
include distinct

theorem ofMember_iff {line : Nat} {member : Text} {issues : List Issue} :
    OfMember known scope line member issues ↔
      issues = (((Reference.ofName? scope.templates (Union.element member)).bind
        (scope.missing? known)).map (Issue.undeclared { scope with line := line })).toList := by
  constructor
  · intro report
    cases report with
    | lacked isElement lacked =>
      rw [Union.isElement_iff.mp isElement] at lacked
      rw [(Scope.lacks_iff distinct).mp lacked]
      rfl
    | silent isElement known' =>
      rw [Union.isElement_iff.mp isElement] at known'
      cases missing : (Reference.ofName? scope.templates (Union.element member)).bind (scope.missing? known) with
      | none => rfl
      | some name => exact absurd ((Scope.lacks_iff distinct).mpr missing) (known' name)
  · rintro rfl
    cases missing : (Reference.ofName? scope.templates (Union.element member)).bind (scope.missing? known) with
    | none =>
      refine .silent (Union.isElement_element member) fun name lacked => ?_
      rw [(Scope.lacks_iff distinct).mp lacked] at missing
      cases missing
    | some name => exact .lacked (Union.isElement_element member) ((Scope.lacks_iff distinct).mpr missing)

theorem ofType_iff {line : Nat} {type : Text} (union : Union.IsUnion type) {issues : List Issue} :
    OfType known scope line type issues ↔ issues = Scope.issues known { scope with line := line } type := by
  rw [Scope.issues_of_isUnion union]
  refine collected_iff ?_
  exact fun member _ issues => ofMember_iff distinct

theorem ofComment_iff {comment : Comment} {issues : List Issue} :
    OfComment known scope comment issues ↔ issues = comment.issues known scope := by
  have each : ∀ tag ∈ VarTag.ofText comment.line comment.text, ∀ issues,
      OfType known scope comment.line tag.type issues ↔
        issues = Scope.issues known { scope with line := comment.line } tag.type :=
    fun tag there issues => ofType_iff distinct ((VarTag.isReading_ofText _ _).isUnion tag there)
  constructor
  · rintro ⟨tags, isReading, collected⟩
    rw [VarTag.isReading_iff.mp isReading] at collected
    exact (collected_iff each).mp collected
  · rintro rfl
    exact ⟨_, VarTag.isReading_ofText _ _, (collected_iff each).mpr rfl⟩

theorem iff_issues {comments : List Comment} {issues : List Issue} :
    Report known scope comments issues
      ↔ issues = comments.flatMap fun comment => comment.issues known scope := by
  refine collected_iff ?_
  exact fun comment _ issues => ofComment_iff distinct

end Report

/-! ### Analyses -/

/-- **The issues of an analysis are the report of the file's comments**, and no other list is one. -/
theorem Analysis.issues_eq_iff_report [Php.Parser] (host : Host) (strategy : Strategy) (scope : Scope)
    (file : Path) (analyzed : PathSet) (content : Text) (issues : List Issue) (distinct : scope.imports.Distinct)
    (included : host.isExcluded file = false) (fresh : analyzed.contains file = false)
    (readable : host.read file = .ok content) :
    (Analysis.run host strategy (some file) scope none analyzed).issues = issues ↔
      Report host.has scope (Comment.ofScript content strategy scope.line) issues := by
  rw [Analysis.run_of_due included fresh none, Report.iff_issues distinct, readable]
  simp only [Analysis.ofText_unlimited]
  exact eq_comm

/-- A union with a known class-like, a template parameter, a list and a built-in type, and a second
annotation in the same comment. -/
theorem Analysis.report_of_two_annotations :
    Report (fun name => name == "\\App\\User".toList)
      { home := some "App".toList, imports := ⟨[("Here".toList, "Else\\There".toList)]⟩,
        templates := ["T".toList] }
      (Comment.ofScript "<?php\n// @var User|T|here\\X[]|int $a @var \\Gone|Foo $b".toList .tokens 1)
      [{ arguments := ["\\Else\\There\\X".toList], file := ⟨[]⟩, line := 2, owner := [] },
        { arguments := ["\\Gone".toList], file := ⟨[]⟩, line := 2, owner := [] },
        { arguments := ["\\App\\Foo".toList], file := ⟨[]⟩, line := 2, owner := [] }] :=
  (Analysis.issues_eq_iff_report
    ⟨fun name => name == "\\App\\User".toList, fun _ => false,
      fun _ => .ok "<?php\n// @var User|T|here\\X[]|int $a @var \\Gone|Foo $b".toList⟩
    .tokens _ (.ofString "a.php") {} _ _ (by decide) rfl rfl rfl).mp (by decide +kernel)

end AnnotationCheck
