import AnnotationCheck.Proofs.Analysis.Report
import AnnotationCheck.Proofs.Comment.Located
import AnnotationCheck.Proofs.VarTag.Places

/-!
The places of a script at which issues arise, and the order of these places.

* `ArisesInOrder` — findings that arise at places one behind the other; `ArisesInOrder.flatMap` puts lists of
  them together.
* `Place`, `Place.Before` — a member of the type of an annotation in a comment. Places are ordered by comments,
  in one comment by annotations, and in one annotation by members.
* `ArisesAt` — at a place, a member of a type is written for the first time, and the scope lacks its element.
* **`arisesInOrder_issues`** — the issues of the comments of a script arise at places one behind the other, if the
  parser gives the comments in the order of the script.
-/

namespace AnnotationCheck

/-! ### Findings in the order of their places -/

section ArisesInOrder

variable {Spot Found Item : Type} {Before : Spot → Spot → Prop} {arises : Spot → Found → Prop}

/-- Findings that arise at places one behind the other. -/
def ArisesInOrder (Before : Spot → Spot → Prop) (arises : Spot → Found → Prop) (found : List Found) : Prop :=
  ∃ placed : List (Spot × Found), placed.map Prod.snd = found ∧ (∀ entry ∈ placed, arises entry.1 entry.2)
    ∧ placed.Pairwise fun entry next => Before entry.1 next.1

namespace ArisesInOrder

theorem nil : ArisesInOrder Before arises [] := ⟨[], rfl, by simp, .nil⟩

theorem singleton {spot : Spot} {found : Found} (here : arises spot found) : ArisesInOrder Before arises [found] :=
  ⟨[(spot, found)], rfl, by simpa using here, List.pairwise_singleton _ _⟩

theorem mono {found : List Found} {more : Spot → Found → Prop} (listed : ArisesInOrder Before arises found)
    (kept : ∀ spot finding, arises spot finding → more spot finding) : ArisesInOrder Before more found := by
  obtain ⟨placed, same, arise, inOrder⟩ := listed
  exact ⟨placed, same, fun entry there => kept _ _ (arise entry there), inOrder⟩

/-- Items that lie one behind the other, with findings one behind the other in each of them. -/
theorem flatMap {items : List Item} {parts : Item → List Found} (within : Item → Spot → Found → Prop)
    (apart : items.Pairwise fun item next => ∀ {spot finding other place}, within item spot finding →
      within next place other → Before spot place)
    (each : ∀ item ∈ items, ArisesInOrder Before (within item) (parts item)) :
    ArisesInOrder Before (fun spot finding => ∃ item ∈ items, within item spot finding) (items.flatMap parts) := by
  induction items with
  | nil => exact .nil
  | cons item rest ih =>
    obtain ⟨apartFirst, apart⟩ := List.pairwise_cons.mp apart
    obtain ⟨first, sameFirst, ariseFirst, orderFirst⟩ := each item List.mem_cons_self
    obtain ⟨later, sameLater, ariseLater, orderLater⟩ :=
      ih apart fun next there => each next (List.mem_cons_of_mem item there)
    refine ⟨first ++ later, ?_, fun entry there => ?_, List.pairwise_append.mpr ⟨orderFirst, orderLater, ?_⟩⟩
    · rw [List.map_append, sameFirst, sameLater, List.flatMap_cons]
    · rcases List.mem_append.mp there with there | there
      · exact ⟨item, List.mem_cons_self, ariseFirst entry there⟩
      · obtain ⟨next, isNext, inside⟩ := ariseLater entry there
        exact ⟨next, List.mem_cons_of_mem item isNext, inside⟩
    · intro entry there next isLater
      obtain ⟨other, isOther, inside⟩ := ariseLater next isLater
      exact apartFirst other isOther (ariseFirst entry there) inside

end ArisesInOrder

end ArisesInOrder

/-! ### Members in the order in which they are written -/

theorem Text.pairwise_idxOf_distinct (texts : List Text) :
    (distinct texts).Pairwise fun text next => texts.idxOf text < texts.idxOf next := by
  induction texts with
  | nil => exact .nil
  | cons first rest ih =>
    have behind : ∀ text ∈ (distinct rest).filter (· != first),
        (first :: rest).idxOf text = rest.idxOf text + 1 := by
      intro text there
      have other : text ≠ first := bne_iff_ne.mp (List.mem_filter.mp there).2
      exact List.idxOf_cons_ne rest other.symm
    rw [distinct]
    refine .cons (fun text there => ?_) ((ih.sublist List.filter_sublist).imp_of_mem ?_)
    · rw [List.idxOf_cons_self, behind text there]
      exact Nat.succ_pos _
    · intro text next there isNext inOrder
      rw [behind text there, behind next isNext]
      exact Nat.succ_lt_succ inOrder

/-! ### Places -/

/-- A place of a script that names a class-like. -/
structure Place where
  /-- The bytes of the script that the comment takes up. -/
  comment : Range
  /-- The bytes of the comment that the annotation takes up. -/
  annotation : Range
  /-- The number of members that stand ahead in the type. -/
  member : Nat
  deriving DecidableEq, Repr

/-- Places one behind the other: in comments one behind the other or, in one comment, in annotations one behind
the other or, in one annotation, as members one behind the other. -/
def Place.Before (place next : Place) : Prop :=
  place.comment.stop ≤ next.comment.start
    ∨ place.comment = next.comment ∧ (place.annotation.stop ≤ next.annotation.start
      ∨ place.annotation = next.annotation ∧ place.member < next.member)

section Arises

variable [Php.Parser] {known : Text → Bool} {scope : Scope} {strategy : Strategy} {script : Text}

variable (known scope strategy script) in
/-- An issue arises at a place: an annotation stands there in a comment, the member is written there for the
first time in its type, and the scope lacks the element of the member. -/
inductive ArisesAt : Place → Issue → Prop
  | intro {range annotation : Range} {comment : Comment} {tag : VarTag} {member element name : Text} :
      Comment.StandsAt script scope.line strategy range comment →
      VarTag.StandsOn comment.line comment.text annotation tag →
      member ∈ Text.fields '|' tag.type → Union.IsElement member element → scope.Lacks known element name →
      ArisesAt ⟨range, annotation, (Text.fields '|' tag.type).idxOf member⟩
        { arguments := [name], file := scope.file, line := comment.line, owner := scope.owner }

variable {range annotation : Range} {comment : Comment} {tag : VarTag}

/-- The issues of the type of an annotation arise at its members, as these are written. -/
theorem arisesInOrder_type (there : Comment.StandsAt script scope.line strategy range comment)
    (stands : VarTag.StandsOn comment.line comment.text annotation tag) (union : Union.IsUnion tag.type) :
    ArisesInOrder Place.Before
      (fun place issue => place.comment = range ∧ place.annotation = annotation
        ∧ ArisesAt known scope strategy script place issue)
      (Scope.issues known { scope with line := comment.line } tag.type) := by
  rw [Scope.issues_of_isUnion union]
  refine (ArisesInOrder.flatMap (fun member place issue =>
    place = ⟨range, annotation, (Text.fields '|' tag.type).idxOf member⟩
      ∧ ArisesAt known scope strategy script place issue) ?apart ?each).mono ?kept
  case apart =>
    refine (Text.pairwise_idxOf_distinct _).imp fun {member next} ahead => ?_
    rintro place issue other placeNext ⟨rfl, -⟩ ⟨rfl, -⟩
    exact .inr ⟨rfl, .inr ⟨rfl, ahead⟩⟩
  case each =>
    intro member isMember
    cases missing : (Reference.ofName? scope.templates (Union.element member)).bind (scope.missing? known) with
    | none => exact .nil
    | some name =>
      exact .singleton ⟨rfl, .intro there stands (Text.mem_distinct.mp isMember) (Union.isElement_element member)
        (Scope.lacks_of_missing missing)⟩
  case kept =>
    rintro place issue ⟨member, -, rfl, arises⟩
    exact ⟨rfl, rfl, arises⟩

/-- The issues of a comment arise in its annotations, from left to right. -/
theorem arisesInOrder_comment (there : Comment.StandsAt script scope.line strategy range comment) :
    ArisesInOrder Place.Before
      (fun place issue => place.comment = range ∧ ArisesAt known scope strategy script place issue)
      (comment.issues known scope) := by
  obtain ⟨found, finds⟩ := VarTag.exists_finds comment.line [] comment.text
  rw [Comment.issues, ← finds.tags, List.flatMap_map]
  refine (ArisesInOrder.flatMap (fun entry place issue => place.comment = range ∧ place.annotation = entry.1
    ∧ ArisesAt known scope strategy script place issue) ?apart ?each).mono ?kept
  case apart =>
    refine finds.apart.imp fun {entry next} ahead => ?_
    rintro place issue other placeNext ⟨inComment, inEntry, -⟩ ⟨inSame, inNext, -⟩
    refine .inr ⟨inComment.trans inSame.symm, .inl ?_⟩
    rw [inEntry, inNext]
    exact ahead
  case each =>
    intro entry isEntry
    have isTag : entry.2 ∈ VarTag.ofText comment.line comment.text := by
      rw [← finds.tags]
      exact List.mem_map_of_mem isEntry
    exact arisesInOrder_type there (finds.stands entry isEntry).1
      ((VarTag.isReading_ofText comment.line comment.text).isUnion entry.2 isTag)
  case kept =>
    rintro place issue ⟨entry, -, inComment, -, arises⟩
    exact ⟨inComment, arises⟩

/-- **The issues of the comments of a script arise at places one behind the other**, if the parser gives the comments
in the order of the script. -/
theorem arisesInOrder_issues (known : Text → Bool) (scope : Scope) (strategy : Strategy) {script : Text}
    (inOrder : Comment.AreInOrderIn script) :
    ArisesInOrder Place.Before (ArisesAt known scope strategy script)
      ((Comment.ofScript script strategy scope.line).flatMap fun comment => comment.issues known scope) := by
  have isLocated := Comment.isLocated_located script strategy scope.line
  rw [← isLocated.comments, List.flatMap_map]
  refine (ArisesInOrder.flatMap (fun entry place issue => place.comment = entry.1
    ∧ ArisesAt known scope strategy script place issue) ?apart ?each).mono ?kept
  case apart =>
    refine (isLocated.apart inOrder).imp fun {entry next} ahead => ?_
    rintro place issue other placeNext ⟨inEntry, -⟩ ⟨inNext, -⟩
    refine .inl ?_
    rw [inEntry, inNext]
    exact ahead
  case each => exact fun entry isEntry => arisesInOrder_comment (isLocated.stand entry isEntry)
  case kept =>
    rintro place issue ⟨entry, -, -, arises⟩
    exact arises

end Arises

end AnnotationCheck
