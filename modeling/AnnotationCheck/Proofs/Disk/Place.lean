import AnnotationCheck.Disk.Basic
import AnnotationCheck.Proofs.Path.Join

/-!
The places of a disk that is a tree.

`Disk.IsTree` says that directories give legal names, and each name once. What stands in a tree is one
(`IsTree.at?`).

* `place?_eq_ok_iff` — a path leads where its steps lead.
* **`same_of_place?`** — two paths that go on behind one base by entries alone, and lead to one place, have
  the same components.
-/

namespace AnnotationCheck.Disk

/-! ### Trees -/

/-- A name that a directory can give. -/
structure IsName (name : Path.Name) : Prop where
  notEmpty : name ≠ []
  notDot : name ≠ Path.dot
  notDots : name ≠ Path.dots
  clear : Path.slash ∉ name

instance (name : Path.Name) : Decidable (IsName name) :=
  decidable_of_iff (name ≠ [] ∧ name ≠ Path.dot ∧ name ≠ Path.dots ∧ Path.slash ∉ name)
    ⟨fun ⟨notEmpty, notDot, notDots, clear⟩ => ⟨notEmpty, notDot, notDots, clear⟩,
      fun ⟨notEmpty, notDot, notDots, clear⟩ => ⟨notEmpty, notDot, notDots, clear⟩⟩

theorem IsName.isStep {name : Path.Name} (legal : IsName name) : (Path.Component.entry name).IsStep := by
  refine ⟨legal.clear, ?_⟩
  show Path.step? name = some (.entry name)
  rw [Path.step?, if_neg (by simp [Path.isIdle, legal.notEmpty, legal.notDot]), if_neg legal.notDots]

/-- An entry whose directories give legal names, each one once. -/
inductive Entry.IsTree : Entry → Prop
  | file (content : Content) : IsTree (.file content)
  | directory {entries : Entries} (legal : ∀ member ∈ entries, IsName member.1)
      (distinct : (entries.map Prod.fst).Nodup) (all : ∀ member ∈ entries, member.2.IsTree) :
      IsTree (.directory entries)

/-- A disk whose directories give legal names, each one once. -/
def IsTree (disk : Disk) : Prop := (Entry.directory disk.top).IsTree

/-! ### What stands at a place -/

theorem mem_of_find? {entries : Entries} {name : Path.Name} {entry : Entry}
    (found : entries.find? name = some entry) : (name, entry) ∈ entries := by
  obtain ⟨before, after, whole, -⟩ := List.lookup_eq_some_iff.mp found
  rw [whole]
  exact List.mem_append_right before List.mem_cons_self

variable {disk : Disk} {place : Place} {entries : Entries} {entry : Entry} {name : Path.Name}

theorem Entry.IsTree.entryAt? {top : Entries} (isTree : (Entry.directory top).IsTree)
    (stands : entryAt? place top = some entry) : entry.IsTree := by
  fun_induction Disk.entryAt? place top with
  | case1 top =>
    cases stands
    exact isTree
  | case2 first top =>
    cases isTree with
    | directory _ _ all => exact all _ (mem_of_find? stands)
  | case3 first rest top notEnd inner found ih =>
    cases isTree with
    | directory _ _ all => exact ih (all _ (mem_of_find? found)) stands
  | case4 => cases stands

/-- What stands in a tree is a tree. -/
theorem IsTree.at? (isTree : disk.IsTree) (stands : disk.at? place = some entry) : entry.IsTree :=
  Entry.IsTree.entryAt? isTree stands

/-! ### Steps -/

theorem exists_of_bind_eq_ok {Value Result : Type} {tried : Except ReadError Value}
    {rest : Value → Except ReadError Result} {result : Result} (went : tried >>= rest = .ok result) :
    ∃ value, tried = .ok value ∧ rest value = .ok result := by
  cases tried with
  | error reason => cases went
  | ok value => exact ⟨value, rfl, went⟩

/-- A step to an entry leads one name further down, or nowhere. -/
theorem eq_of_step_entry {next : Place} (went : disk.step place (.entry name) = .ok next) :
    next = place ++ [name] := by
  unfold step at went
  split at went
  · cases went
  · cases went
  · simp only at went
    split at went
    · cases went
      rfl
    · cases went

theorem eq_of_step_current {next : Place} (went : disk.step place .current = .ok next) : next = place := by
  unfold step at went
  split at went <;> cases went
  rfl

/-- Steps to entries lead down along their names, or nowhere. -/
theorem eq_of_foldlM_step {names next : Place}
    (went : (names.map Path.Component.entry).foldlM disk.step place = .ok next) : next = place ++ names := by
  induction names generalizing place with
  | nil =>
    cases went
    exact (List.append_nil _).symm
  | cons name rest ih =>
    rw [List.map_cons, List.foldlM_cons] at went
    obtain ⟨between, first, went⟩ := exists_of_bind_eq_ok went
    rw [ih went, eq_of_step_entry first, List.append_assoc]
    rfl

/-! ### Paths -/

variable {path base : Path}

/-- Where the steps of a path begin. -/
def origin (disk : Disk) (path : Path) : Place := if path.isAbsolute then [] else disk.here

theorem place?_eq_ok_iff :
    disk.place? path = .ok place
      ↔ path.bytes ≠ [] ∧ path.components.foldlM disk.step (disk.origin path) = .ok place
        ∧ (asksDirectory path = true → disk.step place .current = .ok place) := by
  unfold place?
  by_cases empty : path.bytes = []
  · simp [empty]
  rw [if_neg empty]
  constructor
  · intro leads
    obtain ⟨next, went, leads⟩ := exists_of_bind_eq_ok leads
    split at leads
    · obtain rfl := eq_of_step_current leads
      exact ⟨empty, went, fun _ => leads⟩
    · rename_i asksNot
      cases leads
      exact ⟨empty, went, fun asks => absurd asks asksNot⟩
  · rintro ⟨-, went, stays⟩
    have start : (if path.isAbsolute then [] else disk.here) = disk.origin path := rfl
    rw [start, went]
    show (if asksDirectory path then disk.step place .current else pure place) = _
    split
    · rename_i asks
      exact stays asks
    · rfl

theorem components_join_name (some : base.bytes ≠ []) (legal : IsName name) :
    (base.join ⟨name⟩).components = base.components ++ [name].map .entry := legal.isStep.components_join some

/-! ### Paths to one place -/

/-- A place leads back to the entries behind a base. -/
theorem exists_place_of_entries {names : Place} (below : path.components = base.components ++ names.map .entry)
    (leads : disk.place? path = .ok place) :
    ∃ top, base.components.foldlM disk.step (disk.origin base) = .ok top ∧ place = top ++ names := by
  obtain ⟨-, went, -⟩ := place?_eq_ok_iff.mp leads
  rw [origin, Path.isAbsolute_of_entries below, ← origin, below, List.foldlM_append] at went
  obtain ⟨top, first, went⟩ := exists_of_bind_eq_ok went
  exact ⟨top, first, eq_of_foldlM_step went⟩

/-- **Two paths to one place** that go on behind one base by entries alone have the same components. -/
theorem same_of_place? {left right : Path} {names others : Place}
    (ofLeft : left.components = base.components ++ names.map .entry)
    (ofRight : right.components = base.components ++ others.map .entry)
    (leadsLeft : disk.place? left = .ok place) (leadsRight : disk.place? right = .ok place) : left.Same right := by
  obtain ⟨top, went, whole⟩ := exists_place_of_entries ofLeft leadsLeft
  obtain ⟨top', went', whole'⟩ := exists_place_of_entries ofRight leadsRight
  obtain rfl : top = top' := Except.ok.inj (went.symm.trans went')
  have same : names = others := List.append_cancel_left (whole.symm.trans whole')
  rw [Path.Same, ofLeft, ofRight, same]

/-- Paths of the same components lead to one place, where they lead to one. -/
theorem place?_eq_of_same {left right : Path} {other : Place} (same : left.Same right)
    (leadsLeft : disk.place? left = .ok place) (leadsRight : disk.place? right = .ok other) :
    place = other := by
  have below : left.components = right.components ++ ([] : Place).map .entry :=
    same.trans (List.append_nil _).symm
  obtain ⟨top, went, whole⟩ := exists_place_of_entries below leadsLeft
  obtain ⟨-, went', -⟩ := place?_eq_ok_iff.mp leadsRight
  rw [whole, List.append_nil]
  exact Except.ok.inj (went.symm.trans went')

end AnnotationCheck.Disk
