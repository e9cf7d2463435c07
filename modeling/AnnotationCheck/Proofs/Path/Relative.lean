import AnnotationCheck.Path.Basic

/-!
What remains of a path, by components.

* `components_eq` — the components of a path are read off its pieces alone.
* `components_trimEnd` — slashes and `.` at the end of a path do not count.
* **`components_of_relativeTo?`** — behind another path, a path goes on with the components that follow
  those of the other.
-/

namespace AnnotationCheck.Path

/-! ### Pieces -/

theorem pieces_ne_nil (bytes : Name) : pieces bytes ≠ [] := Text.fields_ne_nil slash bytes

theorem not_mem_of_mem_pieces {bytes piece : Name} (there : piece ∈ pieces bytes) : slash ∉ piece :=
  Text.not_mem_of_mem_fields there

theorem pieces_intercalate {texts : List Name} (some : texts ≠ []) (clear : ∀ text ∈ texts, slash ∉ text) :
    pieces ([slash].intercalate texts) = texts := Text.fields_intercalate some clear

/-- What the beginning of a list of pieces stands for. -/
def startOf : List Name → List Component
  | [] :: _ :: _ => [.root]
  | first :: _ => if first = dot then [.current] else []
  | [] => []

/-- The beginning of a path is read off its pieces. -/
theorem start_eq (path : Path) : path.start = startOf (pieces path.bytes) := by
  obtain ⟨bytes⟩ := path
  cases bytes with
  | nil => decide
  | cons c rest =>
    by_cases atTop : c = slash
    · subst atTop
      have cut : pieces (slash :: rest) = [] :: pieces rest :=
        Text.fields_append_cons (List.not_mem_nil : slash ∉ ([] : Name)) rest
      obtain ⟨second, more, pieces_rest⟩ := List.exists_cons_of_ne_nil (pieces_ne_nil rest)
      simp [start, isAbsolute, cut, pieces_rest, startOf]
    · obtain ⟨first, more, cut⟩ := List.exists_cons_of_ne_nil (pieces_ne_nil rest)
      have cut' : pieces (c :: rest) = (c :: first) :: more := by
        have whole : Text.fields slash rest = first :: more := cut
        simp [pieces, Text.fields, whole, atTop]
      simp [start, isAbsolute, cut', startOf, atTop]

/-- **The components of a path are read off its pieces.** -/
theorem components_eq (path : Path) :
    path.components = startOf (pieces path.bytes) ++ (pieces path.bytes).filterMap step? := by
  rw [components, start_eq]

theorem components_intercalate {texts : List Name} (some : texts ≠ []) (clear : ∀ text ∈ texts, slash ∉ text) :
    components ⟨[slash].intercalate texts⟩ = startOf texts ++ texts.filterMap step? := by
  rw [components_eq, pieces_intercalate some clear]

/-! ### Pieces that make no step -/

theorem step?_eq_none_iff {piece : Name} : step? piece = none ↔ isIdle piece = true := by
  unfold step?
  split
  · simp_all
  · split <;> simp_all

theorem filterMap_dropWhile_isIdle (texts : List Name) :
    (texts.dropWhile isIdle).filterMap step? = texts.filterMap step? := by
  induction texts with
  | nil => rfl
  | cons piece rest ih =>
    rw [List.dropWhile_cons]
    split
    · rename_i idle
      rw [ih, List.filterMap_cons_none (step?_eq_none_iff.mpr idle)]
    · rfl

theorem filterMap_dropIdleEnd (texts : List Name) :
    (dropIdleEnd texts).filterMap step? = texts.filterMap step? := by
  rw [dropIdleEnd, List.filterMap_reverse, filterMap_dropWhile_isIdle, ← List.filterMap_reverse,
    List.reverse_reverse]

theorem mem_of_mem_dropIdleEnd {texts : List Name} {piece : Name} (there : piece ∈ dropIdleEnd texts) :
    piece ∈ texts := by
  have dropped : piece ∈ texts.reverse.dropWhile isIdle := List.mem_reverse.mp there
  exact List.mem_reverse.mp ((List.dropWhile_sublist isIdle).subset dropped)

/-- Leaving out pieces up to a number of steps leaves out so many components. -/
theorem filterMap_dropSteps (count : Nat) (texts : List Name) :
    (dropSteps count texts).filterMap step? = (texts.filterMap step?).drop count := by
  induction texts generalizing count with
  | nil => cases count <;> rfl
  | cons piece rest ih =>
    cases count with
    | zero => rfl
    | succ count =>
      rw [dropSteps]
      split
      · rename_i idle
        rw [ih, List.filterMap_cons_none (step?_eq_none_iff.mpr idle)]
      · rename_i moves
        cases step : step? piece with
        | none => exact absurd (step?_eq_none_iff.mp step) moves
        | some component => rw [ih, List.filterMap_cons_some step, List.drop_succ_cons]

theorem mem_of_mem_dropSteps {count : Nat} {texts : List Name} {piece : Name}
    (there : piece ∈ dropSteps count texts) : piece ∈ texts := by
  induction texts generalizing count with
  | nil => cases count <;> exact there
  | cons first rest ih =>
    cases count with
    | zero => exact there
    | succ count =>
      rw [dropSteps] at there
      split at there
      · exact List.mem_cons_of_mem first (ih there)
      · exact List.mem_cons_of_mem first (ih there)

/-! ### The end of a path -/

theorem isAbsolute_iff_start {path : Path} : path.isAbsolute = true ↔ path.start = [.root] := by
  unfold start
  split
  · simp_all
  · split <;> simp_all

/-- Slashes and `.` at the end of a path do not count. -/
theorem components_trimEnd (path : Path) : path.trimEnd.components = path.components := by
  obtain ⟨first, rest, cut⟩ := List.exists_cons_of_ne_nil (pieces_ne_nil path.bytes)
  have steps : (first :: dropIdleEnd rest).filterMap step? = (first :: rest).filterMap step? := by
    rw [List.filterMap_cons, List.filterMap_cons, filterMap_dropIdleEnd]
  have absolute : path.isAbsolute = true ↔ startOf (first :: rest) = [.root] := by
    rw [isAbsolute_iff_start, start_eq, cut]
  rw [components_eq path, trimEnd, cut]
  simp only
  split
  · rename_i bare
    -- nothing but the top of the file system
    have atTop := absolute.mp bare.1
    have noSteps : (first :: rest).filterMap step? = [] := by
      cases first with
      | nil => rw [← steps, bare.2]; rfl
      | cons c name => simp only [startOf] at atTop; split at atTop <;> cases atTop
    rw [atTop, noSteps]
    decide
  · rename_i notBare
    have clear : ∀ piece ∈ first :: dropIdleEnd rest, slash ∉ piece := by
      intro piece there
      have member : piece ∈ pieces path.bytes := by
        rw [cut]
        rcases List.mem_cons.mp there with rfl | there
        · exact List.mem_cons_self
        · exact List.mem_cons_of_mem first (mem_of_mem_dropIdleEnd there)
      exact not_mem_of_mem_pieces member
    have starts : startOf (first :: dropIdleEnd rest) = startOf (first :: rest) := by
      cases first with
      | cons c name => rfl
      | nil =>
        cases rest with
        | nil => rfl
        | cons second more =>
          have kept : dropIdleEnd (second :: more) ≠ [] := fun none => notBare ⟨absolute.mpr rfl, none⟩
          obtain ⟨_, _, kept⟩ := List.exists_cons_of_ne_nil kept
          rw [kept]
          rfl
    rw [components_intercalate (List.cons_ne_nil _ _) clear, starts, steps]

/-! ### Behind another path -/

theorem bodySteps_filterMap (texts : List Name) :
    bodySteps (texts.filterMap step?) = (texts.filterMap step?).length := by
  rw [bodySteps, List.countP_eq_length]
  intro component there
  obtain ⟨piece, _, step⟩ := List.mem_filterMap.mp there
  unfold step? at step
  split at step
  · cases step
  · split at step <;> cases step <;> rfl

theorem startOf_cases (texts : List Name) :
    startOf texts = [] ∨ startOf texts = [.root] ∨ startOf texts = [.current] := by
  unfold startOf
  split
  · simp
  · split <;> simp
  · simp

/-- No piece makes the step that a beginning makes. -/
theorem ne_start_of_mem_filterMap {texts : List Name} {component : Component}
    (there : component ∈ texts.filterMap step?) : component ≠ .root ∧ component ≠ .current := by
  obtain ⟨piece, _, step⟩ := List.mem_filterMap.mp there
  unfold step? at step
  split at step
  · cases step
  · split at step <;> cases step <;> simp

/-- A path that goes on behind another one, which is not empty, begins like it. -/
theorem startOf_eq_of_isPrefix {base texts : List Name}
    (some : startOf base ++ base.filterMap step? ≠ [])
    (goesOn : startOf base ++ base.filterMap step? <+: startOf texts ++ texts.filterMap step?) :
    startOf base = startOf texts ∧ base.filterMap step? <+: texts.filterMap step? := by
  -- a component of a beginning stands first, and no piece makes it
  have noneBehind : ∀ {start : Component} {more : List Component}, start :: more <+: texts.filterMap step? →
      start ≠ .root ∧ start ≠ .current :=
    fun found => ne_start_of_mem_filterMap (found.subset List.mem_cons_self)
  have noneBefore : ∀ {start : Component} {more : List Component}, base.filterMap step? ≠ [] →
      base.filterMap step? <+: start :: more → start ≠ .root ∧ start ≠ .current := by
    intro start more some found
    obtain ⟨first, rest, steps⟩ := List.exists_cons_of_ne_nil some
    rw [steps, List.cons_prefix_cons] at found
    rw [← found.1]
    exact ne_start_of_mem_filterMap (steps ▸ List.mem_cons_self)
  rcases startOf_cases base with ofBase | ofBase | ofBase <;>
    rcases startOf_cases texts with ofTexts | ofTexts | ofTexts <;>
    rw [ofBase] at some goesOn ⊢ <;> rw [ofTexts] at goesOn ⊢
  · exact ⟨rfl, goesOn⟩
  · exact absurd rfl (noneBefore some goesOn).1
  · exact absurd rfl (noneBefore some goesOn).2
  · exact absurd rfl (noneBehind goesOn).1
  · exact ⟨rfl, (List.cons_prefix_cons.mp goesOn).2⟩
  · cases (List.cons_prefix_cons.mp goesOn).1
  · exact absurd rfl (noneBehind goesOn).2
  · cases (List.cons_prefix_cons.mp goesOn).1
  · exact ⟨rfl, (List.cons_prefix_cons.mp goesOn).2⟩

/-- Pieces of which the first one makes a step are the components of what they come to. -/
theorem components_of_steps {texts : List Name} (clear : ∀ text ∈ texts, slash ∉ text)
    (moves : ∀ first ∈ texts.head?, isIdle first = false) :
    components ⟨[slash].intercalate texts⟩ = texts.filterMap step? := by
  cases texts with
  | nil => decide
  | cons first rest =>
    rw [components_intercalate (List.cons_ne_nil _ _) clear]
    have firstMoves : isIdle first = false := moves first rfl
    have noStart : startOf (first :: rest) = [] := by
      cases first with
      | nil => cases firstMoves
      | cons c name =>
        refine if_neg fun atDot => ?_
        rw [atDot] at firstMoves
        cases firstMoves
    rw [noStart, List.nil_append]

theorem head?_dropWhile_isIdle (texts : List Name) :
    ∀ first ∈ (texts.dropWhile isIdle).head?, isIdle first = false := by
  induction texts with
  | nil => simp
  | cons piece rest ih =>
    rw [List.dropWhile_cons]
    split
    · exact ih
    · simp_all

theorem head?_dropIdleEnd {texts : List Name} (moves : ∀ first ∈ texts.head?, isIdle first = false) :
    ∀ first ∈ (dropIdleEnd texts).head?, isIdle first = false := by
  cases texts with
  | nil => exact moves
  | cons piece rest =>
    have pieceMoves : isIdle piece = false := moves piece rfl
    have kept : dropIdleEnd (piece :: rest) = piece :: dropIdleEnd rest := by
      simp only [dropIdleEnd, List.reverse_cons, List.dropWhile_append]
      split
      · rename_i none
        have none' : rest.reverse.dropWhile isIdle = [] := by simpa using none
        simp [none', pieceMoves]
      · simp
    rw [kept]
    simpa using pieceMoves

/-- **What remains of a path behind another one** has the components that follow those of the other. -/
theorem components_of_relativeTo? {path base rest : Path} (found : path.relativeTo? base = some rest) :
    rest.components = path.components.drop base.components.length := by
  unfold relativeTo? at found
  split at found
  · cases found
  · rename_i goesOn
    split at found
    · rename_i none
      cases found
      rw [components_trimEnd, none]
      rfl
    · rename_i some
      cases found
      have isPrefix : base.components <+: path.components := by simpa [startsWith] using goesOn
      rw [components_eq base, components_eq path] at isPrefix
      obtain ⟨starts, _⟩ := startOf_eq_of_isPrefix (components_eq base ▸ some) isPrefix
      have count : bodySteps base.components = ((pieces base.bytes).filterMap step?).length := by
        rw [components_eq, bodySteps, List.countP_append]
        have none : (startOf (pieces base.bytes)).countP
            (fun component => component != .root && component != .current) = 0 := by
          rcases startOf_cases (pieces base.bytes) with start | start | start <;> rw [start] <;> rfl
        rw [none, Nat.zero_add]
        exact bodySteps_filterMap _
      rw [components_of_steps, filterMap_dropIdleEnd, filterMap_dropWhile_isIdle, filterMap_dropSteps, count,
        components_eq path, components_eq base, starts, List.length_append, List.drop_append]
      · simp
      · intro piece there
        have kept := (List.dropWhile_sublist isIdle).subset (mem_of_mem_dropIdleEnd there)
        exact not_mem_of_mem_pieces (mem_of_mem_dropSteps kept)
      · exact head?_dropIdleEnd (head?_dropWhile_isIdle _)

/-- There is something behind another path exactly if the path begins with its components. -/
theorem isSome_relativeTo?_iff {path base : Path} :
    (path.relativeTo? base).isSome = true ↔ base.components <+: path.components := by
  unfold relativeTo?
  have begins : path.startsWith base = true ↔ base.components <+: path.components := List.isPrefixOf_iff_prefix
  split
  · simp_all
  · split <;> simp_all

/-- **The components of a relative path** depend on the components alone. -/
theorem components_relativeTo (path base : Path) :
    (path.relativeTo base).components
      = if base.components <+: path.components then path.components.drop base.components.length
        else path.components := by
  rw [relativeTo]
  cases found : path.relativeTo? base with
  | none =>
    have elsewhere : ¬ base.components <+: path.components := by simp [← isSome_relativeTo?_iff, found]
    rw [if_neg elsewhere, Option.getD_none]
  | some rest =>
    have below : base.components <+: path.components := isSome_relativeTo?_iff.mp (by rw [found]; rfl)
    rw [if_pos below, Option.getD_some, components_of_relativeTo? found]

theorem Same.relativeTo {left right : Path} (same : left.Same right) (base : Path) :
    (left.relativeTo base).Same (right.relativeTo base) := by
  have components : left.components = right.components := same
  show (left.relativeTo base).components = (right.relativeTo base).components
  rw [components_relativeTo, components_relativeTo, components]

end AnnotationCheck.Path
