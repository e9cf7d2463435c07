import AnnotationCheck.Docblock.Placement
import AnnotationCheck.Proofs.Php.Comments

/-!
The docblock that belongs to a place.

* `InOrder` — trivia that stand one behind the other in a script; those that the parser of this library gives do
  (`inOrder_trivia`).
* `IsClear` — between two places there is nothing but blanks and some trivia.
* `BelongsTo` — a docblock is the last one before a place, and the way from it to the place is clear.
* `isClear_cons_iff` — one step back over the trivia; `search_eq_some_iff`: the whole way.
* **`before?_eq_some_iff`** — the docblock that is found is the one that belongs to the place.
* **`docblock_of_place`** — so none belongs to two places at which there is code.
-/

namespace AnnotationCheck.Docblock

/-! ### Trivia in their order -/

/-- Trivia that stand one behind the other in a script. -/
structure InOrder (script : Text) (trivia : List Php.Trivia) : Prop where
  apart : trivia.Pairwise fun piece next => piece.stop ≤ next.start
  forward : ∀ piece ∈ trivia, piece.start ≤ piece.stop
  inText : ∀ piece ∈ trivia, piece.stop ≤ Text.size script

/-- A byte of a script is a blank. -/
def IsBlankAt (script : Text) (offset : Nat) : Prop := ((Text.bytes script)[offset]?).any isBlankByte = true

/-- Between two places of a script there is nothing but blanks and the given trivia. -/
def IsClear (script : Text) (trivia : List Php.Trivia) (start stop : Nat) : Prop :=
  ∀ offset, start ≤ offset → offset < stop →
    IsBlankAt script offset ∨ ∃ piece ∈ trivia, piece.start ≤ offset ∧ offset < piece.stop

/-- A docblock is the last one that begins before a place, and from there to the place the way is clear. -/
structure BelongsTo (script : Text) (trivia : List Php.Trivia) (docblock : Php.Trivia) (place : Nat) : Prop where
  kind_eq : docblock.kind = .docblock
  start_lt : docblock.start < place
  last : ∃ earlier later, trivia = earlier ++ docblock :: later
    ∧ (∀ piece ∈ later, piece.kind = .docblock → place ≤ piece.start)
    ∧ IsClear script later docblock.stop place

/-! ### One step back -/

/-- The bytes between two places are blanks exactly if the way is clear without any trivia. -/
theorem all_bytesBetween_iff {script : Text} {start stop : Nat} (inText : stop ≤ Text.size script) :
    (Text.bytesBetween script start stop).all isBlankByte = true ↔ IsClear script [] start stop := by
  unfold IsClear IsBlankAt
  by_cases inOrder : start ≤ stop
  · rw [Text.bytesBetween_of_le inOrder inText, List.all_eq_true]
    constructor
    · intro blanks offset behind ahead
      have inside : offset < (Text.bytes script).length := by rw [Text.length_bytes]; omega
      refine .inl ?_
      rw [List.getElem?_eq_getElem inside, Option.any_some]
      refine blanks _ (List.mem_iff_getElem?.mpr ⟨offset - start, ?_⟩)
      rw [List.getElem?_take_of_lt (by omega), List.getElem?_drop, Nat.add_sub_cancel' behind,
        List.getElem?_eq_getElem inside]
    · intro clear byte there
      obtain ⟨index, found⟩ := List.mem_iff_getElem?.mp there
      have short : index < stop - start := by
        have := (List.getElem?_eq_some_iff.mp found).1
        rw [List.length_take] at this
        omega
      rw [List.getElem?_take_of_lt short, List.getElem?_drop] at found
      have blank := clear (start + index) (Nat.le_add_right _ _) (by omega)
      simpa [found] using blank
  · have none : Text.bytesBetween script start stop = [] := if_neg fun range => inOrder range.1
    rw [none]
    exact iff_of_true rfl fun offset behind ahead => absurd (Nat.le_trans behind (Nat.le_of_lt ahead)) inOrder

/-- **One step back**: over a piece, the way is clear exactly if there are blanks behind the piece and the way is
clear ahead of it. -/
theorem isClear_cons_iff {script : Text} {piece : Php.Trivia} {others : List Php.Trivia} {start stop : Nat}
    (forward : piece.start ≤ piece.stop) (behind : ∀ other ∈ others, other.stop ≤ piece.start)
    (fromBefore : start ≤ piece.start) (upTo : piece.start ≤ stop) :
    IsClear script (piece :: others) start stop
      ↔ IsClear script [] piece.stop stop ∧ IsClear script others start piece.start := by
  constructor
  · intro clear
    constructor
    · -- nothing of the list reaches behind the piece
      intro offset isBehind ahead
      refine .inl ((clear offset (by omega) ahead).resolve_right ?_)
      rintro ⟨other, there, -, inOther⟩
      rcases List.mem_cons.mp there with rfl | there
      · omega
      · have := behind other there
        omega
    · intro offset isBehind ahead
      refine (clear offset isBehind (by omega)).imp_right ?_
      rintro ⟨other, there, inOther⟩
      rcases List.mem_cons.mp there with rfl | there
      · omega
      · exact ⟨other, there, inOther⟩
  · rintro ⟨blanks, clear⟩ offset isBehind ahead
    by_cases before : offset < piece.start
    · refine (clear offset isBehind before).imp_right ?_
      rintro ⟨other, there, inOther⟩
      exact ⟨other, List.mem_cons_of_mem _ there, inOther⟩
    · by_cases inside : offset < piece.stop
      · exact .inr ⟨piece, List.mem_cons_self, by omega, inside⟩
      · exact .inl ((blanks offset (by omega) ahead).resolve_right (by simp))

/-! ### The whole way -/

/-- The trivia `late` lie behind a docblock with the given text, and are none themselves; from the docblock to a
place the way is clear. -/
structure Leads (script : Text) (late : List Php.Trivia) (docblock : Php.Trivia) (place : Nat) (text : Text) :
    Prop where
  kind_eq : docblock.kind = .docblock
  text_eq : docblock.text = text
  others : ∀ piece ∈ late, piece.kind ≠ .docblock
  isClear : IsClear script late docblock.stop place

/-- **The search finds a docblock** exactly if it is the first one on the way back and the way is clear. -/
theorem search_eq_some_iff {script text : Text} {boundary : Nat} {back : List Php.Trivia}
    (apart : back.Pairwise fun piece earlier => earlier.stop ≤ piece.start)
    (forward : ∀ piece ∈ back, piece.start ≤ piece.stop) (before : ∀ piece ∈ back, piece.start ≤ boundary)
    (inText : boundary ≤ Text.size script) :
    search script boundary back = some text
      ↔ ∃ late docblock early, back = late ++ docblock :: early ∧ Leads script late docblock boundary text := by
  induction back generalizing boundary with
  | nil => simp [search]
  | cons piece rest ih =>
    obtain ⟨behind, apart⟩ := List.pairwise_cons.mp apart
    obtain ⟨inPiece, forward⟩ := List.forall_mem_cons.mp forward
    have upTo : piece.start ≤ boundary := before piece List.mem_cons_self
    have further : search script piece.start rest = some text
        ↔ ∃ late docblock early, rest = late ++ docblock :: early ∧ Leads script late docblock piece.start text :=
      ih apart forward (fun earlier there => Nat.le_trans (forward earlier there) (behind earlier there)) (by omega)
    -- the way over the piece to a docblock ahead of it
    have stepBack : ∀ {late docblock early}, rest = late ++ docblock :: early →
        (IsClear script (piece :: late) docblock.stop boundary
          ↔ IsClear script [] piece.stop boundary ∧ IsClear script late docblock.stop piece.start) := by
      rintro late docblock early rfl
      exact isClear_cons_iff inPiece (fun other there => behind other (List.mem_append_left _ there))
        (behind docblock (List.mem_append_right late List.mem_cons_self)) upTo
    have blanks : (Text.bytesBetween script piece.stop boundary).all isBlankByte = true
        ↔ IsClear script [] piece.stop boundary := all_bytesBetween_iff inText
    constructor
    · intro found
      rw [search] at found
      split at found
      · rename_i allBlank
        split at found
        · rename_i isDocblock
          exact ⟨[], piece, rest, rfl, isDocblock, Option.some.inj found, by simp, blanks.mp allBlank⟩
        · rename_i isOther
          obtain ⟨late, docblock, early, cut, leads⟩ := further.mp found
          refine ⟨piece :: late, docblock, early, by rw [cut, List.cons_append], leads.kind_eq, leads.text_eq, ?_,
            (stepBack cut).mpr ⟨blanks.mp allBlank, leads.isClear⟩⟩
          exact List.forall_mem_cons.mpr ⟨isOther, leads.others⟩
      · cases found
    · rintro ⟨late, docblock, early, cut, leads⟩
      rw [search]
      cases late with
      | nil =>
        obtain ⟨rfl, rfl⟩ := List.cons.inj cut
        rw [if_pos (blanks.mpr leads.isClear), if_pos leads.kind_eq, leads.text_eq]
      | cons first late =>
        obtain ⟨rfl, behindToken⟩ := List.cons.inj cut
        obtain ⟨isOther, others⟩ := List.forall_mem_cons.mp leads.others
        obtain ⟨allBlank, isClear⟩ := (stepBack behindToken).mp leads.isClear
        rw [if_pos (blanks.mpr allBlank), if_neg isOther]
        exact further.mpr ⟨late, docblock, early, behindToken, leads.kind_eq, leads.text_eq, others, isClear⟩

/-! ### Places -/

/-- The trivia that begin before a place stand first. -/
theorem takeWhile_eq_filter {trivia : List Php.Trivia}
    (apart : trivia.Pairwise fun piece next => piece.stop ≤ next.start)
    (forward : ∀ piece ∈ trivia, piece.start ≤ piece.stop) (place : Nat) :
    (trivia.takeWhile fun piece => decide (piece.start < place))
      = trivia.filter fun piece => decide (piece.start < place) := by
  induction trivia with
  | nil => rfl
  | cons piece rest ih =>
    obtain ⟨behind, apart⟩ := List.pairwise_cons.mp apart
    obtain ⟨inPiece, forward⟩ := List.forall_mem_cons.mp forward
    rw [List.takeWhile_cons, List.filter_cons]
    by_cases before : piece.start < place
    · simp only [before, decide_true, if_true, ih apart forward]
    · have none : ∀ next ∈ rest, ¬ decide (next.start < place) = true := by
        intro next there
        have := behind next there
        simp only [decide_eq_true_eq]
        omega
      simp only [before, decide_false, Bool.false_eq_true, if_false, List.filter_eq_nil_iff.mpr none]

theorem IsClear.mono {script : Text} {trivia more : List Php.Trivia} {start stop : Nat}
    (isClear : IsClear script trivia start stop)
    (kept : ∀ piece ∈ trivia, piece.start < stop → piece ∈ more) : IsClear script more start stop := by
  intro offset behind ahead
  refine (isClear offset behind ahead).imp_right ?_
  rintro ⟨piece, there, starts, stops⟩
  exact ⟨piece, kept piece there (Nat.lt_of_le_of_lt starts ahead), starts, stops⟩

/-- **The docblock that is found is the one that belongs to the place.** -/
theorem before?_eq_some_iff {script : Text} {trivia : List Php.Trivia} (inOrder : InOrder script trivia) {place : Nat}
    (inText : place ≤ Text.size script) {text : Text} :
    before? script trivia place = some text
      ↔ ∃ docblock, BelongsTo script trivia docblock place ∧ docblock.text = text := by
  have back : ((trivia.filter fun piece => decide (piece.start < place)).reverse).Pairwise
      fun piece earlier => earlier.stop ≤ piece.start :=
    List.pairwise_reverse.mpr (inOrder.apart.sublist List.filter_sublist)
  have ends : ∀ piece ∈ (trivia.filter fun piece => decide (piece.start < place)).reverse,
      piece.start ≤ piece.stop := fun piece there =>
    inOrder.forward piece (List.mem_filter.mp (List.mem_reverse.mp there)).1
  have begins : ∀ piece ∈ (trivia.filter fun piece => decide (piece.start < place)).reverse,
      piece.start ≤ place := by
    intro piece there
    exact Nat.le_of_lt (of_decide_eq_true (List.mem_filter.mp (List.mem_reverse.mp there)).2)
  rw [before?, takeWhile_eq_filter inOrder.apart inOrder.forward,
    search_eq_some_iff back ends begins inText]
  constructor
  · rintro ⟨late, docblock, early, cut, leads⟩
    have forward := List.reverse_eq_iff.mp cut
    rw [List.reverse_append, List.reverse_cons, List.append_assoc, List.singleton_append] at forward
    obtain ⟨earlier, rest, rfl, -, fromDocblock⟩ := List.filter_eq_append_iff.mp forward
    obtain ⟨between, later, rfl, -, before, fromLater⟩ := List.filter_eq_cons_iff.mp fromDocblock
    have isLate : ∀ piece, piece ∈ late ↔ piece ∈ later ∧ piece.start < place := by
      intro piece
      rw [← List.mem_reverse, ← fromLater, List.mem_filter, decide_eq_true_eq]
    refine ⟨docblock, ⟨leads.kind_eq, of_decide_eq_true before, earlier ++ between, later, by simp, ?_, ?_⟩,
      leads.text_eq⟩
    · exact fun piece there isDocblock => Nat.le_of_not_lt fun begins =>
        leads.others piece ((isLate piece).mpr ⟨there, begins⟩) isDocblock
    · exact leads.isClear.mono fun piece there _ => ((isLate piece).mp there).1
  · rintro ⟨docblock, ⟨isDocblock, before, earlier, later, rfl, others, isClear⟩, rfl⟩
    refine ⟨(later.filter fun piece => decide (piece.start < place)).reverse, docblock,
      (earlier.filter fun piece => decide (piece.start < place)).reverse, ?_, isDocblock, rfl, ?_, ?_⟩
    · rw [List.filter_append, List.filter_cons_of_pos (by simpa using before)]
      simp
    · intro piece there sameKind
      obtain ⟨there, begins⟩ := List.mem_filter.mp (List.mem_reverse.mp there)
      exact absurd (of_decide_eq_true begins) (Nat.not_lt.mpr (others piece there sameKind))
    · exact isClear.mono fun piece there begins =>
        List.mem_reverse.mpr (List.mem_filter.mpr ⟨there, decide_eq_true begins⟩)

/-- There is code at a place: a byte that is no blank and lies in no trivia. -/
structure IsCode (script : Text) (trivia : List Php.Trivia) (place : Nat) : Prop where
  inText : place < Text.size script
  notBlank : ¬ IsBlankAt script place
  outside : ∀ piece ∈ trivia, ¬ (piece.start ≤ place ∧ place < piece.stop)

/-- The way to a later place leads over the code at an earlier one. -/
theorem not_belongsTo_of_lt {script : Text} {trivia : List Php.Trivia} {docblock : Php.Trivia} {place later : Nat}
    (isCode : IsCode script trivia place) (ahead : place < later)
    (belongs : BelongsTo script trivia docblock place) : ¬ BelongsTo script trivia docblock later := by
  rintro ⟨-, -, early, late, rfl, -, isClear⟩
  have behind : docblock.stop ≤ place := by
    have outside := isCode.outside docblock (List.mem_append_right early List.mem_cons_self)
    have before := belongs.start_lt
    omega
  rcases isClear place behind ahead with blank | ⟨piece, there, inToken⟩
  · exact isCode.notBlank blank
  · exact isCode.outside piece (List.mem_append_right early (List.mem_cons_of_mem docblock there)) inToken

/-- **The docblock of a place** is that trivia of the script, if there is any, which is the last docblock that
begins before the place and from which nothing but blanks and later trivia leads there; where there is none,
nothing is found. No docblock belongs to two places at which there is code. -/
theorem docblock_of_place {script : Text} {trivia : List Php.Trivia} (inOrder : InOrder script trivia) :
    (∀ place ≤ Text.size script,
        (∀ text, before? script trivia place = some text
          ↔ ∃ docblock, BelongsTo script trivia docblock place ∧ docblock.text = text)
        ∧ (before? script trivia place = none ↔ ∀ docblock, ¬ BelongsTo script trivia docblock place))
      ∧ ∀ docblock place other, place ≠ other → IsCode script trivia place → IsCode script trivia other →
          BelongsTo script trivia docblock place → ¬ BelongsTo script trivia docblock other := by
  constructor
  · intro place inText
    refine ⟨fun text => before?_eq_some_iff inOrder inText, ?_⟩
    rw [Option.eq_none_iff_forall_ne_some]
    constructor
    · exact fun none docblock belongs => none _ ((before?_eq_some_iff inOrder inText).mpr ⟨docblock, belongs, rfl⟩)
    · intro none text found
      obtain ⟨docblock, belongs, -⟩ := (before?_eq_some_iff inOrder inText).mp found
      exact none docblock belongs
  · intro docblock place other different isCode isCodeThere belongs belongsThere
    rcases Nat.lt_or_gt_of_ne different with ahead | behind
    · exact not_belongsTo_of_lt isCode ahead belongs belongsThere
    · exact not_belongsTo_of_lt isCodeThere behind belongsThere belongs

/-- The trivia that the parser of this library gives stand one behind the other. -/
theorem inOrder_trivia (script : Text) : InOrder script (Php.trivia script) where
  apart := Php.pairwise_trivia script
  forward piece there := by
    obtain ⟨token, -, kind, -, rfl⟩ := Php.exists_token_of_mem_trivia there
    exact Nat.le_add_right _ _
  inText piece there := by
    obtain ⟨token, isToken, kind, -, rfl⟩ := Php.exists_token_of_mem_trivia there
    obtain ⟨rest, whole⟩ := Php.flatMap_tokens_isPrefix script
    have within := ((Php.pairwise_of_adjoining (Php.tokens_adjoining script)).2 token isToken).2
    have size := congrArg Text.size whole
    rw [Text.size_append] at size
    exact Nat.le_trans within (by omega)

/-- A docblock with a comment between it and a class-like, and one with code in between. -/
theorem docblock_across_comment :
    let script := "<?php\n/** @template T */\n// note\nclass A {}\n/** @template U */\n$x = 1;\nclass B {}".toList
    let trivia := Php.trivia script
    InOrder script trivia
      ∧ (∃ docblock, BelongsTo script trivia docblock 33 ∧ docblock.text = "/** @template T */".toList)
      ∧ ∀ docblock, ¬ BelongsTo script trivia docblock 71 := by
  intro script trivia
  have inOrder : InOrder script trivia := inOrder_trivia script
  obtain ⟨found, -⟩ := docblock_of_place inOrder
  refine ⟨inOrder, ((found 33 (by decide +kernel)).1 _).mp (by decide +kernel), ?_⟩
  exact (found 71 (by decide +kernel)).2.mp (by decide +kernel)

end AnnotationCheck.Docblock
