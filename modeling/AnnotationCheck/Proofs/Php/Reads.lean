import AnnotationCheck.Php.Rule

/-!
What a rule reads, stated without the steps that reading takes.

* `Reads` — a rule reads the tokens up to the given rest; `reads_of_read`: so it does when it is read to its
  end. Of a rule that goes on behind mistakes, no more is said than that an end part is left.
* `reads_token_iff`, `reads_both_iff`, `reads_choose_iff`, … — what each kind of rule reads.
* `Reads.of_cases` — of several rules the first one is read whose question holds.
-/

namespace AnnotationCheck.Php

variable {name : Type}

/-- A rule reads the tokens up to the given rest. -/
inductive Reads (rules : name → Rule name) : Rule name → List Token → List Token → Prop
  | nothing {tokens : List Token} : Reads rules .nothing tokens tokens
  | token {test : Token → Bool} {first : Token} {rest : List Token} : test first = true →
      Reads rules (.token test) (first :: rest) rest
  | both {first second : Rule name} {tokens middle rest : List Token} : Reads rules first tokens middle →
      Reads rules second middle rest → Reads rules (.both first second) tokens rest
  | yes {ahead : Ahead} {yes no : Rule name} {tokens rest : List Token} : ahead tokens = true →
      Reads rules yes tokens rest → Reads rules (.choose ahead yes no) tokens rest
  | no {ahead : Ahead} {yes no : Rule name} {tokens rest : List Token} : ahead tokens = false →
      Reads rules no tokens rest → Reads rules (.choose ahead yes no) tokens rest
  | done {ahead : Ahead} {body : Rule name} {tokens : List Token} : ahead tokens = false →
      Reads rules (.many ahead body) tokens tokens
  | again {ahead : Ahead} {body : Rule name} {tokens middle rest : List Token} : ahead tokens = true →
      Reads rules body tokens middle → Reads rules (.many ahead body) middle rest →
      Reads rules (.many ahead body) tokens rest
  | recovered {stop : Token → Bool} {body : Rule name} {tokens rest : List Token} : rest <:+ tokens →
      Reads rules (.recover stop body) tokens rest
  | part {part : name} {tokens rest : List Token} : Reads rules (rules part) tokens rest →
      Reads rules (.part part) tokens rest

variable {rules : name → Rule name}

/-- A rule that is read to its end reads what it was given but for what is left. -/
theorem reads_of_read {fuel : Nat} {rule : Rule name} {tokens rest : List Token}
    (found : read rules fuel rule tokens = (true, rest)) : Reads rules rule tokens rest := by
  induction fuel generalizing rule tokens rest with
  | zero => cases found
  | succ fuel ih =>
    cases rule with
    | nothing =>
      cases found
      exact .nothing
    | fail => cases found
    | token test =>
      simp only [read] at found
      split at found
      · cases found
      · split at found
        · rename_i passes
          cases found
          exact .token passes
        · cases found
    | both first second =>
      simp only [read] at found
      split at found
      · rename_i middle one
        exact .both (ih one) (ih found)
      · cases found
    | choose ahead yes no =>
      simp only [read] at found
      split at found
      · rename_i holds
        exact .yes holds (ih found)
      · rename_i fails
        exact .no (Bool.eq_false_iff.mpr fails) (ih found)
    | many ahead body =>
      simp only [read] at found
      split at found
      · rename_i holds
        split at found
        · rename_i middle one
          exact .again holds (ih one) (ih found)
        · cases found
      · rename_i fails
        cases found
        exact .done (Bool.eq_false_iff.mpr fails)
    | recover stop body =>
      have left := read_suffix rules (fuel + 1) (.recover stop body) tokens
      rw [found] at left
      exact .recovered left
    | part part => exact .part (ih found)

/-! ### What each kind of rule reads -/

variable {tokens rest : List Token}

@[simp] theorem reads_nothing_iff : Reads rules .nothing tokens rest ↔ tokens = rest := by
  constructor
  · intro reads
    cases reads
    rfl
  · rintro rfl
    exact .nothing

@[simp] theorem reads_token_iff {test : Token → Bool} :
    Reads rules (.token test) tokens rest ↔ ∃ first, tokens = first :: rest ∧ test first = true := by
  constructor
  · intro reads
    cases reads with
    | token passes => exact ⟨_, rfl, passes⟩
  · rintro ⟨first, rfl, passes⟩
    exact .token passes

@[simp] theorem reads_both_iff {first second : Rule name} :
    Reads rules (.both first second) tokens rest
      ↔ ∃ middle, Reads rules first tokens middle ∧ Reads rules second middle rest := by
  constructor
  · intro reads
    cases reads with
    | both one two => exact ⟨_, one, two⟩
  · rintro ⟨middle, one, two⟩
    exact .both one two

theorem reads_choose_iff {ahead : Ahead} {yes no : Rule name} :
    Reads rules (.choose ahead yes no) tokens rest
      ↔ ahead tokens = true ∧ Reads rules yes tokens rest
        ∨ ahead tokens = false ∧ Reads rules no tokens rest := by
  constructor
  · intro reads
    cases reads with
    | yes holds reads => exact .inl ⟨holds, reads⟩
    | no fails reads => exact .inr ⟨fails, reads⟩
  · rintro (⟨holds, reads⟩ | ⟨fails, reads⟩)
    · exact .yes holds reads
    · exact .no fails reads

@[simp] theorem reads_part_iff {part : name} :
    Reads rules (.part part) tokens rest ↔ Reads rules (rules part) tokens rest := by
  constructor
  · intro reads
    cases reads with
    | part reads => exact reads
  · exact .part

@[simp] theorem reads_all_nil_iff : Reads rules (Rule.all []) tokens rest ↔ tokens = rest := reads_nothing_iff

@[simp] theorem reads_all_cons_iff {rule : Rule name} {more : List (Rule name)} :
    Reads rules (Rule.all (rule :: more)) tokens rest
      ↔ ∃ middle, Reads rules rule tokens middle ∧ Reads rules (Rule.all more) middle rest := reads_both_iff

@[simp] theorem reads_optional_iff {test : Token → Bool} {rule : Rule name} :
    Reads rules (Rule.optional test rule) tokens rest
      ↔ Rule.next test tokens = true ∧ Reads rules rule tokens rest
        ∨ Rule.next test tokens = false ∧ tokens = rest := by
  rw [Rule.optional, reads_choose_iff, reads_nothing_iff]

@[simp] theorem reads_optionalToken_iff {test : Token → Bool} :
    Reads rules (Rule.optionalToken test) tokens rest
      ↔ (∃ first, tokens = first :: rest ∧ test first = true)
        ∨ Rule.next test tokens = false ∧ tokens = rest := by
  rw [Rule.optionalToken, reads_optional_iff, reads_token_iff]
  refine or_congr_left (and_iff_right_of_imp ?_)
  rintro ⟨first, rfl, passes⟩
  exact passes

/-- What holds at the end of a rule that is read over and over holds at its beginning, if reading it once more
keeps it. -/
@[elab_as_elim]
theorem Reads.many_induction {ahead : Ahead} {body : Rule name} {motive : List Token → Prop} (done : motive rest)
    (again : ∀ {tokens middle}, Reads rules body tokens middle → motive middle → motive tokens)
    (reads : Reads rules (.many ahead body) tokens rest) : motive tokens := by
  generalize same : Rule.many ahead body = rule at reads
  induction reads with
  | done => exact done
  | again _ one _ _ ih =>
    cases same
    exact again one (ih done rfl)
  | nothing | token | both | yes | no | recovered | part => cases same

/-- Of several rules, the first one is read whose question holds. -/
theorem Reads.of_cases {choices : List (Ahead × Rule name)} {otherwise : Rule name} {ahead : Ahead}
    {rule : Rule name} (index : Nat) (chosen : choices[index]? = some (ahead, rule))
    (fail : ∀ choice ∈ choices.take index, choice.1 tokens = false) (holds : ahead tokens = true)
    (reads : Reads rules (Rule.cases choices otherwise) tokens rest) : Reads rules rule tokens rest := by
  induction choices generalizing index with
  | nil => cases chosen
  | cons choice more ih =>
    cases index with
    | zero =>
      cases chosen
      rcases reads_choose_iff.mp reads with ⟨_, reads⟩ | ⟨fails, _⟩
      · exact reads
      · exact absurd (holds.symm.trans fails) (by decide)
    | succ index =>
      have skipped : choice.1 tokens = false := fail choice (by simp)
      rcases reads_choose_iff.mp reads with ⟨taken, _⟩ | ⟨_, reads⟩
      · exact absurd (taken.symm.trans skipped) (by decide)
      · exact ih index chosen (fun other there => fail other (by simp [there])) reads

end AnnotationCheck.Php
