import AnnotationCheck.Proofs.Php.Imports

/-!
The names in the statements of a script.

* `Statement.IsSpelled` — the names that a statement imports and declares are spelled as such.
* `statementsUntil_suffix` — reading statements leaves an end part of the tokens.
* `forall_mem_statementsUntil` — what a namespace keeps, and what holds of the other statements, holds of all.
* **`isSpelled_of_mem_statements`** — the statements of a script are spelled as such, those in the bodies of
  namespaces included.
-/

namespace AnnotationCheck.Php

open Rule Grammar

/-- The names that a statement imports and declares are spelled as such. -/
inductive Statement.IsSpelled : Statement → Prop
  | space {name : Option Text} {body : List Statement} : (∀ statement ∈ body, IsSpelled statement) →
      IsSpelled (.space name body)
  | imports {list : ImportList} : list.IsSpelled → IsSpelled (.imports list)
  | declares {classLike : ClassLike} : IsWordText classLike.name → IsSpelled (.declares classLike)
  | other : IsSpelled .other

/-! ### One statement -/

/-- A statement that begins with the word of an import is one. -/
theorem reads_importDeclaration_of_isWord {first : Token} {rest left : List Token}
    (isUse : first.isWord "use" = true) (reads : Reads grammar (.part .statement) (first :: rest) left) :
    Reads grammar importDeclaration (first :: rest) left := by
  obtain ⟨kind, text⟩ := Bool.and_eq_true_iff.mp isUse
  rw [beq_iff_eq] at kind text
  refine Reads.of_cases 10 rfl ?_ isUse (reads_part_iff.mp reads)
  -- the word opens no other statement
  simp [next, second, kind, text, mark, word, Token.isSymbol, Token.isWord, Token.isOneOf, isCloseTag, isOwnName,
    reservedWords, classAhead, isClassModifier, enumAhead, functionAhead]

/-- A declared name is a word. -/
theorem isWordText_of_declaredName? {tokens : List Token} {name : Text} (declared : declaredName? tokens = some name)
    (spelled : ∀ token ∈ tokens, token.IsSpelled) : IsWordText name := by
  unfold declaredName? at declared
  split at declared
  · rename_i first token rest behind
    split at declared
    · rename_i passes
      cases declared
      have there : token ∈ tokens.dropWhile isClassModifier := by rw [behind]; simp
      exact (spelled token (List.dropWhile_sublist _ |>.subset there)).word
        (beq_iff_eq.mp (Bool.and_eq_true_iff.mp passes).2)
    · cases declared
  · cases declared

/-- A statement that was read from spelled tokens is spelled. -/
theorem isSpelled_statementOf {limit : Nat} {tokens left : List Token}
    (found : read grammar limit (.part .statement) tokens = (true, left))
    (spelled : ∀ token ∈ tokens, token.IsSpelled) :
    (statementOf limit (tokens.take (tokens.length - left.length))).IsSpelled := by
  have reads := reads_of_read found
  obtain ⟨front, rfl⟩ : left <:+ tokens := by
    simpa [found] using read_suffix grammar limit (.part .statement) tokens
  have taken : (front ++ left).take ((front ++ left).length - left.length) = front := by simp
  rw [taken]
  have spelledFront : ∀ token ∈ front, token.IsSpelled := fun token there =>
    spelled token (List.mem_append_left left there)
  cases front with
  | nil => exact .other
  | cons first body =>
    rw [statementOf]
    split
    · rename_i isUse
      exact .imports (isSpelled_importList (reads_importDeclaration_of_isWord isUse reads)
        (List.forall_mem_cons.mp spelledFront).2)
    · split
      · rename_i declared
        have behind : (read grammar limit (.part .attributes) (first :: body)).2 <:+ first :: body :=
          read_suffix grammar limit _ _
        exact .declares (isWordText_of_declaredName? declared fun token there =>
          spelledFront token (behind.subset there))
      · exact .other

/-! ### A list of statements -/

theorem spaceName?_suffix {tokens behind : List Token} {name : Option Text}
    (found : spaceName? tokens = some (name, behind)) : behind <:+ tokens := by
  cases tokens with
  | nil => cases found
  | cons first rest =>
    rw [spaceName?] at found
    split at found
    · cases found
      exact List.suffix_rfl
    · split at found
      · cases found
        exact List.suffix_cons first _
      · cases found

/-- What stands behind the head of a namespace, the brace that opens its body included. -/
theorem suffix_of_spaceName? {first : Token} {rest behind : List Token} {name : Option Text}
    (found : spaceName? rest = some (name, behind)) : behind <:+ first :: rest :=
  (spaceName?_suffix found).trans (List.suffix_cons first rest)

/-- Where the body of a namespace without braces begins. -/
theorem start_suffix (opening : Token) (inner : List Token) :
    (if endsStatement opening then inner else opening :: inner) <:+ opening :: inner := by
  split
  · exact List.suffix_cons opening inner
  · exact List.suffix_rfl

/-- Reading goes on within the tokens. -/
theorem goOn_read_suffix {limit : Nat} {tokens left : List Token} {whole : Bool}
    (found : read grammar limit (.part .statement) tokens = (whole, left)) : goOn tokens left <:+ tokens := by
  have suffix := read_suffix grammar limit (.part .statement) tokens
  rw [found] at suffix
  exact goOn_suffix suffix

/-- Reading statements leaves an end part of the tokens. -/
theorem statementsUntil_suffix (limit fuel : Nat) (stop : Token → Bool) (tokens : List Token) :
    (statementsUntil limit fuel stop tokens).2 <:+ tokens := by
  fun_induction statementsUntil limit fuel stop tokens with
  | case1 | case2 | case3 => exact List.suffix_rfl
  | case4 fuel stop first rest _ _ _ ih => exact ih.trans (List.suffix_cons first rest)
  | case5 fuel stop first rest _ _ name opening inner _ body closing left inside more last after found ihBody ih =>
    rw [inside] at ihBody
    rw [after] at ih
    have behind : opening :: inner <:+ first :: rest := suffix_of_spaceName? found
    have leftIn : left <:+ inner := (List.suffix_cons closing left).trans ihBody
    exact (ih.trans leftIn).trans ((List.suffix_cons opening inner).trans behind)
  | case6 => exact List.nil_suffix
  | case7 fuel stop first rest _ _ name opening inner _ body left more last after found start inside ihBody ih =>
    rw [inside] at ihBody
    rw [after] at ih
    have behind : opening :: inner <:+ first :: rest := suffix_of_spaceName? found
    have leftIn : left <:+ opening :: inner := ihBody.trans (start_suffix opening inner)
    simp only [start] at inside
    simpa only [inside, after] using (ih.trans leftIn).trans behind
  | case8 => exact List.nil_suffix
  | case9 fuel stop first rest _ _ left found more last after ih =>
    rw [after] at ih
    exact ih.trans (goOn_read_suffix found)
  | case10 fuel stop first rest _ _ left found ih => exact ih.trans (goOn_read_suffix found)

/-- The name of a namespace is the text of a token. -/
theorem exists_token_of_spaceName? {tokens behind : List Token} {name : Option Text}
    (found : spaceName? tokens = some (name, behind)) :
    ∀ written ∈ name, ∃ token ∈ tokens, isName token = true ∧ token.text = written := by
  cases tokens with
  | nil => cases found
  | cons first rest =>
    rw [spaceName?] at found
    split at found
    · cases found
      nofun
    · split at found
      · rename_i isName
        cases found
        rintro written ⟨⟩
        exact ⟨first, List.mem_cons_self, isName, rfl⟩
      · cases found

/-- The name of a namespace that is read from spelled tokens is spelled. -/
theorem isNameText_of_spaceName? {first : Token} {rest behind : List Token} {name : Option Text}
    (found : spaceName? rest = some (name, behind)) (spelled : ∀ token ∈ first :: rest, token.IsSpelled) :
    ∀ written ∈ name, IsNameText written := by
  intro written given
  obtain ⟨token, there, isName, rfl⟩ := exists_token_of_spaceName? found written given
  exact (spelled token (List.mem_cons_of_mem first there)).isNameText isName

/-- **What holds of every statement that is read from spelled tokens**: what is kept by a namespace around
statements, and what holds of the statements that a rule reads. -/
theorem forall_mem_statementsUntil {limit : Nat} {motive : Statement → Prop}
    (space : ∀ {name body}, (∀ written ∈ name, IsNameText written) → (∀ statement ∈ body, motive statement) →
      motive (.space name body))
    (single : ∀ {tokens left}, read grammar limit (.part .statement) tokens = (true, left) →
      (∀ token ∈ tokens, token.IsSpelled) → motive (statementOf limit (tokens.take (tokens.length - left.length))))
    (fuel : Nat) (stop : Token → Bool) (tokens : List Token) (spelled : ∀ token ∈ tokens, token.IsSpelled) :
    ∀ statement ∈ (statementsUntil limit fuel stop tokens).1, motive statement := by
  fun_induction statementsUntil limit fuel stop tokens with
  | case1 | case2 | case3 | case6 => nofun
  | case4 fuel stop first rest _ _ _ ih => exact ih (List.forall_mem_cons.mp spelled).2
  | case5 fuel stop first rest _ _ name opening inner _ body closing left inside more last after found ihBody ih =>
    have behind : opening :: inner <:+ first :: rest := suffix_of_spaceName? found
    have innerIn : inner <:+ first :: rest := (List.suffix_cons opening inner).trans behind
    have leftIn : closing :: left <:+ inner := by
      simpa only [inside] using statementsUntil_suffix limit fuel (Token.isSymbol "\x7d") inner
    rw [inside] at ihBody
    rw [after] at ih
    refine List.forall_mem_cons.mpr ⟨space (isNameText_of_spaceName? found spelled)
      (ihBody fun token there => spelled token (innerIn.subset there)), ?_⟩
    exact ih fun token there => spelled token (innerIn.subset (leftIn.subset (List.mem_cons_of_mem closing there)))
  | case7 fuel stop first rest _ _ name opening inner _ body left more last after found start inside ihBody ih =>
    have startIn : start <:+ first :: rest := (start_suffix opening inner).trans (suffix_of_spaceName? found)
    have leftIn : left <:+ start := by
      simpa only [inside] using statementsUntil_suffix limit fuel (Token.isWord "namespace") start
    rw [inside] at ihBody
    rw [after] at ih
    have holds : ∀ statement ∈ Statement.space name body :: more, motive statement :=
      List.forall_mem_cons.mpr ⟨space (isNameText_of_spaceName? found spelled)
        (ihBody fun token there => spelled token (startIn.subset there)),
        ih fun token there => spelled token (startIn.subset (leftIn.subset there))⟩
    simp only [start] at inside
    simpa only [inside, after] using holds
  | case8 fuel stop first rest _ _ name found =>
    exact List.forall_mem_singleton.mpr (space (isNameText_of_spaceName? found spelled) nofun)
  | case9 fuel stop first rest _ _ left found more last after ih =>
    rw [after] at ih
    exact List.forall_mem_cons.mpr ⟨single found spelled,
      ih fun token there => spelled token ((goOn_read_suffix found).subset there)⟩
  | case10 fuel stop first rest _ _ left found ih =>
    exact ih fun token there => spelled token ((goOn_read_suffix found).subset there)

/-- **The names in the statements of a script are spelled as such.** -/
theorem isSpelled_of_mem_statements {script : Text} : ∀ statement ∈ statements script, statement.IsSpelled :=
  forall_mem_statementsUntil (fun _ => .space) isSpelled_statementOf _ _ _ isSpelled_of_mem_code

end AnnotationCheck.Php
