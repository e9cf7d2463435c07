import AnnotationCheck.Php.Statement
import AnnotationCheck.Proofs.Php.Reads
import AnnotationCheck.Proofs.Php.Spelling

/-!
What the declaration of imports reads.

* `ImportList.IsSpelled` — the names in a list of imports are spelled as such.
* `IsItem`, `IsGroupItem` — the tokens of an item, in a plain list or in a group.
* `IsListing` — items with commas between them; `reads_listed`, `reads_commas`: lists of items read those.
* **`isSpelled_importList`** — so the imports of a declaration that was read are spelled as such.
-/

namespace AnnotationCheck.Php

open Rule Grammar

/-- The names of an import are spelled as such. -/
structure ImportItem.IsSpelled (item : ImportItem) : Prop where
  name : IsNameText item.name
  shortName : ∀ word ∈ item.shortName, IsWordText word

/-- The names in a list of imports are spelled as such. -/
inductive ImportList.IsSpelled : ImportList → Prop
  | names {items : List ImportItem} : (∀ item ∈ items, item.IsSpelled) → IsSpelled (.names items)
  | group {base : Text} {items : List (Bool × ImportItem)} : IsNameText base →
      (∀ item ∈ items, item.2.IsSpelled) → IsSpelled (.group base items)
  | others : IsSpelled .others

/-! ### Tokens of names -/

/-- A word or a name. -/
def Token.IsNaming (token : Token) : Prop := token.kind = .word ∨ token.kind = .qualified

theorem Token.IsNaming.isSymbol {token : Token} (naming : token.IsNaming) (spelling : String) :
    token.isSymbol spelling = false := by
  rcases naming with word | qualified
  · simp [Token.isSymbol, word]
  · simp [Token.isSymbol, qualified]

/-- A mark has one spelling. -/
theorem Token.isSymbol_of_ne {token : Token} {spelling other : String}
    (isSymbol : token.isSymbol spelling = true) (different : spelling ≠ other) : token.isSymbol other = false := by
  have text : token.text = spelling.toList := beq_iff_eq.mp (Bool.and_eq_true_iff.mp isSymbol).2
  rw [Token.isSymbol, text, Bool.and_eq_false_iff]
  exact .inr (beq_false_of_ne fun same => different (String.toList_inj.mp same))

theorem endsStatement_of_isSymbol {token : Token} {spelling : String} (isSymbol : token.isSymbol spelling = true)
    (different : spelling ≠ ";") : endsStatement token = false := by
  have kind : token.kind = .symbol := beq_iff_eq.mp (Bool.and_eq_true_iff.mp isSymbol).1
  rw [endsStatement, mark, Token.isSymbol_of_ne isSymbol different, isCloseTag, kind]
  rfl

theorem Token.IsNaming.endsStatement {token : Token} (naming : token.IsNaming) :
    Grammar.endsStatement token = false := by
  rw [Grammar.endsStatement, mark, naming.isSymbol, Bool.false_or, isCloseTag]
  rcases naming with word | qualified
  · rw [word]
    rfl
  · rw [qualified]
    rfl

theorem isNaming_of_isOwnName {token : Token} (isOwnName : isOwnName token = true) : token.IsNaming :=
  .inl (beq_iff_eq.mp (Bool.and_eq_true_iff.mp isOwnName).1)

theorem isNaming_of_isName {token : Token} (isName : isName token = true) : token.IsNaming := by
  rcases Bool.or_eq_true_iff.mp isName with qualified | own
  · exact .inr (beq_iff_eq.mp qualified)
  · exact isNaming_of_isOwnName own

theorem isNaming_of_isWord {token : Token} {spelling : String} (isWord : token.isWord spelling = true) :
    token.IsNaming :=
  .inl (beq_iff_eq.mp (Bool.and_eq_true_iff.mp isWord).1)

theorem isNaming_of_isImportKind {token : Token} (isKind : isImportKind token = true) : token.IsNaming :=
  (Bool.or_eq_true_iff.mp isKind).elim isNaming_of_isWord isNaming_of_isWord

/-! ### Items -/

/-- The tokens of an item of an import. -/
inductive IsItem : List Token → Prop
  | plain {name : Token} : isName name = true → IsItem [name]
  | renamed {name between shortName : Token} : isName name = true → between.isWord "as" = true →
      isOwnName shortName = true → IsItem [name, between, shortName]

/-- The tokens of an item in a group, with the word that marks its kind or without. -/
inductive IsGroupItem : List Token → Prop
  | plain {item : List Token} : IsItem item → IsGroupItem item
  | marked {kind : Token} {item : List Token} : isImportKind kind = true → IsItem item →
      IsGroupItem (kind :: item)

theorem IsItem.isNaming {item : List Token} (isItem : IsItem item) : ∀ token ∈ item, token.IsNaming := by
  cases isItem with
  | plain isName => simpa using isNaming_of_isName isName
  | renamed isName between isOwnName =>
    simpa using ⟨isNaming_of_isName isName, isNaming_of_isWord between, isNaming_of_isOwnName isOwnName⟩

theorem IsGroupItem.isNaming {item : List Token} (isItem : IsGroupItem item) :
    ∀ token ∈ item, token.IsNaming := by
  cases isItem with
  | plain isItem => exact isItem.isNaming
  | marked isKind isItem =>
    exact List.forall_mem_cons.mpr ⟨isNaming_of_isImportKind isKind, isItem.isNaming⟩

/-- An item begins with a name. -/
theorem IsItem.exists_cons {item : List Token} (isItem : IsItem item) :
    ∃ name more, item = name :: more ∧ isName name = true := by
  cases isItem with
  | plain isName => exact ⟨_, _, rfl, isName⟩
  | renamed isName _ _ => exact ⟨_, _, rfl, isName⟩

/-- The import of a spelled item is spelled. -/
theorem IsItem.isSpelled {tokens : List Token} (isItem : IsItem tokens)
    (spelled : ∀ token ∈ tokens, token.IsSpelled) {item : ImportItem} (read : importItem? tokens = some item) :
    item.IsSpelled := by
  cases isItem with
  | @plain name isName =>
    cases read
    exact ⟨(spelled name (by simp)).isNameText isName, nofun⟩
  | @renamed name between shortName isName _ isOwnName =>
    cases read
    have isWord : shortName.kind = .word := beq_iff_eq.mp (Bool.and_eq_true_iff.mp isOwnName).1
    refine ⟨(spelled name (by simp)).isNameText isName, fun word given => ?_⟩
    cases given
    exact (spelled shortName (by simp)).word isWord

/-- No word that marks a kind is a name. -/
theorem isImportKind_of_isName {token : Token} (isName : isName token = true) : isImportKind token = false := by
  rw [Bool.eq_false_iff]
  intro isKind
  have reserved : token.kind = .word ∧ token.isOneOf reservedWords = true := by
    rcases Bool.or_eq_true_iff.mp isKind with isWord | isWord
    all_goals
      obtain ⟨kind, text⟩ := Bool.and_eq_true_iff.mp isWord
      refine ⟨beq_iff_eq.mp kind, ?_⟩
      rw [Token.isOneOf, kind, beq_iff_eq.mp text]
      decide
  rcases Bool.or_eq_true_iff.mp isName with qualified | own
  · rw [reserved.1] at qualified
    cases qualified
  · rw [Grammar.isOwnName, reserved.2] at own
    simp at own

/-- The import of a spelled item in a group is spelled. -/
theorem IsGroupItem.isSpelled {tokens : List Token} (isItem : IsGroupItem tokens)
    (spelled : ∀ token ∈ tokens, token.IsSpelled) {item : Bool × ImportItem}
    (read : groupItem? tokens = some item) : item.2.IsSpelled := by
  cases isItem with
  | plain isItem =>
    have unmarked : groupItem? tokens = (importItem? tokens).map (false, ·) := by
      cases isItem with
      | plain isName => rw [groupItem?, isImportKind_of_isName isName]; rfl
      | renamed isName _ _ => rw [groupItem?, isImportKind_of_isName isName]; rfl
    rw [unmarked] at read
    obtain ⟨inner, found, rfl⟩ := Option.map_eq_some_iff.mp read
    exact isItem.isSpelled spelled found
  | @marked kind behind isKind isItem =>
    rw [groupItem?, if_pos isKind] at read
    obtain ⟨inner, found, rfl⟩ := Option.map_eq_some_iff.mp read
    exact isItem.isSpelled (List.forall_mem_cons.mp spelled).2 found

/-! ### Items between commas -/

theorem betweenCommas_ne_nil (tokens : List Token) : betweenCommas tokens ≠ [] := by
  cases tokens with
  | nil => simp [betweenCommas]
  | cons token rest =>
    rw [betweenCommas]
    split
    · simp
    · split <;> simp

theorem betweenCommas_of_clear {piece : List Token} (clear : ∀ token ∈ piece, token.isSymbol "," = false) :
    betweenCommas piece = [piece] := by
  induction piece with
  | nil => rfl
  | cons token rest ih =>
    obtain ⟨noComma, clear⟩ := List.forall_mem_cons.mp clear
    simp [betweenCommas, ih clear, noComma]

theorem betweenCommas_append_comma {piece : List Token} (clear : ∀ token ∈ piece, token.isSymbol "," = false)
    {comma : Token} (isComma : comma.isSymbol "," = true) (rest : List Token) :
    betweenCommas (piece ++ comma :: rest) = piece :: betweenCommas rest := by
  induction piece with
  | nil =>
    cases cut : betweenCommas rest with
    | nil => exact absurd cut (betweenCommas_ne_nil rest)
    | cons first more => simp [betweenCommas, cut, isComma]
  | cons token piece ih =>
    obtain ⟨noComma, clear⟩ := List.forall_mem_cons.mp clear
    rw [List.cons_append, betweenCommas, ih clear]
    simp [noComma]

theorem subset_of_mem_betweenCommas {tokens piece : List Token} (there : piece ∈ betweenCommas tokens) :
    piece ⊆ tokens := by
  induction tokens generalizing piece with
  | nil => simp_all [betweenCommas]
  | cons token rest ih =>
    rw [betweenCommas] at there
    cases cut : betweenCommas rest with
    | nil => exact absurd cut (betweenCommas_ne_nil rest)
    | cons first more =>
      rw [cut] at there ih
      have inFirst : first ⊆ rest := ih List.mem_cons_self
      have inMore : ∀ piece ∈ more, piece ⊆ rest := fun _ there => ih (List.mem_cons_of_mem first there)
      by_cases isComma : token.isSymbol ","
      · simp only [isComma, if_true, List.mem_cons] at there
        rcases there with rfl | rfl | there
        · exact List.nil_subset _
        · exact List.subset_cons_of_subset token inFirst
        · exact List.subset_cons_of_subset token (inMore piece there)
      · simp only [isComma, if_false, List.mem_cons, Bool.false_eq_true] at there
        rcases there with rfl | there
        · exact List.cons_subset_cons token inFirst
        · exact List.subset_cons_of_subset token (inMore piece there)

/-- Items with commas between them, the last of which may have a comma behind it. -/
inductive IsListing (IsPiece : List Token → Prop) : List Token → Prop
  | nil : IsListing IsPiece []
  | last {piece : List Token} : IsPiece piece → IsListing IsPiece piece
  | more {piece rest : List Token} {comma : Token} : IsPiece piece → comma.isSymbol "," = true →
      IsListing IsPiece rest → IsListing IsPiece (piece ++ comma :: rest)

section Listing

variable {IsPiece : List Token → Prop} {tokens : List Token}

/-- What stands between the commas of a listing is an item, or nothing at its end. -/
theorem IsListing.mem_betweenCommas (listing : IsListing IsPiece tokens)
    (naming : ∀ {piece}, IsPiece piece → ∀ token ∈ piece, token.IsNaming) {piece : List Token}
    (there : piece ∈ betweenCommas tokens) : piece = [] ∨ IsPiece piece := by
  have clear : ∀ {piece}, IsPiece piece → ∀ token ∈ piece, token.isSymbol "," = false :=
    fun isPiece token there => (naming isPiece token there).isSymbol ","
  induction listing with
  | nil => exact .inl (List.mem_singleton.mp there)
  | last isPiece =>
    rw [betweenCommas_of_clear (clear isPiece), List.mem_singleton] at there
    exact .inr (there ▸ isPiece)
  | more isPiece isComma _ ih =>
    rw [betweenCommas_append_comma (clear isPiece) isComma] at there
    rcases List.mem_cons.mp there with rfl | there
    · exact .inr isPiece
    · exact ih there

theorem IsListing.isNaming_or_isComma (listing : IsListing IsPiece tokens)
    (naming : ∀ {piece}, IsPiece piece → ∀ token ∈ piece, token.IsNaming) :
    ∀ token ∈ tokens, token.IsNaming ∨ token.isSymbol "," = true := by
  induction listing with
  | nil => nofun
  | last isPiece => exact fun token there => .inl (naming isPiece token there)
  | more isPiece isComma _ ih =>
    intro token there
    rcases List.mem_append.mp there with there | there
    · exact .inl (naming isPiece token there)
    · rcases List.mem_cons.mp there with rfl | there
      · exact .inr isComma
      · exact ih token there

/-- What is read from the items of a listing of spelled tokens has what is read from a spelled item. -/
theorem IsListing.forall_mem_filterMap {Item : Type} {HasNames : Item → Prop} {read? : List Token → Option Item}
    (listing : IsListing IsPiece tokens)
    (naming : ∀ {piece}, IsPiece piece → ∀ token ∈ piece, token.IsNaming)
    (spelled : ∀ token ∈ tokens, token.IsSpelled) (nothing : read? [] = none)
    (one : ∀ {piece}, IsPiece piece → (∀ token ∈ piece, token.IsSpelled) → ∀ {item}, read? piece = some item →
      HasNames item) : ∀ item ∈ (betweenCommas tokens).filterMap read?, HasNames item := by
  intro item there
  obtain ⟨piece, isPiece, read⟩ := List.mem_filterMap.mp there
  rcases listing.mem_betweenCommas naming isPiece with rfl | isItem
  · rw [nothing] at read
    cases read
  · exact one isItem (fun token there => spelled token (subset_of_mem_betweenCommas isPiece there)) read

/-- A listing is taken whole up to a token that has no place in it. -/
theorem IsListing.takeWhile_append (listing : IsListing IsPiece tokens)
    (naming : ∀ {piece}, IsPiece piece → ∀ token ∈ piece, token.IsNaming) {stops : Token → Bool}
    (passes : ∀ token : Token, token.IsNaming ∨ token.isSymbol "," = true → stops token = false)
    {last : List Token} (ends : ∀ token ∈ last.head?, stops token = true) :
    (tokens ++ last).takeWhile (fun token => !stops token) = tokens := by
  have stopped : last.takeWhile (fun token => !stops token) = [] := by
    cases last with
    | nil => rfl
    | cons token rest => simp [ends token rfl]
  rw [List.takeWhile_append_of_pos fun token there => ?_, stopped, List.append_nil]
  rw [passes token (listing.isNaming_or_isComma naming token there), Bool.not_false]

end Listing

/-! ### What the rules read -/

variable {rules : Part → R} {tokens rest : List Token}

/-- A rule of items reads an item of a kind. -/
def ReadsPiece (rules : Part → R) (item : R) (IsPiece : List Token → Prop) : Prop :=
  ∀ {tokens rest}, Reads rules item tokens rest → ∃ piece, tokens = piece ++ rest ∧ IsPiece piece

theorem reads_importItem : ReadsPiece rules importItem IsItem := by
  intro tokens rest reads
  simp only [importItem, reads_all_cons_iff, reads_all_nil_iff, reads_token_iff, reads_optional_iff] at reads
  obtain ⟨behind, ⟨name, rfl, isName⟩, _, reads, rfl⟩ := reads
  rcases reads with ⟨_, _, ⟨between, rfl, isAs⟩, _, ⟨shortName, rfl, isOwnName⟩, rfl⟩ | ⟨_, rfl⟩
  · exact ⟨[name, between, shortName], rfl, .renamed isName isAs isOwnName⟩
  · exact ⟨[name], rfl, .plain isName⟩

theorem reads_groupItem : ReadsPiece rules (all [optionalToken isImportKind, importItem]) IsGroupItem := by
  intro tokens rest reads
  simp only [reads_all_cons_iff, reads_all_nil_iff, reads_optionalToken_iff] at reads
  obtain ⟨behind, reads, _, item, rfl⟩ := reads
  obtain ⟨piece, rfl, isItem⟩ := reads_importItem item
  rcases reads with ⟨kind, rfl, isKind⟩ | ⟨_, rfl⟩
  · exact ⟨kind :: piece, rfl, .marked isKind isItem⟩
  · exact ⟨piece, rfl, .plain isItem⟩

section Lists

variable {item : R} {IsPiece : List Token → Prop}

/-- Behind an item, further ones with a comma before each make up a listing with it. -/
theorem reads_more {ahead : Ahead} (readsItem : ReadsPiece rules item IsPiece)
    (reads : Reads rules (.many ahead (all [token (mark ","), item])) tokens rest) (ending : List Token)
    (ends : ∀ {piece}, IsPiece piece → IsListing IsPiece (piece ++ ending)) :
    ∃ body, tokens = body ++ rest ∧ ∀ {piece}, IsPiece piece → IsListing IsPiece (piece ++ (body ++ ending)) := by
  refine Reads.many_induction ?done ?again reads
  case done => exact ⟨[], rfl, ends⟩
  case again =>
    rintro _ _ one ⟨body, rfl, listing⟩
    simp only [reads_all_cons_iff, reads_all_nil_iff, reads_token_iff] at one
    obtain ⟨_, ⟨comma, rfl, isComma⟩, _, one, rfl⟩ := one
    obtain ⟨next, rfl, isPiece⟩ := readsItem one
    refine ⟨comma :: (next ++ body), by simp, fun isFirst => ?_⟩
    rw [List.cons_append, List.append_assoc]
    exact .more isFirst isComma (listing isPiece)

/-- One item or more with commas between them are a listing that begins with an item. -/
theorem reads_commas (readsItem : ReadsPiece rules item IsPiece) (reads : Reads rules (commas item) tokens rest) :
    ∃ first body, tokens = first ++ body ++ rest ∧ IsPiece first ∧ IsListing IsPiece (first ++ body) := by
  simp only [commas, reads_all_cons_iff, reads_all_nil_iff] at reads
  obtain ⟨_, one, _, more, rfl⟩ := reads
  obtain ⟨first, rfl, isPiece⟩ := readsItem one
  obtain ⟨body, rfl, listing⟩ := reads_more readsItem more [] (by simpa using .last)
  exact ⟨first, body, by simp, isPiece, by simpa using listing isPiece⟩

/-- Items up to a mark are a listing, which may be empty or end in a comma. -/
theorem reads_listed {close : Token → Bool} (readsItem : ReadsPiece rules item IsPiece)
    (reads : Reads rules (listed close item) tokens rest) : ∃ body, tokens = body ++ rest ∧ IsListing IsPiece body := by
  rcases reads_choose_iff.mp reads with ⟨_, reads⟩ | ⟨_, reads⟩
  · exact ⟨[], reads_nothing_iff.mp reads, .nil⟩
  simp only [reads_all_cons_iff, reads_all_nil_iff, reads_optionalToken_iff] at reads
  obtain ⟨_, one, _, more, _, ending, rfl⟩ := reads
  obtain ⟨piece, rfl, isPiece⟩ := readsItem one
  rcases ending with ⟨comma, rfl, isComma⟩ | ⟨_, rfl⟩
  · obtain ⟨body, rfl, listing⟩ := reads_more readsItem more [comma]
      fun isPiece => .more isPiece isComma .nil
    exact ⟨piece ++ (body ++ [comma]), by simp, listing isPiece⟩
  · obtain ⟨body, rfl, listing⟩ := reads_more readsItem more [] (by simpa using .last)
    exact ⟨piece ++ body, by simp, by simpa using listing isPiece⟩

/-- Items between two marks are a listing between them. -/
theorem reads_enclosed {opening closing : String} (readsItem : ReadsPiece rules item IsPiece)
    (reads : Reads rules (enclosed opening closing item) tokens rest) :
    ∃ first body last, tokens = first :: body ++ last :: rest ∧ IsListing IsPiece body
      ∧ last.isSymbol closing = true := by
  simp only [enclosed, reads_all_cons_iff, reads_all_nil_iff, reads_token_iff] at reads
  obtain ⟨_, ⟨first, rfl, _⟩, _, inner, _, ⟨last, rfl, isClosing⟩, rfl⟩ := reads
  obtain ⟨body, rfl, listing⟩ := reads_listed readsItem inner
  exact ⟨first, body, last, rfl, listing, isClosing⟩

end Lists

/-! ### Declarations -/

/-- The tokens of a declaration of imports between its first word and its end. -/
inductive IsImports : List Token → Prop
  /-- Imports of functions or constants. -/
  | others {kind next : Token} {more : List Token} : isImportKind kind = true → IsImports (kind :: next :: more)
  /-- Imports of names below a common one. -/
  | group {base separator first last : Token} {body : List Token} : isName base = true →
      separator.isSymbol "\\" = true → IsListing IsGroupItem body → last.isSymbol "\x7d" = true →
      IsImports (base :: separator :: first :: body ++ [last])
  /-- Imports of full names. -/
  | names {first body : List Token} : IsItem first → IsListing IsItem (first ++ body) → IsImports (first ++ body)

theorem reads_terminator (reads : Reads rules terminator tokens rest) :
    ∃ last, tokens = last ++ rest ∧ ∀ token ∈ last, endsStatement token = true := by
  rcases reads_optionalToken_iff.mp reads with ⟨last, rfl, ends⟩ | ⟨_, rfl⟩
  · exact ⟨[last], rfl, by simpa using ends⟩
  · exact ⟨[], rfl, nofun⟩

theorem reads_importDeclaration (reads : Reads rules importDeclaration tokens rest) :
    ∃ first body last, tokens = first :: body ++ last ++ rest ∧ IsImports body
      ∧ ∀ token ∈ last, endsStatement token = true := by
  simp only [importDeclaration, reads_all_cons_iff, reads_all_nil_iff, reads_token_iff] at reads
  obtain ⟨behind, ⟨first, rfl, _⟩, _, choice, rest, ending, rfl⟩ := reads
  obtain ⟨last, rfl, ends⟩ := reads_terminator ending
  suffices imports : ∃ body, behind = body ++ (last ++ rest) ∧ IsImports body by
    obtain ⟨body, rfl, imports⟩ := imports
    exact ⟨first, body, last, by simp, imports, ends⟩
  rcases reads_choose_iff.mp choice with ⟨_, reads⟩ | ⟨_, reads⟩
  · rcases reads_choose_iff.mp reads with ⟨_, reads⟩ | ⟨_, reads⟩
    all_goals simp only [reads_all_cons_iff, reads_all_nil_iff, reads_token_iff] at reads
    -- functions or constants: of a group or of a list, no more is needed than that something follows the mark
    · obtain ⟨_, ⟨kind, rfl, isKind⟩, _, ⟨base, rfl, _⟩, _, ⟨separator, rfl, _⟩, _, inner, rfl⟩ := reads
      obtain ⟨opening, body, closing, rfl, _⟩ := reads_enclosed reads_importItem inner
      exact ⟨kind :: base :: separator :: opening :: body ++ [closing], by simp, .others isKind⟩
    · obtain ⟨_, ⟨kind, rfl, isKind⟩, _, inner, rfl⟩ := reads
      obtain ⟨item, body, rfl, isItem, _⟩ := reads_commas reads_importItem inner
      obtain ⟨name, more, rfl, _⟩ := isItem.exists_cons
      exact ⟨kind :: (name :: more ++ body), by simp, .others isKind⟩
  · rcases reads_choose_iff.mp reads with ⟨_, reads⟩ | ⟨_, reads⟩
    · simp only [reads_all_cons_iff, reads_all_nil_iff, reads_token_iff] at reads
      obtain ⟨_, ⟨base, rfl, isBase⟩, _, ⟨separator, rfl, isSeparator⟩, _, inner, rfl⟩ := reads
      obtain ⟨opening, body, closing, rfl, listing, isClosing⟩ := reads_enclosed reads_groupItem inner
      exact ⟨base :: separator :: opening :: body ++ [closing], by simp,
        .group isBase isSeparator listing isClosing⟩
    · obtain ⟨item, body, rfl, isItem, listing⟩ := reads_commas reads_importItem reads
      exact ⟨item ++ body, rfl, .names isItem listing⟩

/-- A group is its common name and the items between its braces. -/
theorem importList_group {base separator opening closing : Token} {body last : List Token}
    (isBase : isName base = true) (isSeparator : separator.isSymbol "\\" = true)
    (listing : IsListing IsGroupItem body) (isClosing : closing.isSymbol "\x7d" = true) :
    importList (base :: separator :: opening :: body ++ [closing] ++ last)
      = .group base.text ((betweenCommas body).filterMap groupItem?) := by
  have inner : (body ++ closing :: last).takeWhile (fun token => !token.isSymbol "\x7d") = body := by
    refine listing.takeWhile_append (fun isItem => isItem.isNaming) (fun token allowed => ?_)
      (by simpa using isClosing)
    exact allowed.elim (·.isSymbol _) (Token.isSymbol_of_ne · (by decide))
  simp [importList, isImportKind_of_isName isBase, isSeparator, inner]

/-- A plain list is the items up to its end. -/
theorem importList_names {first body last : List Token} (isItem : IsItem first)
    (listing : IsListing IsItem (first ++ body)) (ends : ∀ token ∈ last, endsStatement token = true) :
    importList (first ++ body ++ last) = .names ((betweenCommas (first ++ body)).filterMap importItem?) := by
  have inner : (first ++ body ++ last).takeWhile (fun token => !endsStatement token) = first ++ body := by
    refine listing.takeWhile_append (fun isItem => isItem.isNaming) (fun token allowed => ?_)
      fun token there => ends token (List.mem_of_mem_head? there)
    exact allowed.elim (·.endsStatement) (endsStatement_of_isSymbol · (by decide))
  have unseparated : ∀ token ∈ first ++ body ++ last, token.isSymbol "\\" = false := by
    intro token there
    rcases List.mem_append.mp there with there | there
    · rcases listing.isNaming_or_isComma (fun isItem => isItem.isNaming) token there with naming | isComma
      · exact naming.isSymbol _
      · exact Token.isSymbol_of_ne isComma (by decide)
    · rw [Bool.eq_false_iff]
      intro isSeparator
      exact absurd (ends token there) (by simp [endsStatement_of_isSymbol isSeparator (by decide)])
  obtain ⟨name, more, rfl, isName⟩ := isItem.exists_cons
  generalize tokens : name :: more ++ body ++ last = all at inner unseparated
  -- a single name at the end of the script has a case of its own
  match all, tokens with
  | [only], tokens =>
    obtain ⟨rfl, none⟩ := List.cons.inj tokens
    have single : more = [] ∧ body = [] := by simp_all
    have clear : ∀ token ∈ [name], token.isSymbol "," = false := by
      simpa using (isNaming_of_isName isName).isSymbol ","
    rw [single.1, single.2, List.append_nil, betweenCommas_of_clear clear]
    rfl
  | head :: behind :: rest, tokens =>
    obtain ⟨rfl, _⟩ := List.cons.inj tokens
    have apart := unseparated behind (by simp)
    rw [importList, isImportKind_of_isName isName, apart, inner]
    rfl

/-- The imports of spelled tokens are spelled. -/
theorem IsImports.isSpelled {body last : List Token} (imports : IsImports body)
    (ends : ∀ token ∈ last, endsStatement token = true) (spelled : ∀ token ∈ body, token.IsSpelled) :
    (importList (body ++ last)).IsSpelled := by
  cases imports with
  | others isKind =>
    rw [List.cons_append, List.cons_append, importList, if_pos isKind]
    exact .others
  | @group base separator opening closing body isBase isSeparator listing isClosing =>
    rw [importList_group isBase isSeparator listing isClosing]
    exact .group ((spelled base (by simp)).isNameText isBase)
      (listing.forall_mem_filterMap (fun isItem => isItem.isNaming)
        (fun token there => spelled token (by simp [there])) rfl fun isItem => isItem.isSpelled)
  | @names first body isItem listing =>
    rw [importList_names isItem listing ends]
    exact .names (listing.forall_mem_filterMap (fun isItem => isItem.isNaming) spelled rfl
      fun isItem => isItem.isSpelled)

/-- **The imports of a declaration that was read are spelled as such.** -/
theorem isSpelled_importList {first : Token} {body : List Token}
    (reads : Reads rules importDeclaration (first :: body ++ rest) rest)
    (spelled : ∀ token ∈ body, token.IsSpelled) : (importList body).IsSpelled := by
  obtain ⟨_, inner, last, same, imports, ends⟩ := reads_importDeclaration reads
  obtain ⟨_, same⟩ := List.cons.inj same
  obtain rfl : body = inner ++ last := List.append_cancel_right same
  exact imports.isSpelled ends fun token there => spelled token (List.mem_append_left last there)

end AnnotationCheck.Php
