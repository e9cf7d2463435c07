import AnnotationCheck.Docblock.Language
import AnnotationCheck.Proofs.Text.Trim
import AnnotationCheck.Proofs.Text.Runs

/-!
The template parameters that a docblock declares, line by line.

* `content_eq` — a line without its margin is what stands behind it, trimmed at the end;
  `exists_margin`, `behindMargin_eq`: each line has one margin, behind which an `@` may stand.
* `behindFirst_append`, `wordBehind?_eq_some_iff` — the marks of a tag and the name behind it are read in one way.
* **`templateOfLine?_eq_some_iff`** — what is read off a line is what the line declares.
* **`templates_of_lines`** — the template parameters of a docblock are the names that its lines declare.
-/

namespace AnnotationCheck.Docblock

open Text (Stops stops_dropWhile dropWhile_run takeWhile_run all_of_mem_takeWhile)

/-! ### The margin of a line -/

/-- A star. -/
def isStar (c : Char) : Bool := c == '*'

/-- What stands behind the margin of a line. -/
def behindMargin (line : Text) : Text :=
  ((line.dropWhile Text.isSpace).dropWhile isStar).dropWhile Text.isSpace

/-- A line without its margin is what stands behind it, trimmed at the end. -/
theorem content_eq (line : Text) : content line = Text.trimEnd Text.isSpace (behindMargin line) := by
  have twice : ∀ text : Text, Text.trimEnd Text.isSpace (Text.trimEnd Text.isSpace text)
      = Text.trimEnd Text.isSpace text := fun text => List.rdropWhile_idempotent Text.isSpace text
  show Text.trimEnd Text.isSpace
    (((Text.trimEnd Text.isSpace (line.dropWhile Text.isSpace)).dropWhile isStar).dropWhile Text.isSpace) = _
  rw [Text.dropWhile_trimEnd, Text.dropWhile_trimEnd, twice, behindMargin]

theorem exists_margin (line : Text) : ∃ margin, IsMargin margin ∧ line = margin ++ behindMargin line := by
  refine ⟨_, ⟨line.takeWhile Text.isSpace, (line.dropWhile Text.isSpace).takeWhile isStar,
    ((line.dropWhile Text.isSpace).dropWhile isStar).takeWhile Text.isSpace, all_of_mem_takeWhile _, ?_,
    all_of_mem_takeWhile _, rfl⟩, ?_⟩
  · exact fun c there => eq_of_beq (all_of_mem_takeWhile _ c there)
  · rw [behindMargin, List.append_assoc, List.append_assoc, List.takeWhile_append_dropWhile,
      List.takeWhile_append_dropWhile, List.takeWhile_append_dropWhile]

/-- A tag stands behind any margin ahead of it. -/
theorem behindMargin_eq {margin : Text} (isMargin : IsMargin margin) (tag : Text) :
    behindMargin (margin ++ '@' :: tag) = '@' :: tag := by
  obtain ⟨before, stars, behind, isBefore, areStars, isBehind, rfl⟩ := isMargin
  have noSpace : Stops Text.isSpace ('@' :: tag) := by
    show Option.any Text.isSpace (some '@') = false
    decide
  have noStar : Stops isStar ('@' :: tag) := rfl
  unfold behindMargin
  cases stars with
  | nil =>
    -- without a star the white space before and behind is one run
    have run : ∀ c ∈ before ++ behind, Text.isSpace c = true := List.forall_mem_append.mpr ⟨isBefore, isBehind⟩
    rw [List.nil_append, dropWhile_run run noSpace, noStar.dropWhile_eq, noSpace.dropWhile_eq]
  | cons star stars =>
    have isFirst : star = '*' := areStars star List.mem_cons_self
    have toStars : Stops Text.isSpace ((star :: stars) ++ (behind ++ '@' :: tag)) := by
      rw [isFirst]
      show Option.any Text.isSpace (some '*') = false
      decide
    have behindStars : Stops isStar (behind ++ '@' :: tag) := by
      cases behind with
      | nil => rfl
      | cons c more =>
        have isSpace : Text.isSpace c = true := isBehind c List.mem_cons_self
        show Option.any isStar (some c) = false
        rw [Option.any_some, isStar, beq_eq_false_iff_ne]
        rintro rfl
        revert isSpace
        decide
    have allStars : ∀ c ∈ star :: stars, isStar c = true := fun c there => beq_iff_eq.mpr (areStars c there)
    rw [List.append_assoc, List.append_assoc, dropWhile_run isBefore toStars, dropWhile_run allStars behindStars,
      dropWhile_run isBehind noSpace]

/-! ### The marks of a tag -/

theorem exists_behindFirst (beginnings : List Text) (text : Text) :
    ∃ mark ∈ [] :: beginnings, text = mark ++ behindFirst beginnings text := by
  unfold behindFirst
  cases found : beginnings.findSome? (·.isPrefixOf? text) with
  | none => exact ⟨[], List.mem_cons_self, rfl⟩
  | some rest =>
    obtain ⟨mark, there, behind⟩ := List.exists_of_findSome?_eq_some found
    exact ⟨mark, List.mem_cons_of_mem _ there, (List.isPrefixOf?_eq_some_iff_append_eq.mp behind).symm⟩

/-- Of beginnings that are none of each other, the one that is written is taken off, if none follows it. -/
theorem behindFirst_append {beginnings : List Text}
    (apart : ∀ one ∈ beginnings, ∀ other ∈ beginnings, one <+: other → one = other) {mark rest : Text}
    (isMark : mark ∈ [] :: beginnings) (none : ∀ other ∈ beginnings, ¬ other <+: rest) :
    behindFirst beginnings (mark ++ rest) = rest := by
  unfold behindFirst
  cases found : beginnings.findSome? (·.isPrefixOf? (mark ++ rest)) with
  | none =>
    rcases List.mem_cons.mp isMark with rfl | there
    · rfl
    · have absent := List.findSome?_eq_none_iff.mp found mark there
      rw [List.isPrefixOf?_eq_some_iff_append_eq.mpr rfl] at absent
      cases absent
  | some behind =>
    obtain ⟨other, isOther, taken⟩ := List.exists_of_findSome?_eq_some found
    have same : other ++ behind = mark ++ rest := List.isPrefixOf?_eq_some_iff_append_eq.mp taken
    rcases List.mem_cons.mp isMark with rfl | there
    · exact absurd ⟨behind, same⟩ (none other isOther)
    · have begins : other <+: mark ++ rest := ⟨behind, same⟩
      have sameMark : other = mark := by
        rcases List.prefix_or_prefix_of_prefix begins (List.prefix_append mark rest) with first | first
        · exact apart other isOther mark there first
        · exact (apart mark there other isOther first).symm
      rw [sameMark] at same
      exact List.append_cancel_left same

theorem not_isPrefix_of_head? {mark rest : Text} {c : Char} (begins : mark.head? = some c)
    (other : rest.head? ≠ some c) : ¬ mark <+: rest := by
  rintro ⟨behind, rfl⟩
  rw [List.head?_append, begins] at other
  exact other rfl

theorem behindFirst_vendorMarks {vendor : Text} (isVendor : vendor ∈ [] :: vendorMarks) (rest : Text) :
    behindFirst vendorMarks (vendor ++ (templateWord ++ rest)) = templateWord ++ rest := by
  have marked : ∀ mark ∈ vendorMarks, mark.head? = some 'p' := by decide +kernel
  refine behindFirst_append (by decide +kernel) isVendor fun mark there => not_isPrefix_of_head? (marked mark there) ?_
  have begins : templateWord.head? = some 't' := by decide
  rw [List.head?_append, begins]
  simp

theorem behindFirst_variances {variance gap : Text} (isVariance : variance ∈ [] :: variances) (some : gap ≠ [])
    (isGap : IsSpaces gap) (rest : Text) : behindFirst variances (variance ++ (gap ++ rest)) = gap ++ rest := by
  have marked : ∀ mark ∈ variances, mark.head? = .some '-' := by decide +kernel
  refine behindFirst_append (by decide +kernel) isVariance fun mark there =>
    not_isPrefix_of_head? (marked mark there) ?_
  obtain ⟨c, more, rfl⟩ := List.exists_cons_of_ne_nil some
  have isSpace : Text.isSpace c = true := isGap c List.mem_cons_self
  rw [List.cons_append, List.head?_cons, ne_eq, Option.some.injEq]
  rintro rfl
  revert isSpace
  decide

/-! ### The name behind a tag -/

/-- A word is read behind white space and up to white space. -/
theorem wordBehind?_eq_some_iff {text word : Text} (some : word ≠ []) :
    wordBehind? text = .some word ↔
      ∃ gap rest, gap ≠ [] ∧ IsSpaces gap ∧ (∀ c ∈ word, Text.isSpace c = false)
        ∧ (∀ c ∈ rest.head?, Text.isSpace c = true) ∧ text = gap ++ (word ++ rest) := by
  -- a word goes on as long as there is no white space
  have stops : ∀ rest : Text, Stops (fun c => !Text.isSpace c) rest ↔ ∀ c ∈ rest.head?, Text.isSpace c = true := by
    intro rest
    cases rest <;> simp [Stops]
  constructor
  · intro found
    cases text with
    | nil => cases found
    | cons c more =>
      simp only [wordBehind?] at found
      split at found
      · rename_i isSpace
        cases found
        refine ⟨c :: more.takeWhile Text.isSpace, (more.dropWhile Text.isSpace).dropWhile fun d => !Text.isSpace d,
          by simp, ?_, ?_, (stops _).mp (stops_dropWhile _), ?_⟩
        · exact List.forall_mem_cons.mpr ⟨isSpace, all_of_mem_takeWhile more⟩
        · exact fun d there => by simpa using all_of_mem_takeWhile _ d there
        · rw [List.takeWhile_append_dropWhile, List.cons_append, List.takeWhile_append_dropWhile]
      · cases found
  · rintro ⟨gap, rest, nonempty, isGap, isWord, ends, rfl⟩
    obtain ⟨c, more, rfl⟩ := List.exists_cons_of_ne_nil nonempty
    obtain ⟨isSpace, spaces⟩ := List.forall_mem_cons.mp isGap
    have atWord : Stops Text.isSpace (word ++ rest) := by
      obtain ⟨d, letters, rfl⟩ := List.exists_cons_of_ne_nil some
      exact isWord d List.mem_cons_self
    have word' : ∀ d ∈ word, (!Text.isSpace d) = true := fun d there => by rw [isWord d there]; rfl
    simp only [wordBehind?, List.cons_append, isSpace, if_true]
    rw [dropWhile_run spaces atWord, takeWhile_run word' ((stops rest).mpr ends)]

/-! ### Lines -/

theorem IsTemplateName.ne_nil {name : Text} (isName : IsTemplateName name) : name ≠ [] := by
  rintro rfl
  cases isName.begins

/-- Behind its margin, a line with a template tag is trimmed behind the name. -/
theorem content_of_tag {margin front name rest : Text} (isMargin : IsMargin margin) (isName : IsTemplateName name) :
    content (margin ++ '@' :: (front ++ (name ++ rest)))
      = '@' :: (front ++ (name ++ Text.trimEnd Text.isSpace rest)) := by
  have kept : Text.trimEnd Text.isSpace name = name := Text.trimEnd_eq_self isName.isWord
  rw [content_eq, behindMargin_eq isMargin, ← List.cons_append, Text.trimEnd_append,
    Text.trimEnd_append_of_trimmed kept, if_neg (by simp [isName.ne_nil]), List.cons_append]

/-- **What is read off a line is what the line declares.** -/
theorem templateOfLine?_eq_some_iff {line name : Text} : templateOfLine? line = some name ↔ Declares line name := by
  unfold templateOfLine?
  simp only [Option.bind_eq_bind, Option.bind_eq_some_iff, List.isPrefixOf?_eq_some_iff_append_eq]
  constructor
  · rintro ⟨tag, atTag, rest, atWord, word, found, kept⟩
    split at kept
    · rename_i begins
      cases kept
      have some : name ≠ [] := by
        rintro rfl
        cases begins
      obtain ⟨margin, isMargin, ofMargin⟩ := exists_margin line
      obtain ⟨ending, behind, spaces⟩ := Text.exists_append_trimEnd Text.isSpace (behindMargin line)
      obtain ⟨vendor, isVendor, ofVendor⟩ := exists_behindFirst vendorMarks tag
      obtain ⟨variance, isVariance, ofVariance⟩ := exists_behindFirst variances rest
      obtain ⟨gap, more, nonempty, isGap, isWord, ends, ofGap⟩ := (wordBehind?_eq_some_iff some).mp found
      refine ⟨margin, _, more ++ ending, isMargin,
        ⟨vendor, isVendor, variance, isVariance, gap, nonempty, isGap, rfl⟩, ⟨begins, isWord⟩, ?_, ?_⟩
      · cases more with
        | nil => exact fun c first => spaces c (List.mem_of_mem_head? first)
        | cons d more => exact ends
      · rw [ofMargin, behind, ← content_eq, ← atTag, ofVendor, ← atWord, ofVariance, ofGap]
        simp
    · cases kept
  · rintro ⟨margin, _, rest, isMargin, ⟨vendor, isVendor, variance, isVariance, gap, some, isGap, rfl⟩, isName, ends,
      rfl⟩
    obtain ⟨ending, whole, -⟩ := Text.exists_append_trimEnd Text.isSpace rest
    have stillEnds : ∀ c ∈ (Text.trimEnd Text.isSpace rest).head?, Text.isSpace c = true := by
      intro c first
      refine ends c ?_
      rw [whole, List.head?_append, Option.mem_def.mp first]
      rfl
    have tag : content (margin ++ '@' :: ((vendor ++ (templateWord ++ (variance ++ gap))) ++ (name ++ rest)))
        = '@' :: ((vendor ++ (templateWord ++ (variance ++ gap))) ++ (name ++ Text.trimEnd Text.isSpace rest)) :=
      content_of_tag isMargin isName
    refine ⟨vendor ++ (templateWord ++ (variance ++ (gap ++ (name ++ Text.trimEnd Text.isSpace rest)))), ?_,
      variance ++ (gap ++ (name ++ Text.trimEnd Text.isSpace rest)), ?_, name, ?_, if_pos isName.begins⟩
    · simpa using tag.symm
    · rw [behindFirst_vendorMarks isVendor]
    · rw [behindFirst_variances isVariance some isGap]
      exact (wordBehind?_eq_some_iff isName.ne_nil).mpr ⟨gap, _, some, isGap, isName.isWord, stillEnds, rfl⟩

/-- The names that lines declare are those that are read off the lines. -/
theorem lists_iff {lines names : List Text} : Lists lines names ↔ lines.filterMap templateOfLine? = names := by
  constructor
  · intro lists
    induction lists with
    | nil => rfl
    | tag declares _ ih => rw [List.filterMap_cons_some (templateOfLine?_eq_some_iff.mpr declares), ih]
    | other ordinary _ ih =>
      have nothing := Option.eq_none_iff_forall_ne_some.mpr fun name found =>
        ordinary name (templateOfLine?_eq_some_iff.mp found)
      rw [List.filterMap_cons_none nothing, ih]
  · rintro rfl
    induction lines with
    | nil => exact .nil
    | cons line rest ih =>
      cases found : templateOfLine? line with
      | none =>
        rw [List.filterMap_cons_none found]
        refine .other (fun name declares => ?_) ih
        rw [templateOfLine?_eq_some_iff.mpr declares] at found
        cases found
      | some name =>
        rw [List.filterMap_cons_some found]
        exact .tag (templateOfLine?_eq_some_iff.mp found) ih

/-! ### Docblocks as they are written -/

/-- White space at the end of a line changes nothing. -/
theorem templateOfLine?_append {ending : Text} (spaces : IsSpaces ending) (line : Text) :
    templateOfLine? (line ++ ending) = templateOfLine? line := by
  have trimmed : Text.trim Text.isSpace (line ++ ending) = Text.trim Text.isSpace line := by
    rw [Text.trim, ← Text.dropWhile_trimEnd, Text.trimEnd_append, if_pos (Text.trimEnd_eq_nil spaces),
      Text.dropWhile_trimEnd, Text.trim]
  rw [templateOfLine?, templateOfLine?, content, content, trimmed]

theorem LineEnd.isSpaces_mark (ending : LineEnd) : IsSpaces ending.mark := by
  cases ending <;> decide +kernel

theorem LineEnd.not_mem_mark (ending : LineEnd) : '\n' ∉ ending.mark := by
  cases ending <;> simp [mark]

/-- Whichever way the lines end, what is read off the text that they come to is read off each of them. -/
theorem filterMap_fields_joined {lines : List (Text × LineEnd)} (clear : ∀ line ∈ lines, '\n' ∉ line.1) :
    (Text.fields '\n' (joined lines)).filterMap templateOfLine?
      = (lines.map Prod.fst).filterMap templateOfLine? := by
  induction lines with
  | nil => rfl
  | cons first rest ih =>
    obtain ⟨clearFirst, clearRest⟩ := List.forall_mem_cons.mp clear
    cases rest with
    | nil => rw [joined, Text.fields_eq_singleton clearFirst]; rfl
    | cons next more =>
      have clearLine : '\n' ∉ first.1 ++ first.2.mark :=
        fun there => (List.mem_append.mp there).elim clearFirst first.2.not_mem_mark
      calc (Text.fields '\n' (joined (first :: next :: more))).filterMap templateOfLine?
          = ((first.1 ++ first.2.mark) :: Text.fields '\n' (joined (next :: more))).filterMap templateOfLine? := by
            rw [joined, ← List.append_assoc, Text.fields_append_cons clearLine]
        _ = (first.1 :: (next :: more).map Prod.fst).filterMap templateOfLine? := by
            rw [List.filterMap_cons, templateOfLine?_append first.2.isSpaces_mark, ih clearRest, ← List.filterMap_cons]

/-- Between the marks of a docblock stand its lines, whatever white space is around them. -/
theorem inner_written {lead trail : Text} (isLead : IsSpaces lead) (isTrail : IsSpaces trail)
    (lines : List (Text × LineEnd)) : inner (written lead lines trail) = joined lines := by
  have trimmed : Text.trim Text.isSpace (written lead lines trail)
      = "/**".toList ++ (joined lines ++ "*/".toList) := by
    refine Text.trim_of_enclosed isLead isTrail rfl ?_
    have closed : Text.trimEnd Text.isSpace "*/".toList = "*/".toList := by decide
    rw [← List.append_assoc, Text.trimEnd_append, closed, if_neg (by decide)]
  have opened : ("/**".toList).isPrefixOf? ("/**".toList ++ (joined lines ++ "*/".toList))
      = some (joined lines ++ "*/".toList) := List.isPrefixOf?_eq_some_iff_append_eq.mpr rfl
  have closed : Text.beforeSuffix? "*/".toList (joined lines ++ "*/".toList) = some (joined lines) := by
    have behind : ("*/".toList.reverse).isPrefixOf? (joined lines ++ "*/".toList).reverse
        = some (joined lines).reverse := by
      rw [List.reverse_append]
      exact List.isPrefixOf?_eq_some_iff_append_eq.mpr rfl
    rw [Text.beforeSuffix?, behind, Option.map_some, List.reverse_reverse]
  simp only [inner, trimmed, opened, closed, Option.getD_some]

theorem templates_written {lead trail : Text} (isLead : IsSpaces lead) (isTrail : IsSpaces trail)
    {lines : List (Text × LineEnd)} (clear : ∀ line ∈ lines, '\n' ∉ line.1) :
    templates (written lead lines trail) = (lines.map Prod.fst).filterMap templateOfLine? := by
  rw [templates, inner_written isLead isTrail, filterMap_fields_joined clear]

/-- A line that is written as a template tag declares the name that it was written for. -/
theorem TagLine.declares (tag : TagLine) : Declares tag.text tag.name := by
  have blank : IsSpaces [' '] := by decide +kernel
  refine ⟨tag.margin, _, ' ' :: tag.remark, tag.isMargin, ⟨tag.vendor, tag.isVendor, tag.variance, tag.isVariance,
    [' '], by simp, blank, rfl⟩, tag.isName, ?_, rfl⟩
  intro c first
  exact blank c (List.mem_of_mem_head? first)

theorem templateOfLine?_text (row : Row) : templateOfLine? row.text = row.name? := by
  cases row with
  | tag row => exact templateOfLine?_eq_some_iff.mpr row.declares
  | other line ordinary =>
    exact Option.eq_none_iff_forall_ne_some.mpr fun name found =>
      ordinary name (templateOfLine?_eq_some_iff.mp found)

/-- **The template parameters of a docblock are the names that its lines declare,** one for each line that is a
template tag and none for any other, in the order of the lines; so a docblock that was written for some names
gives these back. Neither the ends of the lines nor white space around the docblock matter. -/
theorem templates_of_lines {lead trail : Text} (isLead : IsSpaces lead) (isTrail : IsSpaces trail) :
    (∀ (lines : List (Text × LineEnd)) (names : List Text), (∀ line ∈ lines, '\n' ∉ line.1) →
      (templates (written lead lines trail) = names ↔ Lists (lines.map Prod.fst) names))
    ∧ ∀ rows : List (Row × LineEnd), (∀ row ∈ rows, '\n' ∉ row.1.text) →
      templates (written lead (rows.map fun row => (row.1.text, row.2)) trail)
        = rows.filterMap fun row => row.1.name? := by
  constructor
  · intro lines names clear
    rw [templates_written isLead isTrail clear, lists_iff]
  · intro rows clear
    rw [templates_written isLead isTrail (List.forall_mem_map.mpr clear), List.map_map, List.filterMap_map]
    exact List.filterMap_congr fun row _ => templateOfLine?_text row.1

/-- A look-alike: the tag's word goes on. -/
theorem not_declares_lookAlike (name : Text) : ¬ Declares " * @templateFoo Bar".toList name := by
  rw [← templateOfLine?_eq_some_iff]
  have nothing : templateOfLine? " * @templateFoo Bar".toList = none := by decide +kernel
  rw [nothing]
  exact nofun

/-- Two template tags with a look-alike between them; the second tag stands before the closing marks. -/
def twoTags : List (Row × LineEnd) :=
  [(.tag
      { margin := " * ".toList, vendor := "phan-".toList, variance := "-covariant".toList, name := "T".toList
        remark := "of Item".toList
        isMargin := ⟨[' '], ['*'], [' '], by decide +kernel, by simp, by decide +kernel, rfl⟩
        isVendor := by decide +kernel, isVariance := by decide +kernel
        isName := by decide +kernel },
    .returnAndLineFeed),
   (.other " * @templateFoo Bar".toList not_declares_lookAlike, .lineFeed),
   (.tag
      { margin := "** ".toList, vendor := [], variance := [], name := "_K".toList, remark := []
        isMargin := ⟨[], ['*', '*'], [' '], by decide +kernel, by simp, by decide +kernel, rfl⟩
        isVendor := by decide +kernel, isVariance := by decide +kernel
        isName := by decide +kernel },
    .lineFeed)]

theorem templates_of_twoTags :
    IsSpaces [' ', '\n'] ∧ IsSpaces ['\t'] ∧ (∀ row ∈ twoTags, '\n' ∉ row.1.text)
    ∧ templates " \n/** * @phan-template-covariant T of Item\r\n * @templateFoo Bar\n** @template _K */\t".toList
        = ["T".toList, "_K".toList]
    ∧ Lists (twoTags.map fun row => row.1.text) ["T".toList, "_K".toList] := by
  have lead : IsSpaces [' ', '\n'] := by decide +kernel
  have trail : IsSpaces ['\t'] := by decide +kernel
  have clear : ∀ row ∈ twoTags, '\n' ∉ row.1.text := by decide +kernel
  obtain ⟨lines, rows⟩ := templates_of_lines lead trail
  have names := rows twoTags clear
  refine ⟨lead, trail, clear, names, ?_⟩
  have lists := (lines _ _ (List.forall_mem_map.mpr clear)).mp names
  rwa [List.map_map] at lists

end AnnotationCheck.Docblock
