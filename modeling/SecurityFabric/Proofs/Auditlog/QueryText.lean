import SecurityFabric.Proofs.Auditlog.Pieces

/-! # The text of a query

The conditions of a query are put together in groups, one for each mark of the template. Replacing the marks one after
the other puts each group where it belongs, unless a mark occurs in a value of an earlier group; then a mark of the
template stays in the text, outside of all literals, and the text is not read as it was meant.
-/

namespace SecurityFabric.Auditlog

open SqlText List Function Piece

variable {pieces : List Piece} {mark : List Char} {orderBy : List OrderField}

section

variable (isFirst : Bool) (groups : List (List Char × List Piece)) (orderBy : List OrderField)

/-- Conditions behind the word that comes first, or the one between two of them. -/
def clauseText (pieces : List Piece) : List Char :=
  if pieces = [] then []
  else (if isFirst then "WHERE ".toList else "AND ".toList) ++ " AND ".toList.intercalate (pieces.map Piece.text)

def clauseSlot (mark : List Char) (pieces : List Piece) : Slot Char where
  mark := mark
  text sqlStr := clauseText (decide (¬ "WHERE".toList <:+: sqlStr)) pieces
  tail := " ".toList

def orderText : List Char :=
  if orderBy = [] then []
  else "ORDER BY ".toList ++
    ",".toList.intercalate (orderBy.map fun item => item.field.column ++ " ".toList ++ toUpper item.direction)

def orderSlot : Slot Char where
  mark := "[order]".toList
  text _ := orderText orderBy
  tail := []

/-- Conditions by the mark that they replace, and the order. -/
def slots : List (Slot Char) :=
  groups.map (fun group => clauseSlot group.1 group.2) ++ [orderSlot orderBy]

/-- The text that is made. -/
def madeFrom : List Char :=
  fill (slots groups orderBy) (template (slots groups orderBy))

/-- The direction is one of the keywords, in small letters or capitals. -/
abbrev OrderField.Valid (item : OrderField) : Prop := toUpper item.direction ∈ ["ASC".toList, "DESC".toList]

def OrderField.item (item : OrderField) : OrderItem :=
  ⟨item.field.column, decide (toUpper item.direction = "DESC".toList)⟩

/-- The tokens of conditions behind others, or of the first ones. -/
def clauseTokens : List Predicate → List Token
  | [] => []
  | conditions => keyword (if isFirst then "WHERE" else "AND") :: separated (keyword "AND")
      (conditions.map Predicate.tokens)

private theorem clauseTokens_of_ne_nil {isFirst : Bool} {conditions : List Predicate} (nonempty : conditions ≠ []) :
    clauseTokens isFirst conditions =
      keyword (if isFirst then "WHERE" else "AND") :: separated (keyword "AND") (conditions.map Predicate.tokens) := by
  cases conditions with
  | nil => exact absurd rfl nonempty
  | cons condition conditions => rfl

private theorem whereTokens_append (done conditions : List Predicate) :
    whereTokens (done ++ conditions) = whereTokens done ++ clauseTokens (done = []) conditions := by
  by_cases empty : conditions = []
  · subst empty
    simp [clauseTokens]
  · rw [clauseTokens_of_ne_nil empty]
    by_cases isFirst : done = []
    · subst isFirst
      exact whereTokens_of_ne_nil empty
    · have all : done ++ conditions ≠ [] := by simp [isFirst]
      rw [whereTokens_of_ne_nil all, whereTokens_of_ne_nil isFirst, map_append,
        separated_append (map_eq_nil_iff.not.mpr isFirst) (map_eq_nil_iff.not.mpr empty)]
      simp [isFirst]

private theorem tokens_clauseText (filled : ∀ piece ∈ pieces, piece.Filled)
    (readable : ∀ piece ∈ pieces, piece.Readable) :
    tokens (clauseText isFirst pieces) = some (clauseTokens isFirst (pieces.map (predicateBy unescaped))) := by
  by_cases empty : pieces = []
  · subst empty
    rfl
  · have word : tokens (if isFirst then "WHERE".toList else "AND".toList) =
        some [keyword (if isFirst then "WHERE" else "AND")] := by
      cases isFirst <;> rfl
    have joins {first second : List Char} {some₁ some₂ : List Token} (readFirst : tokens first = some some₁)
        (readSecond : tokens second = some some₂) :
        tokens (first ++ " AND ".toList ++ second) = some (some₁ ++ keyword "AND" :: some₂) := by
      have conjunction : tokens "AND".toList = some [keyword "AND"] := rfl
      simpa using tokens_append_blank readFirst (tokens_append_blank conjunction readSecond)
    have whole := tokens_append_blank word (tokens_intercalate joins empty fun piece mem =>
      tokens_text (filled piece mem) (readable piece mem))
    rw [clauseText, if_neg empty, clauseTokens_of_ne_nil (map_eq_nil_iff.not.mpr empty), map_map]
    cases isFirst <;> exact whole

end

private theorem tokens_orderText (valid : ∀ item ∈ orderBy, item.Valid) :
    tokens (orderText orderBy) = some (orderTokens (orderBy.map OrderField.item)) := by
  by_cases empty : orderBy = []
  · subst empty
    rfl
  · have readItem (item : OrderField) (mem : item ∈ orderBy) :
        tokens (item.field.column ++ " ".toList ++ toUpper item.direction) = some item.item.tokens := by
      have word : tokens (toUpper item.direction) =
          some [keyword (if decide (toUpper item.direction = "DESC".toList) then "DESC" else "ASC")] := by
        have words := valid item mem
        simp only [OrderField.Valid, mem_cons, not_mem_nil, or_false] at words
        rcases words with up | down
        · rw [up]
          decide
        · rw [down]
          decide
      simpa [OrderField.item, OrderItem.tokens] using tokens_append_blank (tokens_column item.field) word
    have joins {first second : List Char} {some₁ some₂ : List Token} (readFirst : tokens first = some some₁)
        (readSecond : tokens second = some some₂) :
        tokens (first ++ ",".toList ++ second) = some (some₁ ++ .sign [','] :: some₂) := by
      have comma : ',' ∈ ['(', ')', ','] := by decide
      simpa using tokens_append_sign readFirst readSecond comma
    have readItems := tokens_intercalate joins empty readItem
    have words : tokens "ORDER BY".toList = some [keyword "ORDER", keyword "BY"] := rfl
    have whole := tokens_append_blank words readItems
    rw [orderText, if_neg empty, orderTokens_of_ne_nil (map_eq_nil_iff.not.mpr empty), map_map]
    exact whole

def clauseMarks : List (List Char) := ["[where]".toList, "[in]".toList, "[not_in]".toList]

def allMarks : List (List Char) := clauseMarks ++ ["[order]".toList]

private theorem isMark_of_mem (mem : mark ∈ allMarks) : IsMark '[' ']' mark := by
  simp only [allMarks, clauseMarks, cons_append, nil_append, mem_cons, not_mem_nil, or_false] at mem
  rcases mem with rfl | rfl | rfl | rfl
  · exact ⟨by decide, "where".toList, rfl, by decide, by decide⟩
  · exact ⟨by decide, "in".toList, rfl, by decide, by decide⟩
  · exact ⟨by decide, "not_in".toList, rfl, by decide, by decide⟩
  · exact ⟨by decide, "order".toList, rfl, by decide, by decide⟩

theorem notMem_of_mem_allMarks (mem : mark ∈ allMarks) {letter : Char} (other : letter ∈ ['\'', '\\', ' ', 'W', '%']) :
    letter ∉ mark := by
  have checked : allMarks.all (fun mark => ['\'', '\\', ' ', 'W', '%'].all fun letter => !mark.contains letter) =
      true := by
    decide
  simpa using all_eq_true.mp (all_eq_true.mp checked mark mem) letter other

theorem bracket_mem_of_mem_allMarks (mem : mark ∈ allMarks) : '[' ∈ mark := by
  obtain ⟨rest, rfl, -⟩ := (isMark_of_mem mem).alone
  exact mem_cons_self

section Made

variable {groups : List (List Char × List Piece)} (known : (groups.map Prod.fst).Sublist clauseMarks)

include known

private theorem mark_mem_of_mem_slots {slot : Slot Char} (mem : slot ∈ slots groups orderBy) :
    slot.mark ∈ allMarks := by
  rcases mem_append.mp mem with isClause | isOrder
  · obtain ⟨group, isGroup, rfl⟩ := mem_map.mp isClause
    exact mem_append_left _ (known.subset (mem_map_of_mem isGroup))
  · rw [mem_singleton.mp isOrder]
    exact mem_append_right _ mem_cons_self

private theorem nodup_marks_slots : ((slots groups orderBy).map Slot.mark).Nodup := by
  have all : allMarks.Nodup := by decide
  have same : (slots groups orderBy).map Slot.mark = groups.map Prod.fst ++ ["[order]".toList] := by
    simp [slots, clauseSlot, orderSlot, comp_def]
  rw [same]
  exact (known.append_right _).nodup all

omit known in
private theorem tail_of_mem_slots {slot : Slot Char} (mem : slot ∈ slots groups orderBy) :
    slot.tail = [' '] ∨ slot.tail = [] := by
  rcases mem_append.mp mem with isClause | isOrder
  · obtain ⟨group, isGroup, rfl⟩ := mem_map.mp isClause
    exact .inl rfl
  · rw [mem_singleton.mp isOrder]
    exact .inr rfl

private theorem notMem_slots {letter : Char} (other : letter ∈ ['\'', '\\', 'W']) :
    ∀ slot ∈ slots groups orderBy, letter ∉ slot.mark ∧ letter ∉ slot.tail := by
  have inMarks : letter ∈ ['\'', '\\', ' ', 'W', '%'] := by
    simp only [mem_cons] at other ⊢
    tauto
  have notBlank : letter ≠ ' ' := by
    rintro rfl
    revert other
    decide
  intro slot mem
  refine ⟨notMem_of_mem_allMarks (mark_mem_of_mem_slots known mem) inMarks, ?_⟩
  rcases tail_of_mem_slots mem with blank | nothing
  · simpa [blank] using notBlank
  · simp [nothing]

end Made

section Count

variable {isCounted : Char → Bool} (quote : isCounted '\'' = true)
  (only : ∀ letter, isCounted letter = true → letter = '\'' ∨ letter = '\\')

include quote only

/-- The quotes and backslashes of conditions. -/
theorem countP_clauseText (filled : ∀ piece ∈ pieces, piece.Filled) (isFirst : Bool) :
    (clauseText isFirst pieces).countP isCounted = ((pieces.flatMap quoted).map fun value =>
      value.countP isCounted + 2).sum := by
  have joined : (" AND ".toList.intercalate (pieces.map Piece.text)).countP isCounted =
      ((pieces.flatMap quoted).map fun value => value.countP isCounted + 2).sum := by
    induction pieces with
    | nil => rfl
    | cons piece pieces ih =>
      have first : piece.text.countP isCounted = (piece.quoted.map fun value => value.countP isCounted + 2).sum := by
        rw [text_eq_weave (filled piece mem_cons_self), countP_weave piece.isFixed_head piece.isFixed_parts quote only,
          ← map_fst_parts, map_map]
        rfl
      have later := ih (forall_mem_cons.mp filled).2
      cases pieces with
      | nil => simpa using first
      | cons next pieces =>
        have parted : " AND ".toList.intercalate ((piece :: next :: pieces).map Piece.text) =
            piece.text ++ " AND ".toList ++ " AND ".toList.intercalate ((next :: pieces).map Piece.text) :=
          intercalate_cons_of_ne_nil (cons_ne_nil _ _)
        rw [parted, countP_append, countP_append, first, later, countP_of_isFixed (by decide) only]
        simp
  rw [clauseText]
  split_ifs with empty isFirst
  · rw [empty]
    rfl
  · rw [countP_append, joined, countP_of_isFixed (by decide) only, zero_add]
  · rw [countP_append, joined, countP_of_isFixed (by decide) only, zero_add]

end Count

private theorem isFixed_orderText (valid : ∀ item ∈ orderBy, item.Valid) : isFixed (orderText orderBy) = true := by
  have words : ∀ word ∈ ["ASC".toList, "DESC".toList], isFixed word = true := by decide
  have items : isFixed (",".toList.intercalate
      (orderBy.map fun item => item.field.column ++ " ".toList ++ toUpper item.direction)) = true := by
    refine isFixed_intercalate (by decide) fun text mem => ?_
    obtain ⟨item, isItem, rfl⟩ := mem_map.mp mem
    rw [isFixed_append, isFixed_append, isFixed_column, words _ (valid item isItem)]
    decide
  rw [orderText]
  split_ifs
  · rfl
  · rw [isFixed_append, items]
    decide

/-- The quotes of a text are as many as those around some values. -/
def Paired (text : List Char) : Prop := Even (text.count '\'')

private theorem paired_of_notMem {text : List Char} (noQuote : '\'' ∉ text) : Paired text :=
  ⟨0, count_eq_zero_of_not_mem noQuote⟩

private theorem Paired.append {first second : List Char} (firstPaired : Paired first) (secondPaired : Paired second) :
    Paired (first ++ second) := by
  rw [Paired, count_append]
  exact firstPaired.add secondPaired

private theorem Paired.exchange {old : List Char} (noQuote : '\'' ∉ old) {first second new : List Char}
    (paired : Paired (first ++ (old ++ second)))
    (newPaired : Paired new) : Paired (first ++ (new ++ second)) := by
  rw [Paired, count_append, count_append] at paired ⊢
  rw [count_eq_zero_of_not_mem noQuote, zero_add] at paired
  rw [Nat.add_left_comm]
  exact newPaired.add paired

private theorem paired_clauseText (filled : ∀ piece ∈ pieces, piece.Filled)
    (noQuotes : ∀ value ∈ pieces.flatMap quoted, '\'' ∉ value)
    (isFirst : Bool) : Paired (clauseText isFirst pieces) := by
  have only (letter : Char) (isQuote : (letter == '\'') = true) : letter = '\'' ∨ letter = '\\' :=
    .inl (by simpa using isQuote)
  have pairs : ∀ value ∈ pieces.flatMap quoted, value.countP (· == '\'') + 2 = 2 := by
    intro value isValue
    rw [show value.countP (· == '\'') = 0 from count_eq_zero_of_not_mem (noQuotes value isValue)]
  have total : (clauseText isFirst pieces).count '\'' = _ := countP_clauseText rfl only filled isFirst
  rw [Paired, total, map_congr_left pairs, map_const', sum_replicate_nat]
  exact ⟨(pieces.flatMap quoted).length, by omega⟩

/-- No later mark occurs in a value. -/
def LaterMarksAbsent : List (List Char × List Piece) → Prop
  | [] => True
  | group :: more =>
    (∀ mark ∈ more.map Prod.fst ++ ["[order]".toList], ∀ value ∈ group.2.flatMap Piece.quoted, ¬ mark <:+: value) ∧
    LaterMarksAbsent more

/-- A mark occurs in conditions if it occurs in one of their values. -/
theorem occurs_clauseText (filled : ∀ piece ∈ pieces, piece.Filled) (isFirst : Bool) (isMark : mark ∈ allMarks) :
    mark <:+: clauseText isFirst pieces ↔ ∃ value ∈ pieces.flatMap quoted, mark <:+: value := by
  have bracket := bracket_mem_of_mem_allMarks isMark
  have noQuote : '\'' ∉ mark := notMem_of_mem_allMarks isMark (by decide)
  have noBlank : ' ' ∉ mark := notMem_of_mem_allMarks isMark (by decide)
  have notWithin (text : List Char) (without : '[' ∉ text) : ¬ mark <:+: text :=
    fun within => without (within.subset bracket)
  by_cases empty : pieces = []
  · subst empty
    simpa [clauseText] using ne_nil_of_mem bracket
  · rw [clauseText, if_neg empty]
    constructor
    · intro occurs
      have inPieces : mark <:+: " AND ".toList.intercalate (pieces.map Piece.text) := by
        cases isFirst with
        | true => exact (occurs_of_occurs_append noBlank occurs).resolve_left (notWithin "WHERE".toList (by decide))
        | false => exact (occurs_of_occurs_append noBlank occurs).resolve_left (notWithin "AND".toList (by decide))
      obtain ⟨text, mem, within⟩ := occurs_of_occurs_intercalate noBlank (ne_nil_of_mem bracket)
        (notWithin "AND".toList (by decide)) inPieces
      obtain ⟨piece, isPiece, rfl⟩ := mem_map.mp mem
      obtain ⟨value, isValue, inValue⟩ := (occurs_text (filled piece isPiece) bracket noQuote).mp within
      exact ⟨value, mem_flatMap.mpr ⟨piece, isPiece, isValue⟩, inValue⟩
    · rintro ⟨value, isValue, inValue⟩
      obtain ⟨piece, isPiece, isQuoted⟩ := mem_flatMap.mp isValue
      have inText := (occurs_text (filled piece isPiece) bracket noQuote).mpr ⟨value, isQuoted, inValue⟩
      exact inText.trans ((infix_intercalate (mem_map_of_mem isPiece)).trans (suffix_append _ _).isInfix)

section Made

variable {groups : List (List Char × List Piece)}
  (known : (groups.map Prod.fst).Sublist clauseMarks) (filled : ∀ group ∈ groups, ∀ piece ∈ group.2, piece.Filled)

include known filled

/-- Marks occur before their places if they occur in values of earlier parts. -/
theorem unmarked_iff {front : List Char} (apart : front = [] ∨ ∃ before, front = before ++ [' ']) :
    Unmarked front (slots groups orderBy) ↔
    (∀ mark ∈ groups.map Prod.fst ++ ["[order]".toList], ¬ mark <:+: front) ∧ LaterMarksAbsent groups := by
  induction groups generalizing front with
  | nil => simp [slots, Unmarked, orderSlot, LaterMarksAbsent]
  | cons group more ih =>
    obtain ⟨mark, pieces⟩ := group
    have knownMore : (more.map Prod.fst).Sublist clauseMarks := (sublist_cons_self _ _).trans known
    have filledHere : ∀ piece ∈ pieces, piece.Filled := filled _ mem_cons_self
    have isMark {other : List Char} (mem : other ∈ more.map Prod.fst ++ ["[order]".toList]) : other ∈ allMarks :=
      ((knownMore.append_right _).subset mem : other ∈ clauseMarks ++ ["[order]".toList])
    have later (isFirst : Bool) := @ih knownMore (forall_mem_cons.mp filled).2
      (front ++ (clauseText isFirst pieces ++ " ".toList)) (.inr ⟨front ++ clauseText isFirst pieces, by simp⟩)
    have split (isFirst : Bool) {other : List Char} (mem : other ∈ more.map Prod.fst ++ ["[order]".toList]) :
        other <:+: front ++ (clauseText isFirst pieces ++ " ".toList) ↔
          other <:+: front ∨ ∃ value ∈ pieces.flatMap quoted, other <:+: value := by
      have noBlank : ' ' ∉ other := notMem_of_mem_allMarks (isMark mem) (by decide)
      have nonempty : other ≠ [] := ne_nil_of_mem (bracket_mem_of_mem_allMarks (isMark mem))
      rw [← occurs_clauseText filledHere isFirst (isMark mem)]
      constructor
      · intro occurs
        have behind {text : List Char} (within : other <:+: text ++ ' ' :: []) : other <:+: text :=
          (occurs_of_occurs_append noBlank within).resolve_right fun inNothing => nonempty (infix_nil.mp inNothing)
        rcases apart with rfl | ⟨before, rfl⟩
        · exact .inr (behind occurs)
        · have cut : other <:+: before ++ ' ' :: (clauseText isFirst pieces ++ [' ']) := by simpa using occurs
          rcases occurs_of_occurs_append noBlank cut with inBefore | inClause
          · exact .inl (inBefore.trans (prefix_append _ _).isInfix)
          · exact .inr (behind inClause)
      · rintro (inFront | inClause)
        · exact inFront.trans (prefix_append _ _).isInfix
        · exact inClause.trans ((prefix_append _ _).isInfix.trans (suffix_append _ _).isInfix)
    refine (and_congr_right fun _ => later _).trans ?_
    rw [map_cons, cons_append, forall_mem_cons]
    constructor
    · rintro ⟨absent, laterAbsent, rest⟩
      refine ⟨⟨absent, fun other mem inFront => ?_⟩, fun other mem value isValue inValue => ?_, rest⟩
      · exact laterAbsent other mem ((split _ mem).mpr (.inl inFront))
      · exact laterAbsent other mem ((split _ mem).mpr (.inr ⟨value, isValue, inValue⟩))
    · rintro ⟨⟨absent, inFrontAbsent⟩, inValuesAbsent, rest⟩
      refine ⟨absent, fun other mem occurs => ?_, rest⟩
      rcases (split _ mem).mp occurs with inFront | ⟨value, isValue, inValue⟩
      · exact inFrontAbsent other mem inFront
      · exact inValuesAbsent other mem value isValue inValue

variable (valid : ∀ item ∈ orderBy, item.Valid)

include valid

/-- Every part where it belongs is read as the conditions that were made before, those of the parts, and the order. -/
theorem tokens_inPlace (readable : ∀ group ∈ groups, ∀ piece ∈ group.2, piece.Readable) {front : List Char}
    {done : List Predicate} (continues : ∀ {rest : List Char} {after : List Token}, tokens rest = some after →
      tokens (front ++ rest) = some (whereTokens done ++ after))
    (unopened : done = [] → 'W' ∉ front) (opened : done ≠ [] → "WHERE".toList <:+: front) :
    tokens (inPlace front (slots groups orderBy)) =
      some (Ending.tokens ⟨done ++ (groups.flatMap Prod.snd).map (predicateBy unescaped),
        orderBy.map OrderField.item⟩) := by
  induction groups generalizing front done with
  | nil =>
    have read := continues (tokens_orderText valid)
    simpa [slots, inPlace, orderSlot, Ending.tokens] using read
  | cons group more ih =>
    obtain ⟨mark, pieces⟩ := group
    have knownMore : (more.map Prod.fst).Sublist clauseMarks := (sublist_cons_self _ _).trans known
    have word : decide (¬ "WHERE".toList <:+: front ++ template (slots ((mark, pieces) :: more) orderBy)) =
        decide (done = []) := by
      refine decide_eq_decide.mpr ⟨fun absent => ?_, fun empty occurs => ?_⟩
      · by_contra nonempty
        exact absent ((opened nonempty).trans (prefix_append _ _).isInfix)
      · have first : 'W' ∈ "WHERE".toList := by decide
        rcases mem_append.mp (occurs.subset first) with inFront | inTemplate
        · exact unopened empty inFront
        · exact notMem_template (notMem_slots known (by decide)) inTemplate
    have read := tokens_clauseText (decide (done = [])) (filled _ mem_cons_self) (readable _ mem_cons_self)
    have next := @ih knownMore (forall_mem_cons.mp filled).2 (forall_mem_cons.mp readable).2
      (front ++ (clauseText (decide (done = [])) pieces ++ " ".toList))
      (done ++ pieces.map (predicateBy unescaped)) ?_ ?_ ?_
    · rw [← word] at next
      rw [flatMap_cons, map_append, ← append_assoc]
      exact next
    · intro rest after readRest
      have whole := continues (tokens_append_blank read readRest)
      rw [whereTokens_append]
      simpa using whole
    · intro empty
      obtain ⟨noneDone, noPieces⟩ := append_eq_nil_iff.mp empty
      obtain rfl := map_eq_nil_iff.mp noPieces
      have notFront := unopened noneDone
      simpa [clauseText] using notFront
    · intro nonempty
      by_cases noneDone : done = []
      · have somePieces : pieces ≠ [] := by
          rintro rfl
          exact nonempty (by simp [noneDone])
        refine ⟨front, ' ' :: (" AND ".toList.intercalate (pieces.map Piece.text) ++ " ".toList), ?_⟩
        simp [clauseText, somePieces, noneDone]
      · exact (opened noneDone).trans (prefix_append _ _).isInfix

/-- A text in whose values no later mark occurs. -/
theorem tokens_madeFrom (readable : ∀ group ∈ groups, ∀ piece ∈ group.2, piece.Readable)
    (absent : LaterMarksAbsent groups) :
    tokens (madeFrom groups orderBy) =
      some (Ending.tokens ⟨(groups.flatMap Prod.snd).map (predicateBy unescaped), orderBy.map OrderField.item⟩) := by
  have nothing : ∀ mark ∈ groups.map Prod.fst ++ ["[order]".toList], ¬ mark <:+: [] := by
    intro mark mem within
    have isMark : mark ∈ allMarks := (known.append_right _).subset mem
    exact ne_nil_of_mem (bracket_mem_of_mem_allMarks isMark) (infix_nil.mp within)
  have unmarked : Unmarked [] (slots groups orderBy) := (unmarked_iff known filled (.inl rfl)).mpr ⟨nothing, absent⟩
  have placed : madeFrom groups orderBy = inPlace [] (slots groups orderBy) :=
    fill_of_unmarked (fun slot mem => isMark_of_mem (mark_mem_of_mem_slots known mem)) unmarked
  rw [placed]
  exact @tokens_inPlace orderBy _ known filled valid readable [] [] (fun read => read) (fun _ =>
    not_mem_nil) fun some => absurd rfl some

/-- The quotes and backslashes of the text are those of the values and the quotes around them. -/
theorem countP_madeFrom {isCounted : Char → Bool} (quote : isCounted '\'' = true)
    (only : ∀ letter, isCounted letter = true → letter = '\'' ∨ letter = '\\') :
    (madeFrom groups orderBy).countP isCounted =
      (((groups.flatMap Prod.snd).flatMap quoted).map fun value => value.countP isCounted + 2).sum := by
  have noneIn {letters : List Char} (noQuote : '\'' ∉ letters) (noBackslash : '\\' ∉ letters) :
      letters.countP isCounted = 0 := by
    refine countP_eq_zero.mpr fun letter mem counted => ?_
    rcases only letter counted with rfl | rfl
    · exact noQuote mem
    · exact noBackslash mem
  have marksFree : ∀ slot ∈ slots groups orderBy, slot.mark.countP isCounted = 0 ∧ slot.tail.countP isCounted = 0 := by
    intro slot mem
    obtain ⟨noQuoteInMark, noQuoteInTail⟩ := notMem_slots known (by decide : '\'' ∈ _) slot mem
    obtain ⟨noBackslashInMark, noBackslashInTail⟩ := notMem_slots known (by decide : '\\' ∈ _) slot mem
    exact ⟨noneIn noQuoteInMark noBackslashInMark, noneIn noQuoteInTail noBackslashInTail⟩
  have clauses (group : List Char × List Piece) (isGroup : group ∈ groups) (text : List Char) :
      ((clauseSlot group.1 group.2).text text).countP isCounted =
        ((group.2.flatMap quoted).map fun value => value.countP isCounted + 2).sum :=
    countP_clauseText quote only (filled group isGroup) _
  have order : ((orderSlot orderBy).text []).countP isCounted = 0 := countP_of_isFixed (isFixed_orderText valid) only
  have fixed : ∀ slot ∈ slots groups orderBy, ∀ text, (slot.text text).countP isCounted =
      (slot.text []).countP isCounted := by
    intro slot mem text
    rcases mem_append.mp mem with isClause | isOrder
    · obtain ⟨group, isGroup, rfl⟩ := mem_map.mp isClause
      rw [clauses group isGroup, clauses group isGroup]
    · rw [mem_singleton.mp isOrder]
      rfl
  have total := @countP_fill _ _ [] '[' ']' _ (fun slot mem =>
    isMark_of_mem (mark_mem_of_mem_slots known mem)) _ marksFree fixed
  have sums : (groups.map fun group => ((clauseSlot group.1 group.2).text []).countP isCounted).sum =
      (((groups.flatMap Prod.snd).flatMap quoted).map fun value => value.countP isCounted + 2).sum := by
    clear total fixed marksFree known
    induction groups with
    | nil => rfl
    | cons group more ih =>
      have later := ih (forall_mem_cons.mp filled).2 (forall_mem_cons.mp clauses).2
      rw [map_cons, sum_cons, later, clauses group mem_cons_self, flatMap_cons, flatMap_append, map_append, sum_append]
  rw [madeFrom, ← nil_append (template (slots groups orderBy)), total, slots, map_append, map_singleton, order, ← sums]
  simp [comp_def]

/-- In a text that is read with nothing escaped, no later mark occurs in a value. -/
theorem laterMarksAbsent_of_tokens {all : List Token} (read : tokens (madeFrom groups orderBy) = some all)
    (counted : marksOf all = marks (madeFrom groups orderBy))
    (noQuotes : ∀ value ∈ (groups.flatMap Prod.snd).flatMap quoted, '\'' ∉ value) : LaterMarksAbsent groups := by
  by_contra present
  have noQuote := @notMem_slots orderBy _ known '\'' (by decide)
  have paired : ∀ slot ∈ slots groups orderBy, ∀ text, Paired (slot.text text) := by
    intro slot mem text
    rcases mem_append.mp mem with isClause | isOrder
    · obtain ⟨group, isGroup, rfl⟩ := mem_map.mp isClause
      refine paired_clauseText (filled group isGroup) (fun value isValue => ?_) _
      obtain ⟨piece, isPiece, isQuoted⟩ := mem_flatMap.mp isValue
      exact noQuotes value (mem_flatMap.mpr ⟨piece, mem_flatMap.mpr ⟨group, isGroup, isPiece⟩, isQuoted⟩)
    · rw [mem_singleton.mp isOrder]
      exact ⟨0, countP_of_isFixed (isFixed_orderText valid) (by simp)⟩
  obtain ⟨slot, mem, front, back, made, isEven⟩ := exists_mark_of_not_unmarked
    (fun slot mem => isMark_of_mem (mark_mem_of_mem_slots known mem)) Paired.append
    (fun slot mem => Paired.exchange (noQuote slot mem).1)
    (fun slot mem => (noQuote slot mem).imp paired_of_notMem paired_of_notMem) paired
    (nodup_marks_slots known) fun unmarked => present ((unmarked_iff known filled (.inl rfl)).mp unmarked).2
  obtain ⟨rest, isMark, -⟩ := (isMark_of_mem (mark_mem_of_mem_slots known mem)).alone
  have notInMark := (noQuote slot mem).1
  rw [isMark] at notInMark
  rw [isMark, cons_append] at made
  have isOdd := odd_quotes_behind_bracket read counted made
  rw [count_append, count_eq_zero_of_not_mem fun within => notInMark (mem_cons_of_mem _ within), zero_add] at isOdd
  exact Nat.not_even_iff_odd.mpr isOdd isEven

end Made

/-! # The texts that the functions make

The functions fill the template with the conditions of the request: those written for the entries of the condition, the
lists of values that are not empty, and the order.
-/

variable {dates : List Char → Int → Int → List Char} {condition : List (Field × Value)} {pieces : List Piece}

section Made

variable (format : ℚ → List Char) (order : MapOrder)

/-- The conditions are those that are written for the entries. -/
def Makes (dates : List Char → Int → Int → List Char) : List (Field × Value) → List Piece → Prop :=
  Forall₂ fun entry piece => entryCondition format dates entry.1 entry.2 = .ok (some piece.text)

private theorem mapM_of_written {entries : List (Field × Value)} (isWritten : Makes format dates entries pieces) :
    (entries.mapM fun entry => entryCondition format dates entry.1 entry.2) =
      .ok (pieces.map fun piece => some piece.text) := by
  induction isWritten with
  | nil => rfl
  | cons first _ ih =>
    rw [mapM_cons, first, ih]
    rfl

private theorem addClause_eq (mark : List Char) (filled : pieces ≠ []) (sqlStr : List Char) :
    addClause mark (" AND ".toList.intercalate (pieces.map Piece.text)) sqlStr =
      replaceFirst mark ((clauseSlot mark pieces).text sqlStr) sqlStr := by
  simp only [addClause, clauseSlot, clauseText]
  split_ifs <;> simp_all

theorem range_eq_nil {ε : Type} {entries : List ε} : order.range entries = [] ↔ entries = [] := by
  constructor
  · intro nothing
    exact nil_perm.mp (nothing ▸ order.perm entries)
  · rintro rfl
    exact perm_nil.mp (order.perm [])

theorem addWhere_of_mapM {conditions : List (Option (List Char))} (nonempty : condition ≠ [])
    (mapped : ((order.range condition).mapM fun entry => entryCondition format dates entry.1 entry.2) = .ok conditions)
    (texts : conditions.reduceOption = pieces.map Piece.text) (filled : pieces ≠ []) (sqlStr : List Char) :
    addWhere format dates order sqlStr condition =
      .ok (replaceFirst "[where]".toList ((clauseSlot "[where]".toList pieces).text sqlStr) sqlStr) := by
  rw [addWhere, if_neg nonempty, mapped]
  change Except.ok (addClause _ (" AND ".toList.intercalate conditions.reduceOption) sqlStr) = _
  rw [texts, addClause_eq _ filled]

theorem addWhere_eq (isWritten : Makes format dates (order.range condition) pieces) (sqlStr : List Char) :
    addWhere format dates order sqlStr condition =
      .ok (replaceFirst "[where]".toList ((clauseSlot "[where]".toList pieces).text sqlStr) sqlStr) := by
  by_cases empty : condition = []
  · subst empty
    rw [(range_eq_nil order).mpr rfl] at isWritten
    cases isWritten
    rfl
  · have filled : pieces ≠ [] := by
      rintro rfl
      exact empty ((range_eq_nil order).mp (forall₂_nil_right_iff.mp isWritten))
    have texts : (pieces.map fun piece => some piece.text).reduceOption = pieces.map Piece.text := by
      change (pieces.map _).filterMap id = _
      rw [filterMap_map]
      exact congrFun filterMap_eq_map pieces
    exact addWhere_of_mapM format order empty (mapM_of_written format isWritten) texts filled sqlStr

private theorem addEnums_eq {mark operator : List Char} {piece : Field → List String → Piece}
    (isText : ∀ field values, enumText operator field values = (piece field values).text)
    {enums : List (Field × List String)}
    (filled : ∀ entry ∈ enums, entry.2 ≠ []) (sqlStr : List Char) : addEnums mark operator order sqlStr enums =
      replaceFirst mark ((clauseSlot mark ((order.range enums).map fun entry => piece entry.1 entry.2)).text sqlStr)
        sqlStr := by
  by_cases empty : enums = []
  · subst empty
    rw [(range_eq_nil order).mpr rfl]
    rfl
  · have nonempty : order.range enums ≠ [] := (range_eq_nil order).not.mpr empty
    have all : (order.range enums).filter (fun entry => entry.2.length > 0) = order.range enums := by
      refine filter_eq_self.mpr fun entry mem => ?_
      simpa [length_pos_iff] using filled entry ((order.perm enums).mem_iff.mp mem)
    have texts : (order.range enums).map (fun entry => enumText operator entry.1 entry.2) =
        ((order.range enums).map fun entry => piece entry.1 entry.2).map Piece.text := by
      rw [map_map]
      exact map_congr_left fun entry _ => isText entry.1 entry.2
    rw [addEnums, if_neg empty]
    dsimp only
    rw [all, texts, addClause_eq _ (map_eq_nil_iff.not.mpr nonempty)]

private theorem addOrderToSql_eq (sqlStr : List Char) (orderBy : List OrderField) :
    addOrderToSql sqlStr orderBy = replaceFirst "[order]".toList (orderText orderBy) sqlStr := by
  rw [addOrderToSql, orderText]
  split_ifs <;> rfl

theorem enumEntry_filled {field : Field} {values : List String} : ∀ entry ∈ enumEntry field values, entry.2 ≠ [] := by
  intro entry mem
  rw [enumEntry] at mem
  split_ifs at mem with some
  · rw [mem_singleton.mp mem]
    exact ne_nil_of_length_pos some
  · cases mem

/-- The conditions of lists of values. -/
def included (enums : List (Field × List String)) : List Piece :=
  (order.range enums).map fun entry => .oneOf entry.1 entry.2

def excluded (enums : List (Field × List String)) : List Piece :=
  (order.range enums).map fun entry => .noneOf entry.1 entry.2

def activeGroups (pieces : List Piece) (ids inUserIDs exUserIDs : List String) : List (List Char × List Piece) :=
  [("[where]".toList, pieces), ("[in]".toList, included order (enumEntry .logID ids ++ enumEntry .userID inUserIDs)),
    ("[not_in]".toList, excluded order (enumEntry .userID exUserIDs))]

def historyGroups (pieces : List Piece) (ids : List String) : List (List Char × List Piece) :=
  [("[where]".toList, pieces), ("[in]".toList, included order (enumEntry .id ids))]

/-- The text made for active logs from conditions that are put at their mark, with either interval of dates. -/
theorem buildActive_of_where (added : ∀ sqlStr, addWhere format dates order sqlStr condition =
      .ok (replaceFirst "[where]".toList ((clauseSlot "[where]".toList pieces).text sqlStr) sqlStr))
    (orderBy : List OrderField) (ids inUserIDs exUserIDs : List String) :
    buildActive order (addWhere format dates) condition orderBy ids inUserIDs exUserIDs =
      .ok (String.ofList (madeFrom (activeGroups order pieces ids inUserIDs exUserIDs)
        (setDefaultSortField orderBy ids))) := by
  have inFilled : ∀ entry ∈ enumEntry .logID ids ++ enumEntry .userID inUserIDs, entry.2 ≠ [] :=
    forall_mem_append.mpr ⟨enumEntry_filled, enumEntry_filled⟩
  rw [buildActive, added]
  change Except.ok (String.ofList (addOrderToSql (addNotInToSql order (addInToSql order _ _) _) _)) = _
  rw [addOrderToSql_eq, addNotInToSql,
    addEnums_eq order (fun _ _ => rfl : ∀ field values, _ = (noneOf field values).text) enumEntry_filled, addInToSql,
    addEnums_eq order (fun _ _ => rfl : ∀ field values, _ = (oneOf field values).text) inFilled]
  rfl

theorem buildHistory_eq {category : LogType}
    (isWritten : Makes format betweenDates (order.range (setType category condition)) pieces)
    (orderBy : List OrderField) (ids : List String) :
    buildHistoryCondition format order category condition orderBy ids =
      .ok (String.ofList (madeFrom (historyGroups order pieces ids) (setDefaultSortField orderBy ids))) := by
  rw [buildHistoryCondition, addWhereToSql, addWhere_eq format order isWritten]
  change Except.ok (String.ofList (addOrderToSql (addInToSql order _ _) _)) = _
  rw [addOrderToSql_eq, addInToSql, addEnums_eq order (fun _ _ =>
    rfl : ∀ field values, _ = (oneOf field values).text) enumEntry_filled]
  rfl

end Made

end SecurityFabric.Auditlog
