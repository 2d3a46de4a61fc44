import SecurityFabric.Proofs.Auditlog.Conditions
import SecurityFabric.ToMathlib.Guarantees

/-! # Conditions that mean what they were asked for

The end of the query made from a request for a report should be a statement whose conditions are those of the request,
one for one, each for the same rows, whatever the values are.

That is so exactly for clean requests. A value must not have a quote or begin an escape, and no value may contain a mark
of the template that is replaced later. The entries have to be clean, and the order must not be by a field without a
name, nor in a direction that is no keyword.
-/

namespace SecurityFabric.Auditlog

open SqlText List

/-- A condition on fields that may be searched, with values of their kinds. -/
def Searches (params : AvailableParam) (condition : List (Field × Value)) : Prop :=
  ∀ entry ∈ condition, entry.1 ∈ params.searchFields ∧ (criterion entry.1 entry.2).isSome

/-- The criteria of conditions and of lists of values, in the order in which maps are gone through. -/
def criteriaOf (order : MapOrder) (condition : List (Field × Value)) (included excluded : List (Field × List String)) :
    List Criterion :=
  (order.range condition).filterMap (fun entry => criterion entry.1 entry.2) ++
    ((order.range included).map (fun entry => .oneOf entry.1 entry.2) ++ (order.range excluded).map fun entry =>
    .noneOf entry.1 entry.2)

/-- The text is a statement that expresses the criteria one for one and orders by columns of the table, up or down. -/
def Means {Row : Type} (table : Table Row) (built : Except BuildError String) (criteria : List Criterion)
    (orderBy : List OrderField) : Prop :=
  ∃ text conditions, built = .ok text ∧ tokens text.toList =
    some (Ending.tokens ⟨conditions, orderBy.map OrderField.item⟩) ∧
    Forall₂ (Expresses table) conditions criteria ∧ ∀ item ∈ orderBy, item.field.column ∈ table.columns ∧ item.Valid

/-- A clean request for active logs. -/
@[mk_iff]
structure ActiveClean (condition : List (Field × Value)) (orderBy : List OrderField)
    (inUserIDs exUserIDs : List String) : Prop where
  condition : ∀ entry ∈ condition, EntryClean ["[in]".toList, "[not_in]".toList, "[order]".toList] entry.1 entry.2
  included : ∀ id ∈ inUserIDs, TextClean ["[not_in]".toList, "[order]".toList] id.toList
  excluded : ∀ id ∈ exUserIDs, TextClean ["[order]".toList] id.toList
  order : ∀ item ∈ orderBy, item.field ≠ .unnamed ∧ item.Valid

/-- A clean request for files of old logs. -/
@[mk_iff]
structure HistoryClean (condition : List (Field × Value)) (orderBy : List OrderField) (ids : List String) : Prop where
  condition : ∀ entry ∈ condition, EntryClean ["[in]".toList, "[order]".toList] entry.1 entry.2
  included : ∀ id ∈ ids, TextClean ["[order]".toList] id.toList
  order : ∀ item ∈ orderBy, item.field ≠ .unnamed ∧ item.Valid

/-- A condition that expresses a criterion with values can be read. -/
theorem Expresses.isProper {Row : Type} {table : Table Row} {condition : Predicate} {criterion : Criterion}
    (expresses : Expresses table condition criterion)
    (filled : ∀ field texts, criterion = .oneOf field texts ∨ criterion = .noneOf field texts → texts ≠ []) :
    condition.Proper := by
  have shape := expresses.shape
  cases condition with
  | oneOf column held =>
    cases criterion with
    | oneOf field texts => exact shape.2 ▸ map_eq_nil_iff.not.mpr (filled field texts (.inl rfl))
    | _ => cases shape
  | noneOf column held =>
    cases criterion with
    | noneOf field texts => exact shape.2 ▸ map_eq_nil_iff.not.mpr (filled field texts (.inr rfl))
    | _ => cases shape
  | _ => trivial

/-- Such a text selects exactly the rows that meet every criterion, if no list is empty. -/
theorem Means.selected {Row : Type} {table : Table Row} {built : Except BuildError String} {criteria : List Criterion}
    {orderBy : List OrderField} (means : Means table built criteria orderBy)
    (filled : ∀ criterion ∈ criteria, ∀ field texts,
      criterion = .oneOf field texts ∨ criterion = .noneOf field texts → texts ≠ []) :
    ∃ text ending, built = .ok text ∧ statement text = some ending ∧
      ∀ row, ending.selects table row = true ↔ ∀ criterion ∈ criteria, criterion.satisfied (table.cell row) := by
  obtain ⟨text, conditions, isBuilt, read, expressed, -⟩ := means
  have each : (∀ condition ∈ conditions, condition.Proper) ∧ ∀ row,
      (∀ condition ∈ conditions, condition.holds (table.cell row) = true) ↔
        ∀ criterion ∈ criteria, criterion.satisfied (table.cell row) := by
    clear read
    induction expressed with
    | nil => simp
    | cons first _ ih =>
      obtain ⟨here, later⟩ := forall_mem_cons.mp filled
      obtain ⟨proper, rows⟩ := ih later
      refine ⟨forall_mem_cons.mpr ⟨first.isProper here, proper⟩, fun row => ?_⟩
      rw [forall_mem_cons, forall_mem_cons, first.rows row, rows row]
  refine ⟨text, ⟨conditions, _⟩, isBuilt, by rw [statement, read]; exact readEnding_tokens each.1, fun row => ?_⟩
  rw [Ending.selects, all_eq_true]
  exact each.2 row

variable {field : Field}

section Entries

def criteria (entries : List (Field × Value)) : List Criterion :=
  entries.filterMap fun entry => criterion entry.1 entry.2

def AllWritten : List (Field × Value) → List Piece → Prop :=
  Forall₂ fun entry piece => written entry.1 entry.2 = some piece

variable {Row : Type} {table : Table Row} {marks : List (List Char)} {entries : List (Field × Value)}

private theorem criteria_cons {entry : Field × Value} {here : Criterion}
    (isHere : criterion entry.1 entry.2 = some here) :
    criteria (entry :: entries) = here :: criteria entries := by
  simp [criteria, isHere]

variable (asked : ∀ entry ∈ entries, (criterion entry.1 entry.2).isSome)

include asked

/-- All entries are clean exactly if conditions are written for them whose values are clean and which express their
criteria. -/
theorem entriesClean_iff (known : ∀ mark ∈ marks, mark ∈ allMarks) (fits : ∀ entry ∈ entries, Fits table entry.1)
    (typed : ∀ entry ∈ entries, ∀ code, entry.2 = .int code → ∃ category ∈ allLogType, code = category.code) :
    (∀ entry ∈ entries, EntryClean marks entry.1 entry.2) ↔
      ∃ pieces, AllWritten entries pieces ∧ (∀ text ∈ pieces.flatMap Piece.quoted, TextClean marks text) ∧
        Forall₂ (Expresses table) (pieces.map Piece.predicate) (criteria entries) := by
  induction entries with
  | nil => simp [AllWritten, criteria]
  | cons entry entries ih =>
    obtain ⟨isAsked, askedLater⟩ := forall_mem_cons.mp asked
    obtain ⟨fitsHere, fitsLater⟩ := forall_mem_cons.mp fits
    obtain ⟨typedHere, typedLater⟩ := forall_mem_cons.mp typed
    obtain ⟨here, isHere⟩ := Option.isSome_iff_exists.mp isAsked
    rw [forall_mem_cons, ih askedLater fitsLater typedLater,
      entryClean_iff known (asked_of_criterion isHere) fitsHere typedHere, criteria_cons isHere]
    constructor
    · rintro ⟨⟨piece, isWritten, clean, expresses⟩, pieces, areWritten, areClean, express⟩
      refine ⟨piece :: pieces, .cons isWritten areWritten, fun text mem => ?_, .cons expresses express⟩
      rcases mem_append.mp mem with first | later
      · exact clean text first
      · exact areClean text later
    · rintro ⟨pieces, areWritten, areClean, express⟩
      cases areWritten with
      | cons isWritten areWritten =>
        cases express with
        | cons expresses express =>
          exact ⟨⟨_, isWritten, (forall_mem_append.mp areClean).1, expresses⟩, _, areWritten,
            (forall_mem_append.mp areClean).2, express⟩

/-- Conditions are written for criteria. -/
theorem writes_of_written {pieces : List Piece} (areWritten : AllWritten entries pieces) (format : ℚ → List Char) :
    Forall₂ Writes pieces (criteria entries) ∧ Makes format betweenDates entries pieces := by
  induction areWritten with
  | nil => exact ⟨.nil, .nil⟩
  | @cons entry piece entries pieces isWritten _ ih =>
    obtain ⟨isAsked, askedLater⟩ := forall_mem_cons.mp asked
    obtain ⟨writes, conditions⟩ := ih askedLater
    obtain ⟨here, isHere⟩ := Option.isSome_iff_exists.mp isAsked
    rw [criteria_cons isHere]
    rcases entryCondition_of_asked format (asked_of_criterion isHere) with
      ⟨other, isOther, condition, writesHere⟩ | ⟨notWritten, -⟩
    · obtain rfl := Option.some.inj (isWritten.symm.trans isOther)
      exact ⟨.cons writesHere writes, .cons condition conditions⟩
    · rw [isWritten] at notWritten
      cases notWritten

/-- Conditions are written for all entries if none of them fails. -/
theorem exists_written (format : ℚ → List Char) {conditions : List (Option (List Char))}
    (ran : (entries.mapM fun entry => entryCondition format betweenDates entry.1 entry.2) = .ok conditions) :
    ∃ pieces, AllWritten entries pieces := by
  have each : ∀ entry ∈ entries, ∃ piece, written entry.1 entry.2 = some piece := by
    intro entry mem
    obtain ⟨text, condition⟩ := exists_of_mapM_ok ran entry mem
    obtain ⟨here, isHere⟩ := Option.isSome_iff_exists.mp (asked entry mem)
    rcases entryCondition_of_asked format (asked_of_criterion isHere) with ⟨piece, isWritten, -⟩ | ⟨-, failed⟩
    · exact ⟨piece, isWritten⟩
    · rw [failed] at condition
      cases condition
  clear asked ran
  induction entries with
  | nil => exact ⟨[], .nil⟩
  | cons entry entries ih =>
    obtain ⟨⟨piece, isWritten⟩, later⟩ := forall_mem_cons.mp each
    obtain ⟨pieces, areWritten⟩ := ih later
    exact ⟨piece :: pieces, .cons isWritten areWritten⟩

omit asked in
private theorem varied_of_asked {value : Value} {asked : Criterion} (isAsked : Asked field value asked)
    (fits : Fits table field) : asked.Varied table := by
  cases isAsked with
  | substring searched =>
    refine fits.texts ?_
    tauto
  | _ => trivial

/-- What is made from entries and from lists of values means what it should exactly if all values are clean. -/
theorem means_iff {others : List (List Char × List Piece)} {rest : List Criterion}
    {built : Except BuildError String} (orderBy : List OrderField) (format : ℚ → List Char)
    (known : ("[where]".toList :: others.map Prod.fst).Sublist clauseMarks)
    (fits : ∀ entry ∈ entries, Fits table entry.1)
    (typed : ∀ entry ∈ entries, ∀ code, entry.2 = .int code → ∃ category ∈ allLogType, code = category.code)
    (made : ∀ pieces, Makes format betweenDates entries pieces →
      built = .ok (String.ofList (madeFrom (("[where]".toList, pieces) :: others) orderBy))) (ran :
      ∀ text, built = .ok text →
      ∃ conditions, (entries.mapM fun entry => entryCondition format betweenDates entry.1 entry.2) = .ok conditions)
    (writesRest : Forall₂ Writes (others.flatMap Prod.snd) rest)
    (variedRest : ∀ criterion ∈ rest, criterion.Varied table)
    (expressRest : Forall₂ (Expresses table) ((others.flatMap Prod.snd).map Piece.predicate) rest) :
    Means table built (criteria entries ++ rest) orderBy ↔
      (∀ entry ∈ entries, EntryClean (others.map Prod.fst ++ ["[order]".toList]) entry.1 entry.2) ∧ GroupsClean others ∧
        ∀ item ∈ orderBy, item.field.column ∈ table.columns ∧ item.Valid := by
  have isMark : ∀ mark ∈ others.map Prod.fst ++ ["[order]".toList], mark ∈ allMarks := fun mark mem =>
    (((sublist_cons_self _ _).trans known).append_right _).subset mem
  have varied : ∀ wanted ∈ criteria entries ++ rest, wanted.Varied table := by
    intro wanted mem
    rcases mem_append.mp mem with ofEntry | ofRest
    · obtain ⟨entry, isEntry, isCriterion⟩ := mem_filterMap.mp ofEntry
      exact varied_of_asked (asked_of_criterion isCriterion) (fits entry isEntry)
    · exact variedRest wanted ofRest
  -- the text of conditions that are written, as it was made
  have core {pieces : List Piece} (areWritten : AllWritten entries pieces) (valid : ∀ item ∈ orderBy, item.Valid) :
      built = .ok (String.ofList (madeFrom (("[where]".toList, pieces) :: others) orderBy)) ∧
      ((∃ conditions, tokens (madeFrom (("[where]".toList, pieces) :: others) orderBy) =
            some (Ending.tokens ⟨conditions, orderBy.map OrderField.item⟩) ∧
          Forall₂ (Expresses table) conditions (criteria entries ++ rest)) ↔
        GroupsClean (("[where]".toList, pieces) :: others) ∧
          Forall₂ (Expresses table) ((pieces ++ others.flatMap Prod.snd).map Piece.predicate)
            (criteria entries ++ rest)) := by
    obtain ⟨writes, conditions⟩ := writes_of_written asked areWritten format
    exact ⟨made pieces conditions, @expressed_iff _ _ (("[where]".toList, pieces) :: others) _ _ valid known
      (rel_append writes writesRest) varied⟩
  rw [entriesClean_iff asked isMark fits typed]
  constructor
  · rintro ⟨text, conditions, isBuilt, read, expressed, columns⟩
    obtain ⟨_, entriesRan⟩ := ran text isBuilt
    obtain ⟨pieces, areWritten⟩ := exists_written asked format entriesRan
    obtain ⟨isMade, iff⟩ := core areWritten fun item mem => (columns item mem).2
    obtain rfl := Except.ok.inj (isBuilt.symm.trans isMade)
    rw [String.toList_ofList] at read
    obtain ⟨⟨clean, cleanOthers⟩, express⟩ := iff.mp ⟨conditions, read, expressed⟩
    have lengths : pieces.length = (criteria entries).length := (writes_of_written asked areWritten format).1.length_eq
    have expressEntries := forall₂_take pieces.length express
    rw [map_append, take_left' (by simp), take_left' lengths.symm] at expressEntries
    exact ⟨⟨pieces, areWritten, clean, expressEntries⟩, cleanOthers, columns⟩
  · rintro ⟨⟨pieces, areWritten, clean, expressEntries⟩, cleanOthers, columns⟩
    obtain ⟨isMade, iff⟩ := core areWritten fun item mem => (columns item mem).2
    have express : Forall₂ (Expresses table) ((pieces ++ others.flatMap Prod.snd).map Piece.predicate)
        (criteria entries ++ rest) := by
      rw [map_append]
      exact rel_append expressEntries expressRest
    obtain ⟨conditions, read, expressed⟩ := iff.mpr ⟨⟨clean, cleanOthers⟩, express⟩
    exact ⟨_, conditions, isMade, by rw [String.toList_ofList, read], expressed, columns⟩

end Entries

private theorem logTable_fits : ∀ field ∈ activeParams.searchFields, Fits logTable field := by
  have ofText {field : Field} (isText : field ∉ [Field.level, .opType] ∧ field ≠ .date ∧ field ≠ .type)
      (row : String → LogPO) (isCell : ∀ text, logTable.cell (row text) field.column = .text text.toList) :
      Fits logTable field := by
    refine ⟨fun isNumber => absurd isNumber isText.1, fun isDate => absurd isDate isText.2.1, fun _ letters => ?_,
      fun isType => absurd isType isText.2.2⟩
    exact ⟨row (String.ofList letters), by rw [isCell, Cell.spelled, String.toList_ofList]⟩
  intro field mem
  simp only [activeParams, mem_cons, not_mem_nil, or_false] at mem
  rcases mem with rfl | rfl | rfl | rfl | rfl | rfl | rfl | rfl | rfl
  · exact ⟨fun _ => ⟨fun row => ⟨row.level, rfl⟩, fun held =>
      ⟨{ emptyLog with level := held }, rfl⟩⟩, by simp, by simp, by simp⟩
  · exact ⟨by simp, fun _ => ⟨fun row => ⟨row.date, rfl⟩, fun date =>
      ⟨{ emptyLog with date := date }, rfl⟩⟩, by simp, by simp⟩
  · exact ofText (by decide) ({ emptyLog with mac := · }) fun _ => rfl
  · exact ofText (by decide) ({ emptyLog with ip := · }) fun _ => rfl
  · exact ofText (by decide) ({ emptyLog with userName := · }) fun _ => rfl
  · exact ofText (by decide) ({ emptyLog with userPaths := · }) fun _ => rfl
  · exact ⟨fun _ => ⟨fun row => ⟨row.opType, rfl⟩, fun held =>
      ⟨{ emptyLog with opType := held }, rfl⟩⟩, by simp, by simp, by simp⟩
  · exact ofText (by decide) ({ emptyLog with msg := · }) fun _ => rfl
  · exact ofText (by decide) ({ emptyLog with exMsg := · }) fun _ => rfl

private theorem historyTable_fits : ∀ field ∈ [Field.name, .type], Fits historyTable field := by
  intro field mem
  fin_cases mem
  · refine ⟨by simp, by simp, fun _ letters => ⟨{ emptyFile with name := String.ofList letters }, ?_⟩, by simp⟩
    exact String.toList_ofList
  · exact ⟨by simp, by simp, by simp, fun _ row => ⟨row.type, rfl⟩⟩

private theorem forall₂_range {α β γ : Type} {related : β → γ → Prop} {f : α → β} {g : α → γ}
    (order : MapOrder) {entries : List α}
    (each : ∀ entry ∈ entries, related (f entry) (g entry)) :
    Forall₂ related ((order.range entries).map f) ((order.range entries).map g) := by
  rw [forall₂_map_left_iff, forall₂_map_right_iff, forall₂_same]
  exact fun entry mem => each entry ((order.perm entries).mem_iff.mp mem)

section Lists

variable {Row : Type} {table : Table Row} (order : MapOrder) {enums : List (Field × List String)}

private theorem writes_included (filled : ∀ entry ∈ enums, entry.2 ≠ []) :
    Forall₂ Writes (included order enums) ((order.range enums).map fun entry => .oneOf entry.1 entry.2) :=
  forall₂_range order fun entry mem => .oneOf (filled entry mem)

variable (enums)

private theorem express_included : Forall₂ (Expresses table) ((included order enums).map Piece.predicate)
    ((order.range enums).map fun entry => .oneOf entry.1 entry.2) := by
  rw [included, map_map]
  exact forall₂_range order fun entry _ => expresses_oneOf entry.1 entry.2

private theorem express_excluded : Forall₂ (Expresses table) ((excluded order enums).map Piece.predicate)
    ((order.range enums).map fun entry => .noneOf entry.1 entry.2) := by
  rw [excluded, map_map]
  exact forall₂_range order fun entry _ => expresses_noneOf entry.1 entry.2

private theorem included_clean_iff (marks : List (List Char)) :
    (∀ text ∈ (included order enums).flatMap Piece.quoted, TextClean marks text) ↔
    ∀ entry ∈ enums, ∀ value ∈ entry.2, TextClean marks value.toList := by
  rw [forall_mem_flatMap, included, forall_mem_map]
  simp [Piece.quoted, (order.perm enums).mem_iff]

private theorem excluded_clean_iff (marks : List (List Char)) :
    (∀ text ∈ (excluded order enums).flatMap Piece.quoted, TextClean marks text) ↔
    ∀ entry ∈ enums, ∀ value ∈ entry.2, TextClean marks value.toList := by
  rw [forall_mem_flatMap, excluded, forall_mem_map]
  simp [Piece.quoted, (order.perm enums).mem_iff]

end Lists

/-- An order by columns of the table, up or down, if every field has a name. -/
theorem columns_iff {Row : Type} {table : Table Row} {params : AvailableParam}
    {orderBy : List OrderField} {ids : List String}
    (checked : paramsCheck (orderBy.map OrderField.field) params.orderFields = true)
    (named : ∀ field ∈ params.orderFields, field ≠ .unnamed ∧ field.column ∈ table.columns)
    (notColumn : Field.unnamed.column ∉ table.columns) (date : Field.date.column ∈ table.columns) :
    (∀ item ∈ setDefaultSortField orderBy ids, item.field.column ∈ table.columns ∧ item.Valid) ↔
      ∀ item ∈ orderBy, item.field ≠ .unnamed ∧ item.Valid := by
  have each : ∀ item ∈ orderBy, (item.field.column ∈ table.columns ↔ item.field ≠ .unnamed) := by
    intro item mem
    have passed := all_eq_true.mp checked item.field (mem_map_of_mem mem)
    rcases of_decide_eq_true passed with isUnnamed | isCandidate
    · simp [isUnnamed, notColumn]
    · simp [named item.field isCandidate]
  rw [setDefaultSortField]
  split_ifs with nothing
  · have down : OrderField.Valid ⟨.date, "desc"⟩ := by decide
    simp only [nothing.1, forall_mem_cons, not_mem_nil, false_imp_iff, implies_true, and_true, iff_true]
    exact ⟨date, down⟩
  · exact forall₂_congr fun item mem => and_congr_left' (each item mem)

private theorem enumEntry_clean_iff {values : List String} {marks : List (List Char)} :
    (∀ entry ∈ enumEntry field values, ∀ value ∈ entry.2, TextClean marks value.toList) ↔
      ∀ value ∈ values, TextClean marks value.toList := by
  rw [enumEntry]
  split_ifs with some
  · simp
  · simp [length_eq_zero_iff.mp (Nat.eq_zero_of_not_pos some)]

private theorem type_of_int {code : Int} (asked : (criterion field (.int code)).isSome) : field = .type := by
  obtain ⟨here, isHere⟩ := Option.isSome_iff_exists.mp asked
  cases asked_of_criterion isHere
  rfl

private theorem mapM_of_addWhere {format : ℚ → List Char} {dates : List Char → Int → Int → List Char} {order : MapOrder}
    {condition : List (Field × Value)} {sqlStr text : List Char}
    (ran : addWhere format dates order sqlStr condition = .ok text) :
    ∃ conditions, ((order.range condition).mapM fun entry => entryCondition format dates entry.1 entry.2) =
      .ok conditions := by
  by_cases empty : condition = []
  · rw [(range_eq_nil order).mpr empty]
    exact ⟨[], rfl⟩
  · rw [addWhere, if_neg empty] at ran
    obtain ⟨conditions, mapped, -⟩ := bind_ok ran
    exact ⟨conditions, mapped⟩

section Reports

variable (format : ℚ → List Char) (order : MapOrder) {condition : List (Field × Value)} {orderBy : List OrderField}

private theorem active_means_iff (ids : List Nat) {inUserIDs exUserIDs : List String}
    (searches : Searches activeParams condition)
    (checked : paramsCheck (orderBy.map OrderField.field) activeParams.orderFields = true) :
    Means logTable (buildActiveCondition format order condition orderBy (ids.map toString) inUserIDs exUserIDs)
        (criteriaOf order condition (enumEntry .logID (ids.map toString) ++ enumEntry .userID inUserIDs)
          (enumEntry .userID exUserIDs)) (setDefaultSortField orderBy (ids.map toString)) ↔
      ActiveClean condition orderBy inUserIDs exUserIDs := by
  have within {entry : Field × Value} (mem : entry ∈ order.range condition) :=
    searches entry ((order.perm condition).mem_iff.mp mem)
  have known : ("[where]".toList :: ["[in]".toList, "[not_in]".toList]).Sublist clauseMarks := by decide
  have knownLater : ∀ mark ∈ ["[not_in]".toList, "[order]".toList], mark ∈ allMarks := by decide
  have idsClean : ∀ value ∈ ids.map toString, TextClean ["[not_in]".toList, "[order]".toList] value.toList := by
    intro value mem
    obtain ⟨id, -, rfl⟩ := mem_map.mp mem
    exact textClean_of_isFixed knownLater (isFixed_printed id)
  refine (@means_iff _ logTable (order.range condition) (fun _ mem => (within mem).2)
    [("[in]".toList, included order (enumEntry .logID (ids.map toString) ++ enumEntry .userID inUserIDs)),
      ("[not_in]".toList, excluded order (enumEntry .userID exUserIDs))] _ _ _ format known
    (fun _ mem => logTable_fits _ (within mem).1) ?_
    (fun pieces isWritten => buildActive_of_where format order (addWhere_eq format order isWritten) orderBy
      _ inUserIDs exUserIDs)
    ?_ ?_ ?_ ?_).trans ?_
  · rintro ⟨field, value⟩ mem code rfl
    have isType := type_of_int (within mem).2
    exact absurd (isType ▸ (within mem).1) (by decide)
  · intro text built
    obtain ⟨sqlStr, ran, -⟩ := bind_ok built
    exact mapM_of_addWhere ran
  · have inFilled := forall_mem_append.mpr ⟨@enumEntry_filled .logID (ids.map toString),
      @enumEntry_filled .userID inUserIDs⟩
    simpa [excluded] using rel_append (writes_included order inFilled) (forall₂_range order fun entry mem =>
      .noneOf (enumEntry_filled entry mem))
  · intro wanted mem
    rcases mem_append.mp mem with isIncluded | isExcluded
    · obtain ⟨entry, -, rfl⟩ := mem_map.mp isIncluded
      trivial
    · obtain ⟨entry, -, rfl⟩ := mem_map.mp isExcluded
      trivial
  · simpa using rel_append (express_included order _) (express_excluded order _)
  · have columns := @columns_iff _ logTable _ _ (ids.map toString) checked (by decide) (by decide) (by decide)
    rw [activeClean_iff, ← and_assoc (b := ∀ id ∈ exUserIDs, _)]
    refine and_congr (forall_congr' fun entry => imp_congr_left (order.perm condition).mem_iff) (and_congr ?_ columns)
    have inGroup := included_clean_iff order (enumEntry .logID (ids.map toString) ++ enumEntry .userID inUserIDs)
      ["[not_in]".toList, "[order]".toList]
    rw [forall_mem_append, enumEntry_clean_iff, enumEntry_clean_iff] at inGroup
    have exGroup := excluded_clean_iff order (enumEntry .userID exUserIDs) ["[order]".toList]
    rw [enumEntry_clean_iff] at exGroup
    exact (and_congr inGroup (and_congr exGroup Iff.rfl)).trans ⟨fun clean => ⟨clean.1.2, clean.2.1⟩,
      fun clean => ⟨⟨idsClean, clean.1⟩, clean.2, trivial⟩⟩

private theorem history_means_iff {category : LogType} (isLogType : category ∈ allLogType) (ids : List String)
    (searches : Searches historyParams condition)
    (checked : paramsCheck (orderBy.map OrderField.field) historyParams.orderFields = true) :
    Means historyTable (buildHistoryCondition format order category condition orderBy ids)
        (criteriaOf order (setType category condition) (enumEntry .id ids) []) (setDefaultSortField orderBy ids) ↔
      HistoryClean condition orderBy ids := by
  have isName {entry : Field × Value} (mem : entry ∈ condition) : entry.1 = .name :=
    mem_singleton.mp (searches entry mem).1
  have mem_setType (entry : Field × Value) :
      entry ∈ order.range (setType category condition) ↔ entry ∈ condition ∨ entry = (.type, .int category.code) := by
    have notType (mem : entry ∈ condition) : entry.1 ≠ .type := by
      rw [isName mem]
      decide
    rw [(order.perm _).mem_iff, setType, mem_append, mem_filter, mem_singleton]
    exact or_congr_left ⟨fun kept => kept.1, fun mem => ⟨mem, decide_eq_true (notType mem)⟩⟩
  have known : ("[where]".toList :: ["[in]".toList]).Sublist clauseMarks := by decide
  have nothing : order.range ([] : List (Field × List String)) = [] := (range_eq_nil order).mpr rfl
  refine (@means_iff _ historyTable (order.range (setType category condition)) (fun entry mem => ?_)
    [("[in]".toList, included order (enumEntry .id ids))] _ _ _ format known (fun entry mem =>
      historyTable_fits _ ?_) ?_ (fun pieces isWritten => buildHistory_eq format order isWritten orderBy ids)
    ?_ ?_ ?_ ?_).trans ?_
  · rcases (mem_setType entry).mp mem with ofCondition | rfl
    · exact (searches entry ofCondition).2
    · rfl
  · rcases (mem_setType entry).mp mem with ofCondition | rfl
    · rw [isName ofCondition]
      exact mem_cons_self
    · exact mem_cons_of_mem _ mem_cons_self
  · rintro ⟨field, value⟩ mem code rfl
    rcases (mem_setType _).mp mem with ofCondition | same
    · have isType := type_of_int (searches _ ofCondition).2
      exact absurd (isType.symm.trans (isName ofCondition)) (by decide)
    · cases same
      exact ⟨category, isLogType, rfl⟩
  · intro text built
    obtain ⟨sqlStr, ran, -⟩ := bind_ok built
    exact mapM_of_addWhere ran
  · simpa [nothing] using writes_included order enumEntry_filled
  · intro wanted mem
    rw [nothing, map_nil, append_nil] at mem
    obtain ⟨entry, -, rfl⟩ := mem_map.mp mem
    trivial
  · simpa [nothing] using express_included order (enumEntry .id ids)
  · have columns := @columns_iff _ historyTable _ _ ids checked (by decide) (by decide) (by decide)
    rw [historyClean_iff]
    refine and_congr ?_ (and_congr ?_ columns)
    · refine ⟨fun clean entry mem => clean entry ((mem_setType entry).mpr (.inl mem)), fun clean entry mem => ?_⟩
      rcases (mem_setType entry).mp mem with ofCondition | rfl
      · exact clean entry ofCondition
      · exact trivial
    · have inGroup := included_clean_iff order (enumEntry .id ids) ["[order]".toList]
      rw [enumEntry_clean_iff] at inGroup
      exact (and_congr inGroup Iff.rfl).trans (and_iff_left trivial)

end Reports

theorem conditions_mean_iff (format : ℚ → List Char) (order : MapOrder) :
    (∀ (condition : List (Field × Value)) (orderBy : List OrderField) (ids : List Nat)
      (inUserIDs exUserIDs : List String),
      Searches activeParams condition → paramsCheck (orderBy.map OrderField.field) activeParams.orderFields = true →
      (Means logTable (buildActiveCondition format order condition orderBy (ids.map toString) inUserIDs exUserIDs)
          (criteriaOf order condition (enumEntry .logID (ids.map toString) ++ enumEntry .userID inUserIDs)
            (enumEntry .userID exUserIDs)) (setDefaultSortField orderBy (ids.map toString)) ↔
        ActiveClean condition orderBy inUserIDs exUserIDs)) ∧
    ∀ category ∈ allLogType, ∀ (condition : List (Field × Value)) (orderBy : List OrderField) (ids : List String),
      Searches historyParams condition → paramsCheck (orderBy.map OrderField.field) historyParams.orderFields = true →
      (Means historyTable (buildHistoryCondition format order category condition orderBy ids)
          (criteriaOf order (setType category condition) (enumEntry .id ids) []) (setDefaultSortField orderBy ids) ↔
        HistoryClean condition orderBy ids) :=
  ⟨fun _ _ ids _ _ searches checked => active_means_iff format order ids searches checked,
    fun _ isLogType _ _ ids searches checked => history_means_iff format order isLogType ids searches checked⟩

/-- A condition of each kind. -/
def Sample.ofEachKind : List (Field × Value) :=
  [(.level, .json (.str "1")), (.date, .json (.arr [.num 0, .num 1000])), (.userName, .json (.str "a")),
    (.msg, .json (.str "WHERE"))]

theorem conditions_mean_iff_sample :
    Searches activeParams Sample.ofEachKind ∧ Searches historyParams [(.name, .json (.str "2024"))] ∧
    Means logTable (buildActiveCondition (fun _ => []) .listed Sample.ofEachKind [⟨.level, "asc"⟩]
        ([7].map toString) ["u"] ["v"])
      (criteriaOf .listed Sample.ofEachKind (enumEntry .logID ([7].map toString) ++ enumEntry .userID ["u"])
        (enumEntry .userID ["v"])) (setDefaultSortField [⟨.level, "asc"⟩] ([7].map toString)) ∧
    Means historyTable (buildHistoryCondition (fun _ => []) .listed .login [(.name, .json (.str "2024"))] [] [])
      (criteriaOf .listed (setType .login [(.name, .json (.str "2024"))]) (enumEntry .id []) [])
      (setDefaultSortField [] []) := by
  have active : Searches activeParams Sample.ofEachKind := by
    simp only [Searches]
    decide
  have history : Searches historyParams [(.name, .json (.str "2024"))] := by
    simp only [Searches]
    decide
  refine ⟨active, history, ((conditions_mean_iff _ .listed).1 _ _ [7] ["u"] ["v"] active (by decide)).mpr ?_,
    ((conditions_mean_iff _ .listed).2 .login (by decide) _ _ [] history (by decide)).mpr ?_⟩
  · have dates : DatesKept 0 1000 := by
      refine .inl ⟨?_, ?_⟩ <;> norm_num [goInt, truncated, lowest, highest, isInt64]
    have level : ∀ value ∈ numeral "1".toList, isInt64 value = true := by
      intro value mem
      cases mem
      decide
    refine ⟨?_, by decide, by decide, by decide⟩
    simp only [Sample.ofEachKind, forall_mem_cons]
    have userName : TextClean ["[in]".toList, "[not_in]".toList, "[order]".toList] "a".toList := by decide
    have msg : TextClean ["[in]".toList, "[not_in]".toList, "[order]".toList] "WHERE".toList ∧
      Plain "WHERE".toList := by decide
    exact ⟨level, dates, userName, msg, by simp⟩
  · refine ⟨?_, by simp, by simp⟩
    have name : TextClean ["[in]".toList, "[order]".toList] "2024".toList ∧ Plain "2024".toList := by decide
    simp only [forall_mem_cons]
    exact ⟨name, by simp⟩

/-- A number for the level is not looked at. A quote in a name adds a condition. A sign of a pattern matches more. A
mark in a value takes the place of the template's own. -/
theorem conditions_mean_something_else :
    (∃ text ending, buildActiveCondition (fun _ => []) .listed [(.level, .json (.num 2))] [] [] [] [] = .ok text ∧
      statement text = some ending ∧ ending.selects logTable { emptyLog with level := 0 } = true ∧
      ending.selects logTable { emptyLog with level := 2 } = false) ∧
    (∃ text ending, buildActiveCondition (fun _ => []) .listed
      [(.userName, .json (.str "a' AND f_msg LIKE 'b"))] [] [] [] [] =
        .ok text ∧ statement text = some ending ∧ .like Field.msg.column "b".toList ∈ ending.conditions) ∧
    (∃ text ending, buildActiveCondition (fun _ => []) .listed [(.msg, .json (.str "100%"))] [] [] [] [] = .ok text ∧
      statement text = some ending ∧ ending.selects logTable { emptyLog with msg := "1001" } = true) ∧
    ∃ text, buildActiveCondition (fun _ => []) .listed [(.userName, .json (.str "[in]"))] [] [] ["u"] [] = .ok text ∧
      statement text = none := by
  refine ⟨⟨"WHERE f_level = 0   ORDER BY f_date DESC",
    ⟨[.equalInt Field.level.column 0], [⟨Field.date.column, true⟩]⟩, ?_⟩,
    ⟨"WHERE f_user_name = 'a' AND f_msg LIKE 'b'   ORDER BY f_date DESC",
      ⟨[.equalText Field.userName.column "a".toList, .like Field.msg.column "b".toList], [⟨Field.date.column, true⟩]⟩,
      ?_⟩,
    ⟨"WHERE f_msg LIKE '%100%%'   ORDER BY f_date DESC",
      ⟨[.like Field.msg.column "%100%%".toList], [⟨Field.date.column, true⟩]⟩, ?_⟩,
    "WHERE f_user_name = 'AND f_user_id IN ('u')' [in]  ORDER BY f_date DESC", ?_⟩
  all_goals decide +kernel

end SecurityFabric.Auditlog
