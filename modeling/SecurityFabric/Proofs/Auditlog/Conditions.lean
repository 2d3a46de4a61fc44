import Mathlib.Algebra.Order.BigOperators.Group.List
import SecurityFabric.Proofs.Auditlog.QueryText

/-! # What a query is asked for

A criterion says which rows a part of a request selects: a number, a closed interval, a text that a field is or that
occurs in it, or a list of values. A condition expresses a criterion if it has its column and operator, holds the values
as they are, and holds for the same rows. If the statement expresses the criteria, nothing in a value was taken for
something else, and conversely.
-/

namespace SecurityFabric.Auditlog

section

open SqlText List Piece

variable {piece : Piece} {condition : Predicate} {pieces : List Piece}

inductive Criterion where
  | number (field : Field) (value : ℚ)
  | interval (field : Field) (left right : ℚ)
  | equal (field : Field) (text : List Char)
  | substring (field : Field) (text : List Char)
  | ofType (code : Int)
  | oneOf (field : Field) (texts : List String)
  | noneOf (field : Field) (texts : List String)

/-- Whether a row is asked for. -/
def Criterion.satisfied (cell : List Char → Cell) : Criterion → Prop
  | number field value => ∃ held, cell field.column = .int held ∧ (held : ℚ) = value
  | interval field left right => ∃ held, cell field.column = .int held ∧ left ≤ held ∧ held ≤ right
  | equal field text => (cell field.column).spelled = text
  | substring field text => text <:+: (cell field.column).spelled
  | ofType code => cell Field.type.column = .int code
  | oneOf field texts => (cell field.column).spelled ∈ texts.map String.toList
  | noneOf field texts => (cell field.column).spelled ∉ texts.map String.toList

/-- The column and the operator, and the values that are compared as they are. -/
def Criterion.ShapedAs : Criterion → Predicate → Prop
  | number field _, .equalInt column _ => column = field.column
  | interval field _ _, .between column _ _ => column = field.column
  | equal field text, .equalText column held => column = field.column ∧ held = text
  | substring field _, .like column _ => column = field.column
  | ofType _, .like column _ => column = Field.type.column
  | oneOf field texts, .oneOf column held => column = field.column ∧ held = texts.map String.toList
  | noneOf field texts, .noneOf column held => column = field.column ∧ held = texts.map String.toList
  | _, _ => False

variable {Row : Type} {table : Table Row}

structure Expresses (table : Table Row) (condition : Predicate) (criterion : Criterion) : Prop where
  shape : criterion.ShapedAs condition
  rows : ∀ row, condition.holds (table.cell row) = true ↔ criterion.satisfied (table.cell row)

/-- Which criterion a condition is written for. -/
inductive Writes : Piece → Criterion → Prop where
  | number {field : Field} {written : Int} {value : ℚ} : Writes (.number field written) (.number field value)
  | interval {field : Field} {left right : Int} {low high : ℚ} :
    Writes (.interval field left right) (.interval field low high)
  | equal {field : Field} {text : List Char} : Writes (.equal field text) (.equal field text)
  | substring {field : Field} {text : List Char} : Writes (.contains field text) (.substring field text)
  | ofType {code : Int} : Writes (.contains .type (printed code)) (.ofType code)
  | oneOf {field : Field} {texts : List String} (filled : texts ≠ []) : Writes (.oneOf field texts) (.oneOf field texts)
  | noneOf {field : Field} {texts : List String} (filled : texts ≠ []) :
    Writes (.noneOf field texts) (.noneOf field texts)

/-- A field whose occurrences are asked for can hold any text. -/
def Criterion.Varied (table : Table Row) : Criterion → Prop
  | substring field _ => ∀ letters, ∃ row, (table.cell row field.column).spelled = letters
  | _ => True

variable {criterion : Criterion}

private theorem Writes.filled (writes : Writes piece criterion) : piece.Filled := by
  cases writes with
  | oneOf filled | noneOf filled => exact filled
  | _ => trivial

/-- A condition that expresses a criterion has its values as they are, or has none, or asks for an occurrence. -/
theorem Expresses.cases (writes : Writes piece criterion) (expresses : Expresses table condition criterion) :
    condition = piece.predicate ∨ (piece.quoted = [] ∧ condition.Proper) ∨
      ∃ field text pattern, piece = .contains field text ∧ condition = .like field.column pattern ∧
        (criterion = .substring field text ∨ ∃ code, text = printed code) := by
  have shape := expresses.shape
  cases writes with
  | number | interval =>
    cases condition with
    | equalInt column held | between column low high =>
      first
      | exact shape.elim
      | exact .inr (.inl ⟨rfl, trivial⟩)
    | _ => exact shape.elim
  | equal =>
    cases condition with
    | equalText column held =>
      obtain ⟨rfl, rfl⟩ := shape
      exact .inl rfl
    | _ => exact shape.elim
  | substring =>
    cases condition with
    | like column pattern =>
      obtain rfl := shape
      exact .inr (.inr ⟨_, _, pattern, rfl, rfl, .inl rfl⟩)
    | _ => exact shape.elim
  | ofType =>
    cases condition with
    | like column pattern =>
      obtain rfl := shape
      exact .inr (.inr ⟨_, _, pattern, rfl, rfl, .inr ⟨_, rfl⟩⟩)
    | _ => exact shape.elim
  | oneOf filled =>
    cases condition with
    | oneOf column held =>
      obtain ⟨rfl, rfl⟩ := shape
      exact .inl rfl
    | _ => exact shape.elim
  | noneOf filled =>
    cases condition with
    | noneOf column held =>
      obtain ⟨rfl, rfl⟩ := shape
      exact .inl rfl
    | _ => exact shape.elim

private theorem Piece.proper_predicateBy (filled : piece.Filled) (read : List Char → List Char) :
    (piece.predicateBy read).Proper := by
  cases piece with
  | oneOf field texts | noneOf field texts => exact map_eq_nil_iff.not.mpr filled
  | _ => trivial

private theorem Piece.literals_predicateBy (piece : Piece) (read : List Char → List Char) :
    (piece.predicateBy read).literals = piece.quoted.map read := by
  cases piece with
  | oneOf field texts | noneOf field texts => simp [predicateBy, quoted, Predicate.literals]
  | _ => rfl

private theorem count_of_asks {field : Field} {text pattern : List Char}
    (varied : (Criterion.substring field text).Varied table)
    (expresses : Expresses table (.like field.column pattern) (.substring field text)) {isCounted : Char → Bool}
    (placeholder : isCounted 'x' = false) : text.countP isCounted ≤ pattern.countP isCounted := by
  have asks (other : List Char) : SecurityFabric.like pattern other = true ↔ text <:+: other := by
    obtain ⟨row, rfl⟩ := varied other
    exact expresses.rows row
  rw [eq_shortest_of_like_iff asks]
  exact countP_shortest_le placeholder pattern

private theorem isFixed_within {text : List Char} (fixed : isFixed text = true) : '\'' ∉ text ∧ marks text = 0 := by
  constructor
  · exact (notMem_of_isFixed fixed).1
  · exact countP_of_isFixed fixed fun letter counted => by simpa [isMark] using counted

section Written

variable (writes : Writes piece criterion) (varied : criterion.Varied table)
  (expresses : Expresses table condition criterion)

include writes expresses

private theorem Expresses.proper : condition.Proper := by
  rcases Expresses.cases writes expresses with rfl | ⟨-, proper⟩ | ⟨field, text, pattern, rfl, rfl, -⟩
  · exact proper_predicateBy writes.filled id
  · exact proper
  · trivial

include varied

/-- A criterion that is expressed takes no fewer quotes and backslashes than it was written with. -/
theorem Expresses.marks_le : (piece.quoted.map fun value => marks value + 2).sum ≤ marksOf condition.tokens := by
  rcases Expresses.cases writes expresses with rfl | ⟨nothing, -⟩ | ⟨field, text, pattern, rfl, rfl, asked⟩
  · rw [Predicate.marksOf_tokens, predicate, literals_predicateBy, map_id]
  · simp [nothing]
  · have around : marks ('%' :: (text ++ ['%'])) = marks text := by
      simp [marks, isMark]
    have written : ((contains field text).quoted.map fun value => marks value + 2).sum = marks text + 2 := by
      simp [quoted, around]
    have held : ((Predicate.like field.column pattern).literals.map fun text => marks text + 2).sum =
        marks pattern + 2 := by
      simp [Predicate.literals]
    rw [written, Predicate.marksOf_tokens]
    rcases asked with rfl | ⟨code, rfl⟩
    · exact Nat.add_le_add_right (count_of_asks varied expresses (by decide)) 2
    · rw [(isFixed_within (isFixed_printed code)).2]
      omega

/-- If the tokens of a condition are verbatim, the values it was written with have no quote. -/
theorem Expresses.readable (isVerbatim : ∀ token ∈ condition.tokens, token.Verbatim) : piece.Readable := by
  intro value mem
  rcases Expresses.cases writes expresses with rfl | ⟨nothing, -⟩ | ⟨field, text, pattern, rfl, rfl, asked⟩
  · have isLiteral : value ∈ piece.predicate.literals := by
      rw [predicate, literals_predicateBy, map_id]
      exact mem
    obtain ⟨noQuote, closed, -⟩ := unescaped_of_verbatim (isVerbatim _ (Predicate.literal_mem isLiteral))
    exact ⟨noQuote, closed⟩
  · rw [nothing] at mem
    cases mem
  · obtain rfl := mem_singleton.mp mem
    have noQuote : '\'' ∉ text := by
      rcases asked with rfl | ⟨code, rfl⟩
      · have fewer : text.count '\'' ≤ pattern.count '\'' := count_of_asks varied expresses (by decide)
        have none := (unescaped_of_verbatim (isVerbatim _ (Predicate.literal_mem mem_cons_self))).1
        rw [count_eq_zero_of_not_mem none] at fewer
        exact count_eq_zero.mp (Nat.le_zero.mp fewer)
      · exact (isFixed_within (isFixed_printed code)).1
    exact ⟨by simpa using noQuote, isClosed_percent ('%' :: text)⟩

end Written

private theorem Piece.predicateBy_of_same {read : List Char → List Char}
    (same : ∀ value ∈ piece.quoted, read value = value) :
    piece.predicateBy read = piece.predicate := by
  cases piece with
  | equal field text | contains field text =>
    have literal := same _ mem_cons_self
    simp [predicate, predicateBy, literal]
  | oneOf field texts | noneOf field texts =>
    have literals :=
      map_congr_left fun text mem => same _ (mem_map_of_mem mem)
    simp [predicate, predicateBy, literals]
  | _ => rfl

private theorem eq_of_sum_eq {α : Type} {first second : α → Nat} {items : List α}
    (atMost : ∀ item ∈ items, first item ≤ second item)
    (same : (items.map first).sum = (items.map second).sum) : ∀ item ∈ items, first item = second item := by
  induction items with
  | nil => exact fun _ mem => by cases mem
  | cons item items ih =>
    obtain ⟨here, later⟩ := forall_mem_cons.mp atMost
    have total : (items.map first).sum ≤ (items.map second).sum := sum_le_sum later
    simp only [map_cons, sum_cons] at same
    exact forall_mem_cons.mpr ⟨by omega, ih later (by omega)⟩

section Expressed

variable {groups : List (List Char × List Piece)} {criteria : List Criterion}

private theorem marksOf_predicateBy (pieces : List Piece) (readBy : List Char → List Char) :
    ((pieces.map (predicateBy readBy)).map fun condition => marksOf condition.tokens).sum =
      ((pieces.flatMap quoted).map fun value => marks (readBy value) + 2).sum := by
  induction pieces with
  | nil => rfl
  | cons piece pieces ih =>
    rw [map_cons, map_cons, sum_cons, ih, Predicate.marksOf_tokens, literals_predicateBy, map_map, flatMap_cons,
      map_append, sum_append]
    rfl

section Conditions

variable {conditions : List Predicate} (writes : Forall₂ Writes pieces criteria)
  (varied : ∀ criterion ∈ criteria, criterion.Varied table) (expressed : Forall₂ (Expresses table) conditions criteria)

include writes

private theorem filled_of_writes : ∀ piece ∈ pieces, piece.Filled := by
  induction writes with
  | nil => exact fun _ mem => by cases mem
  | cons first _ ih => exact forall_mem_cons.mpr ⟨first.filled, ih⟩

include varied expressed

/-- The same for all conditions. -/
theorem marks_le_of_expressed : ((pieces.flatMap quoted).map fun value => marks value + 2).sum ≤
    (conditions.map fun condition => marksOf condition.tokens).sum := by
  induction writes generalizing conditions with
  | nil =>
    cases expressed
    exact le_refl 0
  | cons first _ ih =>
    cases expressed with
    | cons here later =>
      have atMost := Expresses.marks_le first (varied _ mem_cons_self) here
      have rest := ih (forall_mem_cons.mp varied).2 later
      rw [flatMap_cons, map_append, sum_append]
      exact Nat.add_le_add atMost rest

private theorem readable_of_expressed (isVerbatim : ∀ condition ∈ conditions,
    ∀ token ∈ condition.tokens, token.Verbatim) :
    (∀ piece ∈ pieces, piece.Readable) ∧ ∀ condition ∈ conditions, condition.Proper := by
  induction writes generalizing conditions with
  | nil =>
    cases expressed
    simp
  | cons first _ ih =>
    cases expressed with
    | cons here later =>
      obtain ⟨rest, proper⟩ := ih (forall_mem_cons.mp varied).2 later (forall_mem_cons.mp isVerbatim).2
      exact ⟨forall_mem_cons.mpr ⟨Expresses.readable first (varied _ mem_cons_self) here
        (isVerbatim _ mem_cons_self), rest⟩,
        forall_mem_cons.mpr ⟨Expresses.proper first here, proper⟩⟩

end Conditions

/-- A text that can be put between quotes as it is and has none of some marks. -/
def TextClean (marks : List (List Char)) (text : List Char) : Prop :=
  verbatim text = true ∧ ∀ mark ∈ marks, ¬ mark <:+: text

instance (marks : List (List Char)) (text : List Char) : Decidable (TextClean marks text) :=
  inferInstanceAs (Decidable (verbatim text = true ∧ ∀ mark ∈ marks, ¬ mark <:+: text))

/-- Every value is clean, with the marks of later groups. -/
def GroupsClean : List (List Char × List Piece) → Prop
  | [] => True
  | group :: more =>
    (∀ text ∈ group.2.flatMap Piece.quoted, TextClean (more.map Prod.fst ++ ["[order]".toList]) text) ∧ GroupsClean more

private theorem groupsClean_iff (groups : List (List Char × List Piece)) :
    GroupsClean groups ↔ LaterMarksAbsent groups ∧ ∀ value ∈ (groups.flatMap Prod.snd).flatMap quoted,
      verbatim value = true := by
  induction groups with
  | nil => simp [GroupsClean, LaterMarksAbsent]
  | cons group more ih =>
    have values : (∀ value ∈ ((group :: more).flatMap Prod.snd).flatMap quoted, verbatim value = true) ↔
        (∀ value ∈ group.2.flatMap quoted, verbatim value = true) ∧
          ∀ value ∈ (more.flatMap Prod.snd).flatMap quoted, verbatim value = true := by
      rw [flatMap_cons, flatMap_append, forall_mem_append]
    rw [GroupsClean, ih, values]
    constructor
    · rintro ⟨clean, absentLater, isVerbatim⟩
      exact ⟨⟨fun mark isMark value mem => (clean value mem).2 mark isMark, absentLater⟩,
        fun value mem => (clean value mem).1, isVerbatim⟩
    · rintro ⟨⟨absent, absentLater⟩, isVerbatimHere, isVerbatim⟩
      exact ⟨fun value mem => ⟨isVerbatimHere value mem, fun mark isMark => absent mark isMark value mem⟩,
        absentLater, isVerbatim⟩

/-- The statement that is read expresses the criteria exactly if every value is clean and the conditions with these
values express them. -/
theorem expressed_iff {orderBy : List OrderField} (valid : ∀ item ∈ orderBy, item.Valid)
    (known : (groups.map Prod.fst).Sublist clauseMarks)
    (writes : Forall₂ Writes (groups.flatMap Prod.snd) criteria)
    (varied : ∀ criterion ∈ criteria, criterion.Varied table) :
    (∃ conditions, tokens (madeFrom groups orderBy) = some (Ending.tokens ⟨conditions, orderBy.map OrderField.item⟩) ∧
        Forall₂ (Expresses table) conditions criteria) ↔
      GroupsClean groups ∧ Forall₂ (Expresses table) ((groups.flatMap Prod.snd).map predicate) criteria := by
  rw [groupsClean_iff, and_assoc]
  have filled : ∀ group ∈ groups, ∀ piece ∈ group.2, piece.Filled := fun group isGroup piece isPiece =>
    filled_of_writes writes piece (mem_flatMap.mpr ⟨group, isGroup, isPiece⟩)
  have resolved (same : ∀ value ∈ (groups.flatMap Prod.snd).flatMap quoted, unescaped value = value) :
      (groups.flatMap Prod.snd).map (predicateBy unescaped) = (groups.flatMap Prod.snd).map predicate :=
    map_congr_left fun piece isPiece => predicateBy_of_same fun value isValue =>
      same value (mem_flatMap.mpr ⟨piece, isPiece, isValue⟩)
  have properBy (readBy : List Char → List Char) : ∀ condition ∈ (groups.flatMap Prod.snd).map (predicateBy readBy),
      condition.Proper := by
    intro condition isCondition
    obtain ⟨piece, isPiece, rfl⟩ := mem_map.mp isCondition
    exact proper_predicateBy (filled_of_writes writes piece isPiece) readBy
  have total : marks (madeFrom groups orderBy) = (((groups.flatMap Prod.snd).flatMap quoted).map fun value =>
      marks value + 2).sum :=
    countP_madeFrom known filled valid rfl fun letter isMark => by simpa [SqlText.isMark] using isMark
  constructor
  · rintro ⟨conditions, read, expressed⟩
    have counted : marksOf (Ending.tokens ⟨conditions, orderBy.map OrderField.item⟩) =
        marks (madeFrom groups orderBy) := by
      have atLeast := marks_le_of_expressed writes varied expressed
      refine le_antisymm (marksOf_tokens_le read) ?_
      rw [total, marksOf_tokens]
      exact atLeast
    have isVerbatim := verbatim_of_tokens read counted
    obtain ⟨readable, proper⟩ := readable_of_expressed writes varied expressed fun condition isCondition token mem =>
      isVerbatim token (Ending.mem_tokens isCondition mem)
    have readableValues : ∀ value ∈ (groups.flatMap Prod.snd).flatMap quoted, '\'' ∉ value ∧ isClosed value = true := by
      intro value isValue
      obtain ⟨piece, isPiece, isQuoted⟩ := mem_flatMap.mp isValue
      exact readable piece isPiece value isQuoted
    have absent := laterMarksAbsent_of_tokens known filled valid read counted fun value isValue =>
      (readableValues value isValue).1
    have readAgain := tokens_madeFrom known filled valid
      (fun group isGroup piece isPiece => readable piece (mem_flatMap.mpr ⟨group, isGroup, isPiece⟩)) absent
    obtain ⟨rfl, -⟩ := Ending.mk.inj (Ending.tokens_inj proper (properBy unescaped)
      (Option.some.inj (read.symm.trans readAgain)))
    have kept : ∀ value ∈ (groups.flatMap Prod.snd).flatMap quoted, unescaped value = value ∧
        verbatim value = true := by
      intro value isValue
      rw [marksOf_tokens, marksOf_predicateBy, total] at counted
      obtain ⟨noQuote, closed⟩ := readableValues value isValue
      have sizes := eq_of_sum_eq (fun value isValue => Nat.add_le_add_right
        (marks_unescaped (readableValues value isValue).1 (readableValues value isValue).2).1 2) counted value isValue
      exact (marks_unescaped noQuote closed).2 (Nat.add_right_cancel sizes)
    refine ⟨absent, fun value isValue => (kept value isValue).2, ?_⟩
    rw [← resolved fun value isValue => (kept value isValue).1]
    exact expressed
  · rintro ⟨absent, isVerbatim, expressed⟩
    refine ⟨_, ?_, expressed⟩
    rw [← resolved fun value isValue => (unescaped_of_verbatim (isVerbatim value isValue)).2.2]
    refine tokens_madeFrom known filled valid (fun group isGroup piece isPiece value isValue => ?_) absent
    obtain ⟨noQuote, closed, -⟩ := unescaped_of_verbatim (isVerbatim value
      (mem_flatMap.mpr ⟨piece, mem_flatMap.mpr ⟨group, isGroup, isPiece⟩, isValue⟩))
    exact ⟨noQuote, closed⟩

end Expressed

end

/-! # The entries of a condition

An entry names a field and a value that was decoded from a request. Its criterion says which rows are meant, by the kind
of the field. What is written for it expresses the criterion exactly if the entry is clean. A text to search for must be
free of the signs of patterns. A number for a field of numbers is never looked at unless it is written as a text, and
bounds of dates lose the part behind the decimal point.
-/

open SqlText List Option Piece

variable {asked : Criterion} {value : Value}

/-- The criterion of an entry, for decoded values of the kind that the field has. -/
def criterion : Field → Value → Option Criterion
  | .level, .json (.num value) => some (.number .level value)
  | .opType, .json (.num value) => some (.number .opType value)
  | .level, .json (.str text) => (numeral text.toList).map fun value : Int => .number .level value
  | .opType, .json (.str text) => (numeral text.toList).map fun value : Int => .number .opType value
  | .date, .json (.arr [.num left, .num right]) => some (.interval .date left right)
  | .userName, .json (.str text) => some (.equal .userName text.toList)
  | .mac, .json (.str text) => some (.equal .mac text.toList)
  | .ip, .json (.str text) => some (.equal .ip text.toList)
  | .userPaths, .json (.str text) => some (.equal .userPaths text.toList)
  | .msg, .json (.str text) => some (.substring .msg text.toList)
  | .exMsg, .json (.str text) => some (.substring .exMsg text.toList)
  | .name, .json (.str text) => some (.substring .name text.toList)
  | .type, .int code => some (.ofType code)
  | _, _ => none

/-- The integers of an interval, as far as they fit into 64 bits. -/
def lowest (left : ℚ) : Int := max ⌈left⌉ (-2 ^ 63)

def highest (right : ℚ) : Int := min ⌊right⌋ (2 ^ 63 - 1)

/-- Bounds without the part behind the decimal point leave the same integers between them. -/
def DatesKept (left right : ℚ) : Prop :=
  goInt left = lowest left ∧ goInt right = highest right ∨ highest right < lowest left ∧ goInt right < goInt left

def EntryClean (marks : List (List Char)) : Field → Value → Prop
  | .level, .json (.num value) | .opType, .json (.num value) => value = 0
  | .level, .json (.str text) | .opType, .json (.str text) => ∀ value ∈ numeral text.toList, isInt64 value = true
  | .date, .json (.arr [.num left, .num right]) => DatesKept left right
  | .userName, .json (.str text) | .mac, .json (.str text) | .ip, .json (.str text) | .userPaths, .json (.str text) =>
    TextClean marks text.toList
  | .msg, .json (.str text) | .exMsg, .json (.str text) | .name, .json (.str text) =>
    TextClean marks text.toList ∧ Plain text.toList
  | _, _ => True

/-- The condition that is written for an entry of a criterion, if any. -/
def written : Field → Value → Option Piece
  | .level, .json (.num _) => some (.number .level 0)
  | .opType, .json (.num _) => some (.number .opType 0)
  | .level, .json (.str text) => (atoi text.toList).map (.number .level)
  | .opType, .json (.str text) => (atoi text.toList).map (.number .opType)
  | .date, .json (.arr [.num left, .num right]) => some (.interval .date (goInt left) (goInt right))
  | .userName, .json (.str text) => some (.equal .userName text.toList)
  | .mac, .json (.str text) => some (.equal .mac text.toList)
  | .ip, .json (.str text) => some (.equal .ip text.toList)
  | .userPaths, .json (.str text) => some (.equal .userPaths text.toList)
  | .msg, .json (.str text) => some (.contains .msg text.toList)
  | .exMsg, .json (.str text) => some (.contains .exMsg text.toList)
  | .name, .json (.str text) => some (.contains .name text.toList)
  | .type, .int code => some (.contains .type (printed code))
  | _, _ => none

/-- The entries that have a criterion, by the kind of their field. -/
inductive Asked : Field → Value → Criterion → Prop where
  | number {field : Field} {value : ℚ} (ofNumbers : field ∈ [Field.level, .opType]) :
    Asked field (.json (.num value)) (.number field value)
  | numeral {field : Field} {text : String} {value : Int} (ofNumbers : field ∈ [Field.level, .opType])
    (read : numeral text.toList = some value) : Asked field (.json (.str text)) (.number field value)
  | dates {left right : ℚ} : Asked .date (.json (.arr [.num left, .num right])) (.interval .date left right)
  | equal {field : Field} {text : String} (exact : field ∈ [Field.userName, .mac, .ip, .userPaths]) :
    Asked field (.json (.str text)) (.equal field text.toList)
  | substring {field : Field} {text : String} (searched : field ∈ [Field.msg, .exMsg, .name]) :
    Asked field (.json (.str text)) (.substring field text.toList)
  | ofType {code : Int} : Asked .type (.int code) (.ofType code)

theorem asked_of_criterion {field : Field} (known : criterion field value = some asked) : Asked field value asked := by
  unfold criterion at known
  split at known
  case h_3 | h_4 =>
    obtain ⟨value, read, rfl⟩ := map_eq_some_iff.mp known
    refine .numeral ?_ read
    decide
  case h_14 => cases known
  all_goals
    cases known
    first
    | exact .number (by decide)
    | exact .dates
    | exact .equal (by decide)
    | exact .substring (by decide)
    | exact .ofType

/-- An entry with a criterion is written as a condition for it, or its number does not fit. -/
theorem entryCondition_of_asked (format : ℚ → List Char) {field : Field} (isAsked : Asked field value asked) :
    (∃ piece, written field value = some piece ∧
      entryCondition format betweenDates field value = .ok (some piece.text) ∧ Writes piece asked) ∨
    written field value = none ∧ entryCondition format betweenDates field value = .error .number := by
  cases isAsked with
  | number ofNumbers =>
    fin_cases ofNumbers <;> exact .inl ⟨_, rfl, rfl, .number⟩
  | @numeral field text value ofNumbers read =>
    simp only [mem_cons, not_mem_nil, or_false] at ofNumbers
    cases fits : atoi text.toList with
    | some number =>
      rcases ofNumbers with rfl | rfl <;>
        exact .inl ⟨.number _ number, by simp [written, fits], by simp [entryCondition, fits, Piece.text], .number⟩
    | none =>
      rcases ofNumbers with rfl | rfl <;> exact .inr ⟨by simp [written, fits], by simp [entryCondition, fits]⟩
  | dates => exact .inl ⟨_, rfl, rfl, .interval⟩
  | equal exact =>
    fin_cases exact <;> exact .inl ⟨_, rfl, rfl, .equal⟩
  | substring searched =>
    fin_cases searched <;> exact .inl ⟨_, rfl, rfl, .substring⟩
  | ofType => exact .inl ⟨_, rfl, rfl, .ofType⟩

private theorem goInt_isInt64 (value : ℚ) : -2 ^ 63 ≤ goInt value ∧ goInt value < 2 ^ 63 := by
  rw [goInt]
  split_ifs with fits
  · simpa [isInt64] using fits
  · exact ⟨le_refl _, by decide⟩

/-- Bounds of 64 bits with the same integers of 64 bits between them. -/
theorem interval_iff {low high low' high' least most : Int}
    (inRange : least ≤ low ∧ high ≤ most ∧ low ≤ most ∧ least ≤ high)
    (least' : least ≤ low') (most' : high' ≤ most) :
    (∀ value, least ≤ value → value ≤ most → ((low ≤ value ∧ value ≤ high) ↔ (low' ≤ value ∧ value ≤ high'))) ↔
      low = low' ∧ high = high' ∨ high' < low' ∧ high < low := by
  obtain ⟨leastLow, highMost, lowMost, leastHigh⟩ := inRange
  constructor
  · intro same
    by_cases nonempty : low' ≤ high'
    · have atLow := (same low' least' (by omega)).mpr ⟨le_refl _, nonempty⟩
      have atHigh := (same high' (by omega) most').mpr ⟨nonempty, le_refl _⟩
      have backLow := (same low leastLow lowMost).mp ⟨le_refl _, by omega⟩
      have backHigh := (same high leastHigh highMost).mp ⟨by omega, le_refl _⟩
      exact .inl ⟨by omega, by omega⟩
    · by_contra wide
      have inside := (same low leastLow lowMost).mp ⟨le_refl _, by omega⟩
      omega
  · rintro (⟨rfl, rfl⟩ | ⟨empty, empty'⟩) value _ _
    · exact Iff.rfl
    · constructor
      · omega
      · omega

/-- The bounds keep the dates between them. -/
theorem datesKept_iff (left right : ℚ) :
    (∀ date : Int64, (goInt left ≤ date.toInt ∧ date.toInt ≤ goInt right) ↔ (left ≤ date.toInt ∧ date.toInt ≤ right)) ↔
      DatesKept left right := by
  obtain ⟨leastLeft, mostLeft⟩ := goInt_isInt64 left
  obtain ⟨leastRight, mostRight⟩ := goInt_isInt64 right
  have bounds := @interval_iff (goInt left) (goInt right) (lowest left) (highest right) (-2 ^ 63) (2 ^ 63 - 1)
    ⟨leastLeft, by omega, by omega, leastRight⟩ (le_max_right _ _) (min_le_right _ _)
  have wanted (value : Int) (least : -2 ^ 63 ≤ value) (most : value ≤ 2 ^ 63 - 1) :
      (left ≤ value ∧ value ≤ right) ↔ (lowest left ≤ value ∧ value ≤ highest right) := by
    rw [lowest, highest, max_le_iff, le_min_iff, Int.ceil_le, Int.le_floor]
    tauto
  rw [DatesKept, ← bounds]
  constructor
  · intro kept value least most
    have isDate : (Int64.ofInt value).toInt = value := Int64.toInt_ofInt_of_le least (by omega)
    rw [← wanted value least most, ← isDate]
    exact kept (Int64.ofInt value)
  · intro kept date
    have least := date.le_toInt
    have most := date.toInt_lt
    rw [wanted date.toInt least (by omega)]
    exact kept date.toInt least (by omega)

section Entries

variable {Row : Type} {table : Table Row} {marks : List (List Char)} (known : ∀ mark ∈ marks, mark ∈ allMarks)

/-- The field has a column of its kind, which holds every value of that kind. -/
structure Fits (table : Table Row) (field : Field) : Prop where
  numbers : field ∈ [Field.level, .opType] →
    (∀ row, ∃ held, table.cell row field.column = .int held) ∧ ∀ held, ∃ row, table.cell row field.column = .int held
  dates : field = .date → (∀ row, ∃ date : Int64, table.cell row field.column = .int date.toInt) ∧
      ∀ date : Int64, ∃ row, table.cell row field.column = .int date.toInt
  texts : field ∈ [Field.userName, .mac, .ip, .userPaths, .msg, .exMsg, .name] →
    ∀ letters, ∃ row, (table.cell row field.column).spelled = letters
  types : field = .type → ∀ row, ∃ category : LogType, table.cell row field.column = .int category.code

variable {text : List Char}

private theorem verbatim_iff_of_plain (plain : Plain text) : verbatim text = true ↔ '\'' ∉ text := by
  refine ⟨fun isVerbatim => (unescaped_of_verbatim isVerbatim).1, fun noQuote => ?_⟩
  induction text with
  | nil => rfl
  | cons letter rest ih =>
    obtain ⟨notQuote, later⟩ := not_or.mp (mem_cons.not.mp noQuote)
    rw [verbatim_cons ⟨Ne.symm notQuote, (plain letter mem_cons_self).2.2⟩]
    exact ih (forall_mem_cons.mp plain).2 later

include known

theorem textClean_of_isFixed (fixed : isFixed text = true) : TextClean marks text := by
  refine ⟨verbatim_of_isFixed fixed, fun mark mem within => ?_⟩
  exact (notMem_of_isFixed fixed).2.2 (within.subset (bracket_mem_of_mem_allMarks (known mark mem)))

/-- A plain text between two signs for any text. -/
theorem textClean_within_iff (plain : Plain text) :
    TextClean marks ('%' :: (text ++ ['%'])) ↔ TextClean marks text := by
  refine and_congr ?_ (forall₂_congr fun mark mem => not_congr ?_)
  · rw [verbatim_iff_of_plain plain]
    constructor
    · intro isVerbatim
      have noQuote := (unescaped_of_verbatim isVerbatim).1
      simpa using noQuote
    · intro noQuote
      exact verbatim_append ((verbatim_iff_of_plain plain).mpr noQuote) rfl
  · have isMark := known mark mem
    have noPercent : '%' ∉ mark := notMem_of_mem_allMarks isMark (by decide)
    have bracket := bracket_mem_of_mem_allMarks isMark
    have nonempty : ¬ mark <:+: [] := fun within => ne_nil_of_mem bracket (infix_nil.mp within)
    constructor
    · intro within
      have behind := (@occurs_of_occurs_append _ _ [] _ _ noPercent within).resolve_left nonempty
      exact (occurs_of_occurs_append noPercent behind).resolve_right nonempty
    · intro within
      exact within.trans ⟨['%'], ['%'], by simp⟩

omit known

section Kinds

variable {field : Field}

private theorem expresses_number_iff (fits : Fits table field) (ofNumbers : field ∈ [Field.level, .opType])
    (held : Int) (value : ℚ) :
    Expresses table (number field held).predicate (.number field value) ↔ (held : ℚ) = value := by
  obtain ⟨isNumber, reached⟩ := fits.numbers ofNumbers
  have atRow (row : Row) : (Predicate.equalInt field.column held).holds (table.cell row) = true ↔
      table.cell row field.column = .int held := by
    obtain ⟨number, isCell⟩ := isNumber row
    simp [Predicate.holds, Cell.test, isCell]
  constructor
  · intro expresses
    obtain ⟨row, isCell⟩ := reached held
    obtain ⟨other, same, isValue⟩ := (expresses.rows row).mp ((atRow row).mpr isCell)
    obtain rfl : held = other := Cell.int.inj (isCell.symm.trans same)
    exact isValue
  · rintro rfl
    refine ⟨rfl, fun row => (atRow row).trans ⟨fun isCell => ⟨held, isCell, rfl⟩, ?_⟩⟩
    rintro ⟨other, isCell, same⟩
    rw [isCell, Int.cast_injective same]

private theorem expresses_interval_iff (fits : Fits table .date) (left right : ℚ) :
    Expresses table (interval .date (goInt left) (goInt right)).predicate (.interval .date left right) ↔
    DatesKept left right := by
  obtain ⟨isDate, reached⟩ := fits.dates rfl
  have atRow {row : Row} {date : Int64} (isCell : table.cell row Field.date.column = .int date.toInt) :
      ((Predicate.between Field.date.column (goInt left) (goInt right)).holds (table.cell row) = true ↔
        goInt left ≤ date.toInt ∧ date.toInt ≤ goInt right) ∧
      ((Criterion.interval .date left right).satisfied (table.cell row) ↔ left ≤ date.toInt ∧ date.toInt ≤ right) := by
    simp [Predicate.holds, Cell.test, isCell, Criterion.satisfied]
  rw [← datesKept_iff]
  constructor
  · intro expresses date
    obtain ⟨row, isCell⟩ := reached date
    exact (atRow isCell).1.symm.trans ((expresses.rows row).trans (atRow isCell).2)
  · refine fun kept => ⟨rfl, fun row => ?_⟩
    obtain ⟨date, isCell⟩ := isDate row
    exact (atRow isCell).1.trans ((kept date).trans (atRow isCell).2.symm)

private theorem expresses_equal (field : Field) (text : List Char) :
    Expresses table (equal field text).predicate (.equal field text) :=
  ⟨⟨rfl, rfl⟩, fun row => by simp [predicate, predicateBy, Predicate.holds, Criterion.satisfied]⟩

private theorem expresses_substring_iff (varied : ∀ letters, ∃ row, (table.cell row field.column).spelled = letters)
    (text : List Char) : Expresses table (contains field text).predicate (.substring field text) ↔ Plain text := by
  rw [← like_within_iff]
  constructor
  · intro expresses other
    obtain ⟨row, rfl⟩ := varied other
    exact expresses.rows row
  · exact fun asks => ⟨rfl, fun row => asks _⟩

/-- The code of a log type occurs in that of another one only if they are the same. -/
theorem expresses_ofType (fits : Fits table .type) {category : LogType} (isLogType : category ∈ allLogType) :
    Expresses table (contains .type (printed category.code)).predicate (.ofType category.code) := by
  refine ⟨rfl, fun row => ?_⟩
  obtain ⟨held, isCell⟩ := fits.types rfl row
  have codes : ∀ category ∈ allLogType, ∀ held : LogType,
      SecurityFabric.like ('%' :: (printed category.code ++ ['%'])) (printed held.code) =
      decide (held.code = category.code) := by
    intro category mem held
    simp only [allLogType, mem_cons, not_mem_nil, or_false] at mem
    rcases mem with rfl | rfl | rfl <;> cases held <;> decide
  have read : (contains .type (printed category.code)).predicate.holds (table.cell row) =
      SecurityFabric.like ('%' :: (printed category.code ++ ['%'])) (printed held.code) := by
    change SecurityFabric.like _ (table.cell row Field.type.column).spelled = _
    rw [isCell]
    rfl
  rw [read, codes category isLogType held, Criterion.satisfied, isCell]
  simp

theorem expresses_oneOf (field : Field) (texts : List String) :
    Expresses table (oneOf field texts).predicate (.oneOf field texts) :=
  ⟨⟨rfl, rfl⟩, fun row => by simp [predicate, predicateBy, Predicate.holds, Criterion.satisfied]⟩

theorem expresses_noneOf (field : Field) (texts : List String) :
    Expresses table (noneOf field texts).predicate (.noneOf field texts) :=
  ⟨⟨rfl, rfl⟩, fun row => by simp [predicate, predicateBy, Predicate.holds, Criterion.satisfied]⟩

end Kinds

include known

/-- An entry is clean exactly if a condition is written for it whose values are clean and which expresses its criterion.
-/
theorem entryClean_iff {field : Field} (isAsked : Asked field value asked) (fits : Fits table field)
    (typed : ∀ code, value = .int code → ∃ category ∈ allLogType, code = category.code) : EntryClean marks field value ↔
      ∃ piece, written field value = some piece ∧ (∀ text ∈ piece.quoted, TextClean marks text) ∧
        Expresses table piece.predicate asked := by
  have single {piece : Piece} (isWritten : written field value = some piece) :
      (∃ piece, written field value = some piece ∧ (∀ text ∈ piece.quoted, TextClean marks text) ∧
      Expresses table piece.predicate asked) ↔
      (∀ text ∈ piece.quoted, TextClean marks text) ∧ Expresses table piece.predicate asked := by
    simp [isWritten]
  cases isAsked with
  | @number field value ofNumbers =>
    have isWritten : written field (.json (.num value)) = some (.number field 0) := by
      fin_cases ofNumbers <;> rfl
    have meaning : EntryClean marks field (.json (.num value)) ↔ value = 0 := by
      fin_cases ofNumbers <;> exact Iff.rfl
    rw [single isWritten, meaning, expresses_number_iff fits ofNumbers]
    simp [quoted, eq_comm]
  | @numeral field text value ofNumbers read =>
    have meaning : EntryClean marks field (.json (.str text)) ↔ isInt64 value = true := by
      fin_cases ofNumbers <;> simp [EntryClean, read]
    have isWritten : written field (.json (.str text)) = (atoi text.toList).map (.number field) := by
      fin_cases ofNumbers <;> rfl
    have parsed : atoi text.toList = if isInt64 value then some value else none := by
      rw [atoi, read, filter_some]
    rw [meaning]
    by_cases fitsInto : isInt64 value = true
    · rw [parsed, if_pos fitsInto] at isWritten
      rw [single isWritten, expresses_number_iff fits ofNumbers]
      simp [fitsInto, quoted]
    · rw [parsed] at isWritten
      simp [fitsInto, isWritten]
  | @dates left right =>
    have isWritten : written .date (.json (.arr [.num left, .num right])) =
      some (.interval .date (goInt left) (goInt right)) := rfl
    rw [single isWritten, expresses_interval_iff fits]
    simp [quoted, EntryClean]
  | @equal field text exact =>
    have isWritten : written field (.json (.str text)) = some (.equal field text.toList) := by
      fin_cases exact <;> rfl
    have meaning : EntryClean marks field (.json (.str text)) ↔ TextClean marks text.toList := by
      fin_cases exact <;> exact Iff.rfl
    rw [single isWritten, meaning]
    simp [quoted, expresses_equal]
  | @substring field text searched =>
    have isWritten : written field (.json (.str text)) = some (.contains field text.toList) := by
      fin_cases searched <;> rfl
    have meaning : EntryClean marks field (.json (.str text)) ↔ TextClean marks text.toList ∧ Plain text.toList := by
      fin_cases searched <;> exact Iff.rfl
    have isText : field ∈ [Field.userName, .mac, .ip, .userPaths, .msg, .exMsg, .name] := by
      tauto
    rw [single isWritten, meaning, expresses_substring_iff (fits.texts isText)]
    refine and_congr_left fun plain => ?_
    simp only [quoted, mem_singleton, forall_eq]
    exact (textClean_within_iff known plain).symm
  | @ofType code =>
    obtain ⟨category, isLogType, rfl⟩ := typed code rfl
    have isWritten : written .type (.int category.code) = some (.contains .type (printed category.code)) := rfl
    have fixed : isFixed ('%' :: (printed category.code ++ ['%'])) = true := by
      change isFixed ("%".toList ++ (printed category.code ++ "%".toList)) = true
      rw [isFixed_append, isFixed_append, isFixed_printed]
      decide
    rw [single isWritten]
    simp only [EntryClean, quoted, mem_singleton, forall_eq, true_iff]
    exact ⟨textClean_of_isFixed known fixed, expresses_ofType fits isLogType⟩

end Entries

end SecurityFabric.Auditlog
