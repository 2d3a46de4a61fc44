import SecurityFabric.Model.Auditlog.Condition

/-! # What the conditions of a query are made of

A condition as it is written is a text with values between quotes in it. The values are letters of a request as they
are, so it depends on them what the database reads. The part outside of the quotes has no bracket, hence a mark of the
template can only occur in a value.
-/

namespace SecurityFabric.Auditlog

open SqlText List Function

variable {isCounted : Char → Bool} {piece : Piece}

/-- A condition as it is written. -/
inductive Piece where
  | number (field : Field) (value : Int)
  | atMost (field : Field) (value : Int)
  | interval (field : Field) (left right : Int)
  | range (field : Field) (left right : Int)
  | equal (field : Field) (text : List Char)
  | contains (field : Field) (text : List Char)
  | oneOf (field : Field) (texts : List String)
  | noneOf (field : Field) (texts : List String)
deriving DecidableEq, Repr

namespace Piece

def text : Piece → List Char
  | number field value => equalNumber field value
  | atMost field value => field.column ++ " <= ".toList ++ printed value
  | interval field left right => betweenDates field.column left right
  | range field left right => rangeDates field.column left right
  | equal field text => field.column ++ " = ".toList ++ "'".toList ++ text ++ "'".toList
  | contains field text => field.column ++ " LIKE ".toList ++ "'%".toList ++ text ++ "%'".toList
  | oneOf field texts => enumText " IN ".toList field texts
  | noneOf field texts => enumText " NOT IN ".toList field texts

/-- What stands between quotes. -/
def quoted : Piece → List (List Char)
  | equal _ text => [text]
  | contains _ text => ['%' :: (text ++ ['%'])]
  | oneOf _ texts | noneOf _ texts => texts.map String.toList
  | _ => []

/-- The condition that is meant if what stands between quotes is read in some way. -/
def predicateBy (read : List Char → List Char) : Piece → Predicate
  | number field value => .equalInt field.column value
  | atMost field value => .atMost field.column value
  | interval field left right => .between field.column left right
  | range field left right => .range field.column left right
  | equal field text => .equalText field.column (read text)
  | contains field text => .like field.column (read ('%' :: (text ++ ['%'])))
  | oneOf field texts => .oneOf field.column (texts.map fun text => read text.toList)
  | noneOf field texts => .noneOf field.column (texts.map fun text => read text.toList)

/-- The condition with the values as they are. -/
def predicate : Piece → Predicate := predicateBy id

/-- A list of values has one. -/
def Filled : Piece → Prop
  | oneOf _ texts | noneOf _ texts => texts ≠ []
  | _ => True

/-- What stands between quotes ends at the next one. -/
def Readable (piece : Piece) : Prop := ∀ value ∈ piece.quoted, '\'' ∉ value ∧ isClosed value = true

end Piece

/-- No quote, backslash or bracket. -/
def isFixed (text : List Char) : Bool := text.all fun letter => letter ≠ '\'' ∧ letter ≠ '\\' ∧ letter ≠ '['

/-- Values between quotes, each with what comes behind it. -/
def weave (head : List Char) : List (List Char × List Char) → List Char
  | [] => head
  | (value, behind) :: more => head ++ '\'' :: (value ++ '\'' :: weave behind more)

theorem isFixed_append (first second : List Char) : isFixed (first ++ second) = (isFixed first && isFixed second) := by
  simp [isFixed]

theorem isFixed_column (field : Field) : isFixed field.column = true := by
  cases field <;> decide

private theorem isFixed_digits (value : Nat) : isFixed (Nat.toDigits 10 value) = true :=
  all_eq_true.mpr fun letter mem => by
    have isDigit := Nat.isDigit_of_mem_toDigits (by decide) (by decide) mem
    simp only [decide_eq_true_eq]
    refine ⟨?_, ?_, ?_⟩ <;> rintro rfl <;> cases isDigit

theorem isFixed_printed (value : Int) : isFixed (printed value) = true := by
  cases value with
  | ofNat value => rw [printed_ofNat, isFixed_digits]
  | negSucc value =>
    rw [printed_negSucc]
    exact isFixed_digits (value + 1)

theorem isFixed_intercalate {between : List Char} (fixed : isFixed between = true) {parts : List (List Char)}
    (partsFixed : ∀ part ∈ parts, isFixed part = true) : isFixed (between.intercalate parts) = true := by
  induction parts with
  | nil => rfl
  | cons part parts ih =>
    have later := ih (forall_mem_cons.mp partsFixed).2
    have first := partsFixed part mem_cons_self
    cases parts with
    | nil => simpa using first
    | cons next parts =>
      rw [intercalate_cons_of_ne_nil (cons_ne_nil next parts), isFixed_append, isFixed_append, first, fixed, later]
      rfl

variable {text : List Char}

theorem notMem_of_isFixed (fixed : isFixed text = true) : '\'' ∉ text ∧ '\\' ∉ text ∧ '[' ∉ text := by
  have isPlain {letter : Char} (mem : letter ∈ text) : letter ≠ '\'' ∧ letter ≠ '\\' ∧ letter ≠ '[' := by
    simpa using all_eq_true.mp fixed letter mem
  exact ⟨fun mem => (isPlain mem).1 rfl, fun mem => (isPlain mem).2.1 rfl, fun mem => (isPlain mem).2.2 rfl⟩

theorem verbatim_of_isFixed (fixed : isFixed text = true) : verbatim text = true := by
  obtain ⟨noQuote, noBackslash, -⟩ := notMem_of_isFixed fixed
  clear fixed
  induction text with
  | nil => rfl
  | cons letter rest ih =>
    obtain ⟨notQuote, laterQuote⟩ := not_or.mp (mem_cons.not.mp noQuote)
    obtain ⟨notBackslash, laterBackslash⟩ := not_or.mp (mem_cons.not.mp noBackslash)
    rw [verbatim_cons ⟨Ne.symm notQuote, Ne.symm notBackslash⟩]
    exact ih laterQuote laterBackslash

theorem countP_of_isFixed (fixed : isFixed text = true)
    (only : ∀ letter, isCounted letter = true → letter = '\'' ∨ letter = '\\') :
    text.countP isCounted = 0 := by
  refine countP_eq_zero.mpr fun letter mem counted => ?_
  rcases only letter counted with rfl | rfl
  · exact (notMem_of_isFixed fixed).1 mem
  · exact (notMem_of_isFixed fixed).2.1 mem

section Weave

variable {head : List Char} {parts : List (List Char × List Char)} (headFixed : isFixed head = true)
  (partsFixed : ∀ part ∈ parts, isFixed part.2 = true)

include headFixed partsFixed

theorem countP_weave (quote : isCounted '\'' = true)
    (only : ∀ letter, isCounted letter = true → letter = '\'' ∨ letter = '\\') :
    (weave head parts).countP isCounted = (parts.map fun part => part.1.countP isCounted + 2).sum := by
  induction parts generalizing head with
  | nil => exact countP_of_isFixed headFixed only
  | cons part more ih =>
    obtain ⟨value, behind⟩ := part
    have later := ih (partsFixed _ mem_cons_self) (forall_mem_cons.mp partsFixed).2
    rw [weave, countP_append, countP_cons_of_pos quote, countP_append, countP_cons_of_pos quote, later,
      countP_of_isFixed headFixed only, map_cons, sum_cons]
    dsimp only
    omega

/-- A mark occurs in a value, if at all. -/
theorem occurs_of_occurs_weave {mark : List Char} (bracket : '[' ∈ mark) (noQuote : '\'' ∉ mark)
    (occurs : mark <:+: weave head parts) : ∃ part ∈ parts, mark <:+: part.1 := by
  have notFixed {text : List Char} (fixed : isFixed text = true) : ¬ mark <:+: text := fun within =>
    (notMem_of_isFixed fixed).2.2 (within.subset bracket)
  induction parts generalizing head with
  | nil => exact absurd occurs (notFixed headFixed)
  | cons part more ih =>
    have inRest := (occurs_of_occurs_append noQuote occurs).resolve_left (notFixed headFixed)
    rcases occurs_of_occurs_append noQuote inRest with inValue | later
    · exact ⟨_, mem_cons_self, inValue⟩
    · obtain ⟨other, mem, within⟩ := ih (partsFixed _ mem_cons_self) (forall_mem_cons.mp partsFixed).2 later
      exact ⟨other, mem_cons_of_mem _ mem, within⟩

end Weave

/-- Values with commas between them and a bracket at the end. -/
def listParts : List (List Char) → List (List Char × List Char)
  | [] => []
  | [value] => [(value, ")".toList)]
  | value :: next :: more => (value, ",".toList) :: listParts (next :: more)

private theorem map_fst_listParts (values : List (List Char)) : (listParts values).map Prod.fst = values := by
  induction values using listParts.induct with
  | case1 | case2 value => rfl
  | case3 value next more ih => rw [listParts, map_cons, ih]

private theorem isFixed_listParts (values : List (List Char)) : ∀ part ∈ listParts values, isFixed part.2 = true := by
  induction values using listParts.induct with
  | case1 => simp [listParts]
  | case2 value =>
    intro part mem
    rw [mem_singleton.mp mem]
    rfl
  | case3 value next more ih =>
    intro part mem
    rcases mem_cons.mp mem with rfl | mem
    · rfl
    · exact ih part mem

variable {values : List (List Char)}

private theorem weave_listParts (filled : values ≠ []) (head : List Char) :
    weave head (listParts values) = head ++ "'".toList ++ "','".toList.intercalate values ++ "')".toList := by
  induction values using listParts.induct generalizing head with
  | case1 => exact absurd rfl filled
  | case2 value => simp [listParts, weave]
  | case3 value next more ih =>
    have later := ih (cons_ne_nil next more) ",".toList
    rw [listParts, weave, later]
    simp

private theorem weave_head (head : List Char) (parts : List (List Char × List Char)) :
    weave head parts = head ++ weave [] parts := by
  cases parts with
  | nil => exact (append_nil head).symm
  | cons part more => rfl

/-- The tokens of such a list. -/
theorem tokens_listParts (filled : values ≠ []) (readable : ∀ value ∈ values, '\'' ∉ value ∧ isClosed value = true) :
    tokens (weave [] (listParts values)) =
      some (separated (.sign [',']) (values.map fun value => [.literal (unescaped value)]) ++ [.sign [')']]) := by
  have readLiteral {value : List Char} (isReadable : '\'' ∉ value ∧ isClosed value = true) (letter : Char)
      (isSign : letter ∈ ['(', ')', ',']) {rest : List Char} {after : List Token}
        (readRest : tokens rest = some after) :
      tokens ('\'' :: (value ++ '\'' :: letter :: rest)) =
        some (.literal (unescaped value) :: .sign [letter] :: after) := by
    have whole := tokens_append_sign (tokens_literal isReadable.1 isReadable.2) readRest isSign
    simpa using whole
  induction values using listParts.induct with
  | case1 => exact absurd rfl filled
  | case2 value =>
    have nothing : tokens [] = some [] := rfl
    exact readLiteral (readable value mem_cons_self) ')' (by decide) nothing
  | case3 value next more ih =>
    have later := ih (cons_ne_nil next more) (forall_mem_cons.mp readable).2
    rw [listParts, weave, weave_head, map_cons]
    exact readLiteral (readable value mem_cons_self) ',' (by decide) later

namespace Piece

/-- The text before the first quote. -/
def head : Piece → List Char
  | equal field _ => field.column ++ " = ".toList
  | contains field _ => field.column ++ " LIKE ".toList
  | oneOf field _ => field.column ++ " IN ".toList ++ "(".toList
  | noneOf field _ => field.column ++ " NOT IN ".toList ++ "(".toList
  | piece => piece.text

def parts : Piece → List (List Char × List Char)
  | equal _ text => [(text, [])]
  | contains _ text => [('%' :: (text ++ ['%']), [])]
  | oneOf _ texts | noneOf _ texts => listParts (texts.map String.toList)
  | _ => []

theorem map_fst_parts (piece : Piece) : piece.parts.map Prod.fst = piece.quoted := by
  cases piece with
  | oneOf field texts | noneOf field texts => exact map_fst_listParts _
  | _ => rfl

theorem isFixed_head (piece : Piece) : isFixed piece.head = true := by
  cases piece <;>
    simp only [head, text, equalNumber, betweenDates, rangeDates, isFixed_append, isFixed_column, isFixed_printed] <;>
    decide

theorem isFixed_parts (piece : Piece) : ∀ part ∈ piece.parts, isFixed part.2 = true := by
  cases piece with
  | oneOf field texts | noneOf field texts => exact isFixed_listParts _
  | equal field text | contains field text => simp [parts, isFixed]
  | _ => simp [parts]

theorem text_eq_weave (filled : piece.Filled) : piece.text = weave piece.head piece.parts := by
  cases piece with
  | oneOf field texts | noneOf field texts =>
    have nonempty : texts.map String.toList ≠ [] := map_eq_nil_iff.not.mpr filled
    rw [text, enumText, head, parts, weave_listParts nonempty]
    simp
  | equal field text | contains field text => simp [Piece.text, head, parts, weave]
  | _ => rfl

end Piece

private theorem infix_weave {head : List Char} {parts : List (List Char × List Char)} {part : List Char × List Char}
    (mem : part ∈ parts) : part.1 <:+: weave head parts := by
  induction parts generalizing head with
  | nil => cases mem
  | cons first more ih =>
    rcases mem_cons.mp mem with rfl | mem
    · exact ⟨head ++ ['\''], '\'' :: weave part.2 more, by simp [weave]⟩
    · refine (@ih first.2 mem).trans ⟨head ++ '\'' :: (first.1 ++ ['\'']), [], ?_⟩
      simp [weave]

theorem Piece.occurs_text (filled : piece.Filled) {mark : List Char} (bracket : '[' ∈ mark)
    (noQuote : '\'' ∉ mark) : mark <:+: piece.text ↔ ∃ value ∈ piece.quoted, mark <:+: value := by
  rw [text_eq_weave filled, ← map_fst_parts]
  constructor
  · intro occurs
    obtain ⟨part, mem, within⟩ := occurs_of_occurs_weave piece.isFixed_head piece.isFixed_parts bracket noQuote occurs
    exact ⟨part.1, mem_map_of_mem mem, within⟩
  · rintro ⟨value, mem, within⟩
    obtain ⟨part, isPart, rfl⟩ := mem_map.mp mem
    exact within.trans (infix_weave isPart)

theorem tokens_column (field : Field) : tokens field.column = some [.word field.column] := by
  cases field <;> rfl

private theorem tokens_compare (field : Field) {operator operand : List Char}
    {operatorTokens operandTokens : List Token}
    (readOperator : tokens operator = some operatorTokens) (readOperand : tokens operand = some operandTokens) :
    tokens (field.column ++ ' ' :: (operator ++ ' ' :: operand)) =
      some (.word field.column :: (operatorTokens ++ operandTokens)) :=
  tokens_append_blank (tokens_column field) (tokens_append_blank readOperator readOperand)

private theorem tokens_opened {rest : List Char} {restTokens : List Token} (readRest : tokens rest = some restTokens) :
    tokens ('(' :: rest) = some (.sign ['('] :: restTokens) := by
  have nothing : tokens [] = some [] := rfl
  have opening : '(' ∈ ['(', ')', ','] := by decide
  exact tokens_append_sign nothing readRest opening

private theorem tokens_bracketed {inner : List Char} {innerTokens : List Token}
    (readInner : tokens inner = some innerTokens) :
    tokens ('(' :: (inner ++ [')'])) = some (.sign ['('] :: (innerTokens ++ [.sign [')']])) := by
  have nothing : tokens [] = some [] := rfl
  have closing : ')' ∈ ['(', ')', ','] := by decide
  exact tokens_opened (tokens_append_sign readInner nothing closing)

/-- A condition is read as it is written, with what stands between quotes resolved. -/
theorem Piece.tokens_text (filled : piece.Filled) (readable : piece.Readable) :
    tokens piece.text = some (piece.predicateBy unescaped).tokens := by
  have listed {texts : List String} (filled : texts ≠ []) := fun readable =>
    tokens_opened (tokens_listParts (map_eq_nil_iff.not.mpr filled : texts.map String.toList ≠ []) readable)
  cases piece with
  | number field value =>
    have operator : tokens ['='] = some [.sign ['=']] := rfl
    have read := tokens_compare field operator (tokens_printed value)
    simpa [Piece.text, equalNumber, Piece.predicateBy, Predicate.tokens] using read
  | atMost field value =>
    have operator : tokens ['<', '='] = some [.sign ['<', '=']] := rfl
    have read := tokens_compare field operator (tokens_printed value)
    simpa [Piece.text, Piece.predicateBy, Predicate.tokens] using read
  | interval field left right =>
    have operator : tokens "BETWEEN".toList = some [keyword "BETWEEN"] := rfl
    have conjunction : tokens "AND".toList = some [keyword "AND"] := rfl
    have read := tokens_bracketed (tokens_compare field operator
      (tokens_append_blank (tokens_printed left) (tokens_append_blank conjunction (tokens_printed right))))
    simpa [Piece.text, betweenDates, Piece.predicateBy, Predicate.tokens] using read
  | range field left right =>
    have operator : tokens ['>', '='] = some [.sign ['>', '=']] := rfl
    have conjunction : tokens "AND ".toList = some [keyword "AND"] := rfl
    have less : tokens ['<'] = some [.sign ['<']] := rfl
    have read := tokens_bracketed (tokens_compare field operator (tokens_append_blank (tokens_printed left)
      (tokens_append_blank conjunction (tokens_compare field less (tokens_printed right)))))
    simpa [Piece.text, rangeDates, Piece.predicateBy, Predicate.tokens] using read
  | equal field text =>
    obtain ⟨noQuote, closed⟩ := readable text mem_cons_self
    have operator : tokens ['='] = some [.sign ['=']] := rfl
    have read := tokens_compare field operator (tokens_literal noQuote closed)
    simpa [Piece.text, Piece.predicateBy, Predicate.tokens] using read
  | contains field text =>
    obtain ⟨noQuote, closed⟩ := readable _ mem_cons_self
    have operator : tokens "LIKE".toList = some [keyword "LIKE"] := rfl
    have read := tokens_compare field operator (tokens_literal noQuote closed)
    simpa [Piece.text, Piece.predicateBy, Predicate.tokens] using read
  | oneOf field texts =>
    have operator : tokens "IN".toList = some [keyword "IN"] := rfl
    have read := tokens_compare field operator (listed filled readable)
    rw [text_eq_weave filled, weave_head]
    simpa [head, parts, Piece.predicateBy, Predicate.tokens, textsTokens, comp_def] using read
  | noneOf field texts =>
    have operator : tokens "NOT IN".toList = some [keyword "NOT", keyword "IN"] := rfl
    have read := tokens_compare field operator (listed filled readable)
    rw [text_eq_weave filled, weave_head]
    simpa [head, parts, Piece.predicateBy, Predicate.tokens, textsTokens, comp_def] using read

end SecurityFabric.Auditlog
