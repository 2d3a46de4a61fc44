import Mathlib.Data.List.Sort
import SecurityFabric.ToMathlib.SqlLike
import SecurityFabric.ToMathlib.SqlTokens

/-! # The end of a query: its conditions and its order

A query that is put together from a table and a text ends with conditions joined by `AND` and with columns to order by;
any other text is no such end. The words of the language are written in capitals. A statement is read from its tokens,
and the tokens of a statement are read as that statement.

A column holds a number or a text. A number is compared with a literal by the text it is printed as.
-/

namespace SecurityFabric.SqlText

open List SqlText

inductive Cell where
  | int (value : Int)
  | text (letters : List Char)
deriving DecidableEq, Repr

/-- A number as it is printed. -/
def printed (value : Int) : List Char := (toString value).toList

def Cell.spelled : Cell → List Char
  | .int value => printed value
  | .text letters => letters

inductive Predicate where
  | equalInt (column : List Char) (value : Int)
  | equalText (column text : List Char)
  | atMost (column : List Char) (value : Int)
  | like (column pattern : List Char)
  | between (column : List Char) (low high : Int)
  /-- From the first number on, up to but not with the second. -/
  | range (column : List Char) (low high : Int)
  | oneOf (column : List Char) (texts : List (List Char))
  | noneOf (column : List Char) (texts : List (List Char))
deriving DecidableEq, Repr

structure OrderItem where
  column : List Char
  descending : Bool
deriving DecidableEq, Repr

structure Ending where
  conditions : List Predicate
  order : List OrderItem
deriving DecidableEq, Repr

def keyword (text : String) : Token := .word text.toList

def intTokens : Int → List Token
  | .ofNat value => [.number (Nat.toDigits 10 value)]
  | .negSucc value => [.sign ['-'], .number (Nat.toDigits 10 (value + 1))]

/-- Parts with a token between any two of them. -/
def separated (between : Token) (parts : List (List Token)) : List Token := [between].intercalate parts

def textsTokens (texts : List (List Char)) : List Token :=
  .sign ['('] :: separated (.sign [',']) (texts.map fun text => [.literal text]) ++ [.sign [')']]

def Predicate.tokens : Predicate → List Token
  | equalInt column value => .word column :: .sign ['='] :: intTokens value
  | equalText column text => [.word column, .sign ['='], .literal text]
  | atMost column value => .word column :: .sign ['<', '='] :: intTokens value
  | like column pattern => [.word column, keyword "LIKE", .literal pattern]
  | between column low high =>
    .sign ['('] :: .word column :: keyword "BETWEEN" :: intTokens low ++
      keyword "AND" :: intTokens high ++ [.sign [')']]
  | range column low high =>
    .sign ['('] :: .word column :: .sign ['>', '='] :: intTokens low ++ keyword "AND" :: .word column :: .sign ['<'] ::
      intTokens high ++ [.sign [')']]
  | oneOf column texts => .word column :: keyword "IN" :: textsTokens texts
  | noneOf column texts => .word column :: keyword "NOT" :: keyword "IN" :: textsTokens texts

def OrderItem.tokens (item : OrderItem) : List Token :=
  [.word item.column, keyword (if item.descending then "DESC" else "ASC")]

def whereTokens : List Predicate → List Token
  | [] => []
  | conditions => keyword "WHERE" :: separated (keyword "AND") (conditions.map Predicate.tokens)

def orderTokens : List OrderItem → List Token
  | [] => []
  | order => keyword "ORDER" :: keyword "BY" :: separated (.sign [',']) (order.map OrderItem.tokens)

def Ending.tokens (ending : Ending) : List Token := whereTokens ending.conditions ++ orderTokens ending.order

theorem printed_ofNat (value : Nat) : printed (.ofNat value) = Nat.toDigits 10 value := by
  change (toString value).toList = _
  rw [Nat.toString_eq_ofList_toDigits, String.toList_ofList]

theorem printed_negSucc (value : Nat) : printed (.negSucc value) = '-' :: Nat.toDigits 10 (value + 1) := by
  change ("-" ++ toString (value + 1)).toList = _
  simp only [String.toList_append, Nat.toString_eq_ofList_toDigits, String.toList_ofList]
  rfl

theorem tokens_toDigits (value : Nat) : tokens (Nat.toDigits 10 value) = some [.number (Nat.toDigits 10 value)] :=
  tokens_digits Nat.toDigits_ne_nil fun _ mem => Nat.isDigit_of_mem_toDigits (by decide) (by decide) mem

theorem tokens_printed (value : Int) : tokens (printed value) = some (intTokens value) := by
  cases value with
  | ofNat value => rw [printed_ofNat, tokens_toDigits, intTokens]
  | negSucc value =>
    obtain ⟨read, final, last, reads, finishes, same⟩ := tokens_eq_some.mp (tokens_toDigits (value + 1))
    have sign : Reading.outside.next '-' = some ([.sign ['-']], .outside) := rfl
    rw [printed_negSucc, intTokens]
    exact tokens_eq_some.mpr ⟨_, final, last, Reading.read_cons.mpr ⟨_, _, read, sign, reads, rfl⟩,
      finishes, by simp [same]⟩

def readInt : List Token → Option (Int × List Token)
  | .number digits :: rest => some (Nat.ofDigitChars 10 digits 0, rest)
  | .sign ['-'] :: .number digits :: rest => some (-Nat.ofDigitChars 10 digits 0, rest)
  | _ => none

def readTexts : List Token → Option (List (List Char) × List Token)
  | .literal text :: next :: rest =>
    if next = .sign [')'] then some ([text], rest)
    else if next = .sign [','] then (readTexts rest).map fun more => (text :: more.1, more.2)
    else none
  | _ => none

/-- A comparison of a column with what follows. -/
def readComparison (column : List Char) (operator : Token) (rest : List Token) : Option (Predicate × List Token) :=
  if operator = .sign ['='] then match rest with
    | .literal text :: rest => some (.equalText column text, rest)
    | rest => (readInt rest).map fun read => (.equalInt column read.1, read.2)
  else if operator = .sign ['<', '='] then (readInt rest).map fun read => (.atMost column read.1, read.2)
  else if operator = keyword "LIKE" then match rest with
    | .literal pattern :: rest => some (.like column pattern, rest)
    | _ => none
  else if operator = keyword "IN" then match rest with
    | .sign ['('] :: rest => (readTexts rest).map fun read => (.oneOf column read.1, read.2)
    | _ => none
  else if operator = keyword "NOT" then match rest with
    | .word ['I', 'N'] :: .sign ['('] :: rest => (readTexts rest).map fun read => (.noneOf column read.1, read.2)
    | _ => none
  else none

/-- What may stand in brackets. -/
def readBracketed (column : List Char) (operator : Token) (rest : List Token) : Option (Predicate × List Token) := do
  let (low, rest) ← readInt rest
  if operator = keyword "BETWEEN" then match rest with
    | .word ['A', 'N', 'D'] :: rest => do
      let (high, rest) ← readInt rest
      match rest with
      | .sign [')'] :: rest => some (.between column low high, rest)
      | _ => none
    | _ => none
  else if operator = .sign ['>', '='] then match rest with
    | .word ['A', 'N', 'D'] :: .word again :: .sign ['<'] :: rest => do
      let (high, rest) ← readInt rest
      match rest with
      | .sign [')'] :: rest => if again = column then some (.range column low high, rest) else none
      | _ => none
    | _ => none
  else none

def readPredicate : List Token → Option (Predicate × List Token)
  | .word column :: operator :: rest => readComparison column operator rest
  | .sign ['('] :: .word column :: operator :: rest => readBracketed column operator rest
  | _ => none

/-- Conditions joined by `AND`, at most as many as the bound. -/
def readConditions : Nat → List Token → Option (List Predicate × List Token)
  | 0, _ => none
  | bound + 1, tokens => do
    let (condition, rest) ← readPredicate tokens
    match rest with
    | .word ['A', 'N', 'D'] :: rest => (readConditions bound rest).map fun more => (condition :: more.1, more.2)
    | rest => some ([condition], rest)

/-- Whether the order is descending. -/
def readDirection (direction : Token) : Option Bool :=
  if direction = keyword "DESC" then some true else if direction = keyword "ASC" then some false else none

def readOrder : List Token → Option (List OrderItem)
  | [.word column, direction] => (readDirection direction).map fun descending => [⟨column, descending⟩]
  | .word column :: direction :: .sign [','] :: rest => do
    let descending ← readDirection direction
    let order ← readOrder rest
    return ⟨column, descending⟩ :: order
  | _ => none

def readOrderBy : List Token → Option (List OrderItem)
  | [] => some []
  | .word ['O', 'R', 'D', 'E', 'R'] :: .word ['B', 'Y'] :: rest => readOrder rest
  | _ => none

def readEnding : List Token → Option Ending
  | .word ['W', 'H', 'E', 'R', 'E'] :: rest => do
    let (conditions, rest) ← readConditions rest.length rest
    let order ← readOrderBy rest
    return ⟨conditions, order⟩
  | tokens => (readOrderBy tokens).map fun order => ⟨[], order⟩

/-- The statement a text is. -/
def statement (text : String) : Option Ending := (tokens text.toList).bind readEnding

variable {parts : List (List Token)} {condition : Predicate} {part : List Token} {conditions : List Predicate}
  {order : List OrderItem}

section RoundTrip

variable (rest : List Token)

theorem readInt_intTokens (value : Int) : readInt (intTokens value ++ rest) = some (value, rest) := by
  cases value with
  | ofNat value | negSucc value =>
    simp only [intTokens, cons_append, readInt, Nat.ofDigitChars_ten_toDigits]
    rfl

variable {between : Token}

theorem separated_cons (nonempty : parts ≠ []) :
    separated between (part :: parts) = part ++ between :: separated between parts := by
  rw [separated, intercalate_cons_of_ne_nil nonempty, append_assoc]
  rfl

@[simp] theorem separated_singleton (between : Token) (part : List Token) : separated between [part] = part :=
  intercalate_singleton

theorem separated_append {first second : List (List Token)} (filled : first ≠ []) (filled' : second ≠ []) :
    separated between (first ++ second) = separated between first ++ between :: separated between second := by
  induction first with
  | nil => exact absurd rfl filled
  | cons part first ih =>
    cases first with
    | nil => rw [singleton_append, separated_cons filled', separated_singleton]
    | cons next first =>
      have more : next :: first ++ second ≠ [] := by simp
      rw [cons_append, separated_cons more, ih (cons_ne_nil next first), separated_cons (cons_ne_nil next first)]
      simp

/-- Texts that are joined by one that is read as a token. -/
theorem tokens_intercalate {α : Type} {text : α → List Char} {parts : α → List Token} {separator : List Char}
    (joins : ∀ {first second : List Char} {some₁ some₂ : List Token}, tokens first = some some₁ →
      tokens second = some some₂ → tokens (first ++ separator ++ second) = some (some₁ ++ between :: some₂))
    {items : List α} (filled : items ≠ []) (read : ∀ item ∈ items, tokens (text item) = some (parts item)) :
    tokens (separator.intercalate (items.map text)) = some (separated between (items.map parts)) := by
  induction items with
  | nil => exact absurd rfl filled
  | cons item items ih =>
    have first := read item mem_cons_self
    cases items with
    | nil => simpa using first
    | cons next items =>
      have later := ih (cons_ne_nil next items) (forall_mem_cons.mp read).2
      have texts : (next :: items).map text ≠ [] := by simp
      have tokenLists : (next :: items).map parts ≠ [] := by simp
      have joined : separator.intercalate (text item :: (next :: items).map text) = text item ++ separator ++ _ :=
        intercalate_cons_of_ne_nil texts
      have parted : separated between (parts item :: (next :: items).map parts) = parts item ++ between :: _ :=
        separated_cons tokenLists
      exact (congrArg tokens joined).trans ((joins first later).trans (congrArg some parted.symm))

theorem readTexts_textsTokens {texts : List (List Char)} (nonempty : texts ≠ []) :
    readTexts (separated (.sign [',']) (texts.map fun text => [.literal text]) ++ .sign [')'] :: rest) =
      some (texts, rest) := by
  induction texts with
  | nil => exact absurd rfl nonempty
  | cons text texts ih =>
    cases texts with
    | nil => simp [readTexts]
    | cons next texts =>
      rw [map_cons, separated_cons (by simp)]
      have later := ih (cons_ne_nil next texts)
      simp only [cons_append, nil_append, readTexts]
      rw [later]
      simp

/-- Lists to compare with are not empty. -/
def Predicate.Proper : Predicate → Prop
  | oneOf _ texts | noneOf _ texts => texts ≠ []
  | _ => True

theorem readPredicate_tokens (proper : condition.Proper) :
    readPredicate (condition.tokens ++ rest) = some (condition, rest) := by
  cases condition with
  | equalInt column value =>
    have read := readInt_intTokens rest value
    cases value with
    | ofNat value | negSucc value =>
      simp only [Predicate.tokens, intTokens, cons_append, readPredicate, readComparison] at read ⊢
      rw [read]
      rfl
  | equalText column text | like column pattern => rfl
  | atMost column value =>
    have read := readInt_intTokens rest value
    simp only [Predicate.tokens, cons_append, readPredicate, readComparison]
    rw [read]
    rfl
  | between column low high | range column low high =>
    simp only [Predicate.tokens, cons_append, append_assoc, readPredicate, readBracketed]
    rw [readInt_intTokens]
    change (readInt (intTokens high ++ .sign [')'] :: rest)).bind _ = _
    rw [readInt_intTokens]
    simp
  | oneOf column texts | noneOf column texts =>
    have read := readTexts_textsTokens rest proper
    simp only [Predicate.tokens, textsTokens, cons_append, append_assoc, nil_append]
    change (readTexts _).map _ = _
    rw [read]
    rfl

theorem Predicate.tokens_ne_nil (condition : Predicate) : condition.tokens ≠ [] := by
  cases condition <;> simp [Predicate.tokens]

/-- Conditions, and then something that is not another one. -/
theorem readConditions_tokens (nonempty : conditions ≠ [])
    (proper : ∀ condition ∈ conditions, condition.Proper) (stops : ∀ more, rest ≠ keyword "AND" :: more) {bound : Nat}
    (enough : conditions.length ≤ bound) :
    readConditions bound (separated (keyword "AND") (conditions.map Predicate.tokens) ++ rest) =
      some (conditions, rest) := by
  induction conditions generalizing bound with
  | nil => exact absurd rfl nonempty
  | cons condition conditions ih =>
    obtain ⟨bound, rfl⟩ : ∃ smaller, bound = smaller + 1 := ⟨bound - 1, by simp only [length_cons] at enough; omega⟩
    have first := proper condition mem_cons_self
    cases conditions with
    | nil =>
      rw [map_singleton, separated_singleton, readConditions, readPredicate_tokens rest first]
      simp only [Option.bind_eq_bind, Option.bind_some]
      split
      · rename_i more
        exact absurd rfl (stops more)
      · rfl
    | cons next conditions =>
      have later := ih (cons_ne_nil next conditions) (forall_mem_cons.mp proper).2 (Nat.le_of_succ_le_succ enough)
      rw [map_cons, separated_cons (by simp), append_assoc, cons_append, readConditions, readPredicate_tokens _ first]
      change (readConditions bound _).map _ = _
      rw [later]
      rfl

theorem readDirection_tokens (descending : Bool) :
    readDirection (keyword (if descending then "DESC" else "ASC")) = some descending := by
  cases descending <;> decide

theorem readOrder_tokens (nonempty : order ≠ []) :
    readOrder (separated (.sign [',']) (order.map OrderItem.tokens)) = some order := by
  induction order with
  | nil => exact absurd rfl nonempty
  | cons item order ih =>
    cases order with
    | nil => rw [map_singleton, separated_singleton, OrderItem.tokens, readOrder, readDirection_tokens, Option.map_some]
    | cons next order =>
      rw [map_cons, separated_cons (by simp), OrderItem.tokens, cons_append, cons_append, nil_append,
        readOrder, readDirection_tokens, ih (cons_ne_nil next order)]
      rfl

end RoundTrip

theorem whereTokens_of_ne_nil (nonempty : conditions ≠ []) :
    whereTokens conditions = keyword "WHERE" :: separated (keyword "AND") (conditions.map Predicate.tokens) := by
  cases conditions with
  | nil => exact absurd rfl nonempty
  | cons condition conditions => rfl

theorem orderTokens_of_ne_nil (nonempty : order ≠ []) :
    orderTokens order = keyword "ORDER" :: keyword "BY" :: separated (.sign [',']) (order.map OrderItem.tokens) := by
  cases order with
  | nil => exact absurd rfl nonempty
  | cons item order => rfl

theorem readOrderBy_tokens (order : List OrderItem) : readOrderBy (orderTokens order) = some order := by
  cases order with
  | nil => rfl
  | cons item order => exact readOrder_tokens (cons_ne_nil item order)

theorem length_le_separated (between : Token) (filled : ∀ part ∈ parts, part ≠ []) :
    parts.length ≤ (separated between parts).length := by
  induction parts with
  | nil => exact Nat.zero_le _
  | cons part parts ih =>
    have here := length_pos_of_ne_nil (filled part mem_cons_self)
    have later := ih (forall_mem_cons.mp filled).2
    cases parts with
    | nil =>
      rw [separated_singleton]
      exact here
    | cons next parts =>
      rw [separated_cons (cons_ne_nil next parts)]
      simp only [length_append, length_cons] at later ⊢
      omega

/-- Proper conditions. -/
def Ending.Proper (ending : Ending) : Prop := ∀ condition ∈ ending.conditions, condition.Proper

variable {ending : Ending}

/-- The tokens of a statement are read as that statement. -/
theorem readEnding_tokens (proper : ending.Proper) : readEnding ending.tokens = some ending := by
  obtain ⟨conditions, order⟩ := ending
  have stops (more : List Token) : orderTokens order ≠ keyword "AND" :: more := by
    cases order with
    | nil => exact (cons_ne_nil _ _).symm
    | cons item order =>
      intro same
      cases (List.cons.inj same).1
  by_cases empty : conditions = []
  · subst empty
    have notWhere : readEnding (orderTokens order) = (readOrderBy (orderTokens order)).map fun order =>
        ⟨[], order⟩ := by
      cases order with
      | nil | cons item order => rfl
    exact notWhere.trans (by rw [readOrderBy_tokens, Option.map_some])
  · have parts : conditions.length ≤ (separated (keyword "AND") (conditions.map Predicate.tokens)).length := by
      have filled : ∀ part ∈ conditions.map Predicate.tokens, part ≠ [] := by simp [Predicate.tokens_ne_nil]
      simpa using length_le_separated (keyword "AND") filled
    have enough : conditions.length ≤ (separated (keyword "AND") (conditions.map Predicate.tokens) ++
        orderTokens order).length := by
      rw [length_append]
      omega
    have read := readConditions_tokens _ empty proper stops enough
    rw [Ending.tokens, whereTokens_of_ne_nil empty, cons_append]
    change (readConditions _ _).bind _ = _
    rw [read]
    change (readOrderBy _).bind _ = _
    rw [readOrderBy_tokens]
    rfl

theorem Ending.tokens_inj {other : Ending} (proper : ending.Proper) (otherProper : other.Proper)
    (same : ending.tokens = other.tokens) :
    ending = other :=
  Option.some.inj ((readEnding_tokens proper).symm.trans
    ((congrArg readEnding same).trans (readEnding_tokens otherProper)))

theorem mem_separated (between : Token) (isPart : part ∈ parts) {token : Token} (mem : token ∈ part) :
    token ∈ separated between parts := by
  induction parts with
  | nil => cases isPart
  | cons first parts ih =>
    cases parts with
    | nil =>
      rw [separated_singleton, ← mem_singleton.mp isPart]
      exact mem
    | cons next parts =>
      rcases mem_cons.mp isPart with rfl | later
      · exact mem_append_left _ mem
      · exact mem_append_right _ (mem_cons_of_mem _ (ih later))

theorem Ending.mem_tokens (isCondition : condition ∈ ending.conditions) {token : Token}
    (mem : token ∈ condition.tokens) :
    token ∈ ending.tokens := by
  have inParts := mem_separated (keyword "AND") (mem_map_of_mem isCondition) mem
  rw [Ending.tokens, whereTokens_of_ne_nil (ne_nil_of_mem isCondition)]
  exact mem_append_left _ (mem_cons_of_mem _ inParts)

theorem marksOf_separated (unmarked : between.marks = 0) (parts : List (List Token)) :
    marksOf (separated between parts) = (parts.map marksOf).sum := by
  induction parts with
  | nil => rfl
  | cons part parts ih =>
    cases parts with
    | nil => simp
    | cons next parts =>
      have rest : marksOf (between :: separated between (next :: parts)) =
          marksOf (separated between (next :: parts)) := by
        simp [marksOf, unmarked]
      rw [separated_cons (cons_ne_nil next parts), marksOf_append, rest, ih]
      rfl

theorem marksOf_keyword (text : String) (rest : List Token) : marksOf (keyword text :: rest) = marksOf rest :=
  (marksOf_append [keyword text] rest).trans (Nat.zero_add _)

@[simp] theorem marksOf_intTokens (value : Int) : marksOf (intTokens value) = 0 := by
  cases value <;> rfl

theorem marksOf_textsTokens (texts : List (List Char)) :
    marksOf (textsTokens texts) = (texts.map fun text => marks text + 2).sum := by
  have comma : (Token.sign [',']).marks = 0 := rfl
  have cut : marksOf (textsTokens texts) = 0 + marksOf
      (separated (.sign [',']) (texts.map fun text => [.literal text])) + 0 :=
    marksOf_append (.sign ['('] :: separated (.sign [',']) (texts.map fun text => [.literal text])) [.sign [')']]
  rw [cut, Nat.zero_add, marksOf_separated comma, map_map]
  rfl

/-- The texts of a condition. -/
def Predicate.literals : Predicate → List (List Char)
  | equalText _ text | like _ text => [text]
  | oneOf _ texts | noneOf _ texts => texts
  | _ => []

theorem Predicate.literal_mem {text : List Char} (mem : text ∈ condition.literals) :
    .literal text ∈ condition.tokens := by
  have inList {texts : List (List Char)} (within : text ∈ texts) : .literal text ∈ textsTokens texts := by
    have isPart : [Token.literal text] ∈ texts.map fun text => [.literal text] := mem_map_of_mem within
    have inParts := mem_separated (.sign [',']) isPart mem_cons_self
    simp [textsTokens, inParts]
  cases condition with
  | equalText column held | like column held =>
    obtain rfl := mem_singleton.mp mem
    simp [Predicate.tokens]
  | oneOf column texts =>
    exact mem_cons_of_mem _ (mem_cons_of_mem _ (inList mem))
  | noneOf column texts =>
    exact mem_cons_of_mem _ (mem_cons_of_mem _ (mem_cons_of_mem _ (inList mem)))
  | _ => cases mem

theorem Predicate.marksOf_tokens (condition : Predicate) :
    marksOf condition.tokens = (condition.literals.map fun text => marks text + 2).sum := by
  have word (letters : List Char) (rest : List Token) : marksOf (.word letters :: rest) = marksOf rest :=
    (marksOf_append [.word letters] rest).trans (Nat.zero_add _)
  have sign (letters : List Char) (rest : List Token) : marksOf (.sign letters :: rest) = marksOf rest :=
    (marksOf_append [.sign letters] rest).trans (Nat.zero_add _)
  have literal (text : List Char) : marksOf [.literal text] = marks text + 2 := by simp [marksOf, Token.marks]
  have nothing : marksOf [] = 0 := rfl
  cases condition <;>
    simp [Predicate.tokens, Predicate.literals, word, sign, literal, nothing, marksOf_keyword, marksOf_textsTokens]

/-- The quotes and backslashes of a statement are those of its conditions. -/
theorem marksOf_tokens (ending : Ending) :
    marksOf ending.tokens = (ending.conditions.map fun condition => marksOf condition.tokens).sum := by
  have comma : (Token.sign [',']).marks = 0 := rfl
  have conjunction : (keyword "AND").marks = 0 := rfl
  have none : marksOf (orderTokens ending.order) = 0 := by
    cases items : ending.order with
    | nil => rfl
    | cons item order =>
      have each : (((item :: order).map OrderItem.tokens).map marksOf).sum = 0 := by
        induction item :: order with
        | nil => rfl
        | cons other more ih =>
          rw [map_cons, map_cons, sum_cons, ih]
          rfl
      rw [orderTokens_of_ne_nil (cons_ne_nil item order), marksOf_keyword, marksOf_keyword,
        marksOf_separated comma, each]
  rw [Ending.tokens, marksOf_append, none]
  cases ending.conditions with
  | nil => rfl
  | cons condition conditions =>
    rw [whereTokens_of_ne_nil (cons_ne_nil condition conditions), marksOf_keyword,
      marksOf_separated conjunction, map_map]
    rfl

/-- The columns of a table and what they hold in a row. -/
structure Table (Row : Type) where
  columns : List (List Char)
  cell : Row → List Char → Cell

def Predicate.column : Predicate → List Char
  | equalInt column _ | equalText column _ | atMost column _ | like column _ | between column _ _ | range column _ _
  | oneOf column _ | noneOf column _ => column

def Cell.test (holds : Int → Bool) : Cell → Bool
  | .int value => holds value
  | .text _ => false

def Predicate.holds (cell : List Char → Cell) : Predicate → Bool
  | equalInt column value => (cell column).test (· == value)
  | equalText column text => (cell column).spelled == text
  | atMost column value => (cell column).test (· ≤ value)
  | like column pattern => SecurityFabric.like pattern (cell column).spelled
  | between column low high => (cell column).test fun value => low ≤ value && value ≤ high
  | range column low high => (cell column).test fun value => low ≤ value && value < high
  | oneOf column texts => texts.contains (cell column).spelled
  | noneOf column texts => !texts.contains (cell column).spelled

/-- Texts in the order of a dictionary. -/
def textLe : List Char → List Char → Bool
  | [], _ => true
  | _ :: _, [] => false
  | letter :: first, other :: second => letter.toNat < other.toNat ||
      (letter.toNat == other.toNat && textLe first second)

/-- Numbers by their value and texts letter by letter. -/
def Cell.le : Cell → Cell → Bool
  | .int first, .int second => first ≤ second
  | .text first, .text second => textLe first second
  | .int _, .text _ => true
  | .text _, .int _ => false

/-- Whether one row may stand before another. -/
def precedes (cell : List Char → Cell) (other : List Char → Cell) : List OrderItem → Bool
  | [] => true
  | item :: order =>
    let first := if item.descending then other item.column else cell item.column
    let second := if item.descending then cell item.column else other item.column
    first.le second && (!second.le first || precedes cell other order)

variable {Row : Type}

def Ending.selects (table : Table Row) (ending : Ending) (row : Row) : Bool :=
  ending.conditions.all fun condition => condition.holds (table.cell row)

/-- The rows of a table that the conditions select, in order; rows that the order does not tell apart stay as they are.
-/
def Ending.run (table : Table Row) (ending : Ending) (rows : List Row) : Option (List Row) :=
  if (∀ condition ∈ ending.conditions, condition.column ∈ table.columns) ∧
    ∀ item ∈ ending.order, item.column ∈ table.columns
  then some ((rows.filter (ending.selects table)).insertionSort fun first second =>
    precedes (table.cell first) (table.cell second) ending.order = true)
  else none

end SecurityFabric.SqlText
