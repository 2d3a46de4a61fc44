import Mathlib.Algebra.Ring.Parity
import Mathlib.Tactic.FinCases

/-! # Reading a text of SQL token by token

The text is read from the left to the right with what has been begun kept in a state, so that a text made of pieces is
read piece by piece. A literal stands between quotes; in it a quote is written twice, and a backslash begins an escape,
as MySQL reads them, but stays before `%` and `_`, where it belongs to a pattern.

A literal is verbatim if it can be put between the quotes as it is. The count of quotes and backslashes tells whether
all literals of a text are. Such a text changes between inside and outside at each of its quotes.
-/

namespace SecurityFabric.SqlText

open List Option

variable {letter : Char} {begun : List Token} {all : List Token} {rest : List Char}

inductive Token where
  | word (letters : List Char)
  | number (digits : List Char)
  | literal (text : List Char)
  | sign (letters : List Char)
deriving DecidableEq, Repr

/-- What has been begun. -/
inductive Reading where
  | outside
  | word (letters : List Char)
  | number (digits : List Char)
  /-- Inside the quotes. -/
  | literal (text : List Char)
  /-- Behind a backslash inside the quotes. -/
  | escape (text : List Char)
  /-- Behind a quote inside the quotes, which ends the literal or is the first of two. -/
  | quote (text : List Char)
  /-- Behind `<` or `>`. -/
  | compare (letter : Char)
deriving DecidableEq, Repr

def isWordLetter (letter : Char) : Bool := letter.isAlphanum || letter == '_'

/-- What a backslash and a letter stand for. -/
def escaped : Char → List Char
  | '0' => ['\x00']
  | 'b' => ['\x08']
  | 'n' => ['\n']
  | 'r' => ['\r']
  | 't' => ['\t']
  | 'Z' => ['\x1a']
  | '%' => ['\\', '%']
  | '_' => ['\\', '_']
  | letter => [letter]

/-- The first letter of a token, or a blank between two of them. -/
def start (letter : Char) : Option (List Token × Reading) :=
  if letter.isWhitespace then some ([], .outside)
  else if letter.isDigit then some ([], .number [letter])
  else if isWordLetter letter then some ([], .word [letter])
  else if letter = '\'' then some ([], .literal [])
  else if letter = '<' ∨ letter = '>' then some ([], .compare letter)
  else if letter ∈ ['(', ')', ',', '=', '-'] then some ([.sign [letter]], .outside)
  else none

/-- A token is complete and the letter begins another one. -/
def complete (token : Token) (letter : Char) : Option (List Token × Reading) :=
  (start letter).map fun begun => (token :: begun.1, begun.2)

def Reading.next : Reading → Char → Option (List Token × Reading)
  | outside, letter => start letter
  | word letters, letter =>
    if isWordLetter letter then some ([], word (letters ++ [letter])) else complete (.word letters) letter
  | number digits, letter =>
    if letter.isDigit then some ([], number (digits ++ [letter]))
    else if isWordLetter letter then none
    else complete (.number digits) letter
  | literal text, letter =>
    if letter = '\'' then some ([], quote text)
    else if letter = '\\' then some ([], escape text)
    else some ([], literal (text ++ [letter]))
  | escape text, letter => some ([], literal (text ++ escaped letter))
  | quote text, letter =>
    if letter = '\'' then some ([], literal (text ++ ['\''])) else complete (.literal text) letter
  | compare first, letter =>
    if letter = '=' then some ([.sign [first, '=']], outside) else complete (.sign [first]) letter

/-- Reads on; the tokens completed on the way, and what is begun at the end. -/
def Reading.read : Reading → List Char → Option (List Token × Reading)
  | reading, [] => some ([], reading)
  | reading, letter :: rest => do
    let (tokens, next) ← reading.next letter
    let (more, final) ← next.read rest
    return (tokens ++ more, final)

/-- The token that the end of the text completes. -/
def Reading.finish : Reading → Option (List Token)
  | outside => some []
  | word letters => some [.word letters]
  | number digits => some [.number digits]
  | quote text => some [.literal text]
  | compare letter => some [.sign [letter]]
  | literal _ | escape _ => none

/-- The tokens of a text. -/
def tokens (text : List Char) : Option (List Token) := do
  let (read, final) ← Reading.outside.read text
  let last ← final.finish
  return read ++ last

section Pieces

variable {reading middle final : Reading} {first second : List Char} {some₁ some₂ : List Token}

theorem Reading.read_cons : reading.read (letter :: rest) = some (all, final) ↔
    ∃ begun next more, reading.next letter = some (begun, next) ∧ next.read rest = some (more, final) ∧
    all = begun ++ more := by
  simp only [Reading.read, bind, bind_eq_some_iff, pure, some.injEq, Prod.mk.injEq, Prod.exists]
  constructor
  · rintro ⟨begun, next, stepped, more, last, later, rfl, rfl⟩
    exact ⟨begun, next, more, stepped, later, rfl⟩
  · rintro ⟨begun, next, more, stepped, later, rfl⟩
    exact ⟨begun, next, stepped, more, final, later, rfl, rfl⟩

theorem Reading.read_append (begins : reading.read first = some (some₁, middle))
    (continues : middle.read second = some (some₂, final)) :
    reading.read (first ++ second) = some (some₁ ++ some₂, final) := by
  induction first generalizing reading some₁ with
  | nil =>
    cases begins
    exact continues
  | cons letter rest ih =>
    obtain ⟨begun, next, more, stepped, later, rfl⟩ := read_cons.mp begins
    exact read_cons.mpr ⟨begun, next, more ++ some₂, stepped, ih later, by rw [append_assoc]⟩

/-- A text that is read can be cut anywhere. -/
theorem Reading.read_append_iff : reading.read (first ++ second) = some (all, final) ↔
    ∃ before middle after, reading.read first = some (before, middle) ∧ middle.read second = some (after, final) ∧
      all = before ++ after := by
  constructor
  · intro read
    induction first generalizing reading all with
    | nil => exact ⟨[], reading, all, rfl, read, rfl⟩
    | cons letter rest ih =>
      obtain ⟨begun, next, more, stepped, later, rfl⟩ := read_cons.mp read
      obtain ⟨before, middle, after, readFirst, readSecond, rfl⟩ := ih later
      exact ⟨begun ++ before, middle, after, read_cons.mpr ⟨begun, next, before, stepped, readFirst, rfl⟩,
        readSecond, by rw [append_assoc]⟩
  · rintro ⟨before, middle, after, readFirst, readSecond, rfl⟩
    exact read_append readFirst readSecond

variable {text : List Char}

theorem tokens_eq_some : tokens text = some all ↔
    ∃ read final last, Reading.outside.read text = some (read, final) ∧ final.finish = some last ∧
    all = read ++ last := by
  simp only [tokens, bind, bind_eq_some_iff, pure, some.injEq, Prod.exists]
  constructor
  · rintro ⟨read, final, reads, last, finishes, rfl⟩
    exact ⟨read, final, last, reads, finishes, rfl⟩
  · rintro ⟨read, final, last, reads, finishes, rfl⟩
    exact ⟨read, final, reads, last, finishes, rfl⟩

end Pieces

/-- Has no quote, and a backslash only in front of `%` or `_`. -/
def verbatim : List Char → Bool
  | [] => true
  | '\'' :: _ => false
  | '\\' :: '%' :: rest => verbatim rest
  | '\\' :: '_' :: rest => verbatim rest
  | '\\' :: _ => false
  | _ :: rest => verbatim rest

theorem verbatim_cons (plain : letter ≠ '\'' ∧ letter ≠ '\\') : verbatim (letter :: rest) = verbatim rest := by
  rw [verbatim.eq_def]
  split <;> simp_all

variable {next : Reading}

theorem Reading.read_of_next {reading : Reading} (stepped : reading.next letter = some ([], next)) (rest : List Char) :
    reading.read (letter :: rest) = next.read rest := by
  rw [Reading.read, stepped]
  cases later : next.read rest <;> simp [later]

theorem verbatim_append {first second : List Char} (isFirst : verbatim first = true)
    (isSecond : verbatim second = true) :
    verbatim (first ++ second) = true := by
  induction first using verbatim.induct with
  | case1 => exact isSecond
  | case2 rest => cases isFirst
  | case3 rest ih | case4 rest ih => exact ih isFirst
  | case5 rest notPercent notUnderscore =>
    rw [verbatim.eq_5 rest notPercent notUnderscore] at isFirst
    cases isFirst
  | case6 letter rest notQuote _ _ notBackslash ih =>
    have plain : letter ≠ '\'' ∧ letter ≠ '\\' := ⟨notQuote, notBackslash⟩
    rw [verbatim_cons plain] at isFirst
    rw [cons_append, verbatim_cons plain]
    exact ih isFirst

/-- What a literal holds that is written so, apart from quotes. -/
def unescaped : List Char → List Char
  | [] => []
  | ['\\'] => ['\\']
  | '\\' :: letter :: rest => escaped letter ++ unescaped rest
  | letter :: rest => letter :: unescaped rest

/-- No backslash waits for a letter at the end. -/
def isClosed : List Char → Bool
  | [] => true
  | ['\\'] => false
  | '\\' :: _ :: rest => isClosed rest
  | _ :: rest => isClosed rest

theorem unescaped_cons (notBackslash : letter ≠ '\\') (rest : List Char) :
    unescaped (letter :: rest) = letter :: unescaped rest ∧ isClosed (letter :: rest) = isClosed rest := by
  constructor
  · rw [unescaped.eq_def]
    split <;> simp_all
  · rw [isClosed.eq_def]
    split <;> simp_all

theorem ne_backslash_of_cases (notLast : letter = '\\' → rest = [] → False)
    (notEscape : ∀ next more, letter = '\\' → rest = next :: more → False) : letter ≠ '\\' := by
  intro backslash
  cases rest with
  | nil => exact notLast backslash rfl
  | cons next more => exact notEscape next more backslash rfl

theorem isClosed_percent (text : List Char) : isClosed (text ++ ['%']) = true := by
  induction text using unescaped.induct with
  | case1 | case2 => rfl
  | case3 letter rest ih => exact ih
  | case4 letter rest notLast notEscape ih =>
    rw [cons_append, (unescaped_cons (ne_backslash_of_cases notLast notEscape) _).2, ih]

/-- A text without quotes goes into the literal with its escapes resolved. -/
theorem Reading.read_unescaped (noQuote : '\'' ∉ text) (closed : isClosed text = true) (begun : List Char) :
    (Reading.literal begun).read text = some ([], .literal (begun ++ unescaped text)) := by
  induction text using unescaped.induct generalizing begun with
  | case1 => rw [unescaped, append_nil, Reading.read]
  | case2 => cases closed
  | case3 letter rest ih =>
    have backslash : (Reading.literal begun).next '\\' = some ([], .escape begun) := rfl
    have behind : (Reading.escape begun).next letter = some ([], .literal (begun ++ escaped letter)) := rfl
    have later : '\'' ∉ rest := fun mem => noQuote (mem_cons_of_mem _ (mem_cons_of_mem _ mem))
    rw [read_of_next backslash, read_of_next behind, ih later closed, unescaped, append_assoc]
  | case4 letter rest notLast notEscape ih =>
    have notBackslash := ne_backslash_of_cases notLast notEscape
    obtain ⟨notQuote, later⟩ := not_or.mp (mem_cons.not.mp noQuote)
    obtain ⟨resolved, sameClosed⟩ := unescaped_cons notBackslash rest
    rw [read_of_next (show (Reading.literal begun).next letter =
      _ by rw [Reading.next, if_neg (Ne.symm notQuote), if_neg notBackslash]), ih later (sameClosed ▸ closed),
      resolved, append_assoc]
    rfl

variable {last : List Token}

theorem Reading.next_of_finish {final : Reading} (finishes : final.finish = some last)
    (starts : start letter = some (begun, next))
    (apart : isWordLetter letter = false ∧ letter.isDigit = false ∧ letter ≠ '\'' ∧ letter ≠ '=') :
    final.next letter = some (last ++ begun, next) := by
  obtain ⟨notLetter, notDigit, notQuote, notEqual⟩ := apart
  cases final with
  | literal text | escape text => cases finishes
  | outside | word letters | number digits | quote text | compare first =>
    cases finishes
    simp [Reading.next, complete, starts, notLetter, notDigit, notQuote, notEqual]

open Reading

section Pieces

variable {first second : List Char} {some₁ some₂ : List Token}

variable (readFirst : tokens first = some some₁) (readSecond : tokens second = some some₂)

include readFirst readSecond

theorem tokens_append (starts : start letter = some (begun, .outside))
    (apart : isWordLetter letter = false ∧ letter.isDigit = false ∧ letter ≠ '\'' ∧ letter ≠ '=') :
    tokens (first ++ letter :: second) = some (some₁ ++ (begun ++ some₂)) := by
  obtain ⟨before, final, last, reads, finishes, rfl⟩ := tokens_eq_some.mp readFirst
  obtain ⟨after, final', last', reads', finishes', rfl⟩ := tokens_eq_some.mp readSecond
  have stepped := next_of_finish finishes starts apart
  refine tokens_eq_some.mpr ⟨before ++ ((last ++ begun) ++ after), final', last', ?_, finishes', by simp⟩
  exact read_append reads (read_cons.mpr ⟨_, _, _, stepped, reads', rfl⟩)

theorem tokens_append_blank : tokens (first ++ ' ' :: second) = some (some₁ ++ some₂) := by
  have starts : start ' ' = some ([], .outside) := rfl
  exact tokens_append readFirst readSecond starts (by decide)

theorem tokens_append_sign (isSign : letter ∈ ['(', ')', ',']) :
    tokens (first ++ letter :: second) = some (some₁ ++ .sign [letter] :: some₂) := by
  have starts : start letter = some ([.sign [letter]], .outside) := by
    fin_cases isSign <;> rfl
  have apart : isWordLetter letter = false ∧ letter.isDigit = false ∧ letter ≠ '\'' ∧ letter ≠ '=' := by
    fin_cases isSign <;> decide
  exact tokens_append readFirst readSecond starts apart

end Pieces

theorem tokens_literal (noQuote : '\'' ∉ text) (closed : isClosed text = true) :
    tokens ('\'' :: (text ++ ['\''])) = some [.literal (unescaped text)] := by
  have opens : Reading.outside.next '\'' = some ([], .literal []) := rfl
  have closes : (Reading.literal (unescaped text)).read ['\''] = some ([], .quote (unescaped text)) := by
    have ends : (Reading.literal (unescaped text)).next '\'' = some ([], .quote (unescaped text)) := rfl
    rw [read_of_next ends, Reading.read]
  have whole := read_append (read_unescaped noQuote closed []) closes
  refine tokens_eq_some.mpr ⟨[], .quote (unescaped text), [.literal (unescaped text)], ?_, rfl, rfl⟩
  rw [read_of_next opens]
  exact whole

/-- A number is read as a whole. -/
theorem tokens_digits {digits : List Char} (nonempty : digits ≠ [])
    (isNumber : ∀ letter ∈ digits, letter.isDigit = true) :
    tokens digits = some [.number digits] := by
  have reads (begun rest : List Char) (areDigits : ∀ letter ∈ rest, letter.isDigit = true) :
      (Reading.number begun).read rest = some ([], .number (begun ++ rest)) := by
    induction rest generalizing begun with
    | nil => rw [Reading.read, append_nil]
    | cons letter rest ih =>
      have stepped : (Reading.number begun).next letter = some ([], .number (begun ++ [letter])) := by
        rw [Reading.next, if_pos (areDigits letter mem_cons_self)]
      rw [read_of_next stepped, ih _ (forall_mem_cons.mp areDigits).2, append_assoc]
      rfl
  cases digits with
  | nil => exact absurd rfl nonempty
  | cons first rest =>
    have isDigit := isNumber first mem_cons_self
    have notBlank : first.isWhitespace = false := by
      by_contra blank
      rw [Bool.not_eq_false] at blank
      simp only [Char.isWhitespace, Bool.or_eq_true, decide_eq_true_eq] at blank
      rcases blank with ((rfl | rfl) | rfl) | rfl <;> cases isDigit
    have begins : Reading.outside.next first = some ([], .number [first]) := by
      simp [Reading.next, start, notBlank, isDigit]
    refine tokens_eq_some.mpr ⟨[], .number (first :: rest), [.number (first :: rest)], ?_, rfl, rfl⟩
    rw [read_of_next begins]
    exact reads [first] rest (forall_mem_cons.mp isNumber).2

def isMark (letter : Char) : Bool := letter == '\'' || letter == '\\'

/-- The quotes and backslashes of a text. -/
def marks (text : List Char) : Nat := text.countP isMark

/-- As many as are needed to write the token if nothing in it is escaped. -/
def Token.marks : Token → Nat
  | .literal text => SqlText.marks text + 2
  | _ => 0

def marksOf (all : List Token) : Nat := (all.map Token.marks).sum

/-- As many as have been read if nothing has been escaped. -/
def Reading.marks : Reading → Nat
  | literal text => SqlText.marks text + 1
  | escape text | quote text => SqlText.marks text + 2
  | _ => 0

def Reading.inside : Reading → Bool
  | literal _ | escape _ => true
  | _ => false

/-- What has been begun of a literal is verbatim. -/
def Reading.Verbatim : Reading → Prop
  | literal text | escape text | quote text => verbatim text = true
  | _ => True

def Token.Verbatim : Token → Prop
  | .literal text => verbatim text = true
  | _ => True

@[simp] theorem marks_append (first second : List Char) : marks (first ++ second) = marks first + marks second :=
  countP_append

@[simp] theorem marksOf_append (first second : List Token) :
    marksOf (first ++ second) = marksOf first + marksOf second := by
  rw [marksOf, map_append, sum_append]
  rfl

theorem marks_cons (letter : Char) (rest : List Char) : marks (letter :: rest) = marks [letter] + marks rest :=
  marks_append [letter] rest

/-- A token begins without a loss, inside a literal exactly if it begins with a quote. -/
theorem start_spec (stepped : start letter = some (begun, next)) :
    marksOf begun + next.marks = marks [letter] ∧ next.inside = (letter == '\'') ∧ next.Verbatim ∧
      (∀ token ∈ begun, token.Verbatim) ∧ letter ≠ '[' := by
  by_cases quote : letter = '\''
  · subst quote
    have started : start '\'' = some ([], .literal []) := rfl
    obtain ⟨rfl, rfl⟩ := Prod.mk.inj (some.inj (started.symm.trans stepped))
    refine ⟨rfl, rfl, rfl, ?_, by decide⟩
    rintro token ⟨⟩
  · have notBackslash : letter ≠ '\\' := by
      rintro rfl
      cases stepped
    have notBracket : letter ≠ '[' := by
      rintro rfl
      cases stepped
    have none : marks [letter] = 0 := by simp [marks, isMark, quote, notBackslash]
    have outsideLiteral : (letter == '\'') = false := by simpa using quote
    unfold start at stepped
    split_ifs at stepped
    all_goals
      cases stepped
      rw [none, outsideLiteral]
      refine ⟨rfl, rfl, trivial, ?_, notBracket⟩
      simp [Token.Verbatim]

theorem marks_escaped (letter : Char) : marks (escaped letter) ≤ 1 + marks [letter] ∧
    (marks (escaped letter) = 1 + marks [letter] → escaped letter = ['\\', letter] ∧ verbatim ['\\', letter] = true ∧
      letter ≠ '\'' ∧ letter ≠ '[') := by
  by_cases quote : letter = '\''
  · subst quote
    decide
  · by_cases backslash : letter = '\\'
    · subst backslash
      decide
    · unfold escaped
      split
      all_goals first | decide | simp

/-- A text that keeps its marks is verbatim. -/
theorem marks_unescaped (noQuote : '\'' ∉ text) (closed : isClosed text = true) :
    marks (unescaped text) ≤ marks text ∧ (marks (unescaped text) = marks text →
      unescaped text = text ∧ verbatim text = true) := by
  induction text using unescaped.induct with
  | case1 => exact ⟨Nat.le_refl _, fun _ => ⟨rfl, rfl⟩⟩
  | case2 => cases closed
  | case3 letter rest ih =>
    have later : '\'' ∉ rest := fun mem => noQuote (mem_cons_of_mem _ (mem_cons_of_mem _ mem))
    obtain ⟨atMost, kept⟩ := ih later closed
    obtain ⟨escapedAtMost, escapedKept⟩ := marks_escaped letter
    have whole : marks ('\\' :: letter :: rest) = 1 + marks [letter] + marks rest := by
      rw [marks_cons, marks_cons letter]
      have one : marks ['\\'] = 1 := rfl
      omega
    rw [unescaped, marks_append]
    refine ⟨by omega, fun counted => ?_⟩
    obtain ⟨same, isVerbatim, -, -⟩ := escapedKept (by omega)
    obtain ⟨restSame, restVerbatim⟩ := kept (by omega)
    rw [same, restSame]
    exact ⟨rfl, verbatim_append isVerbatim restVerbatim⟩
  | case4 letter rest notLast notEscape ih =>
    have notBackslash := ne_backslash_of_cases notLast notEscape
    obtain ⟨notQuote, later⟩ := not_or.mp (mem_cons.not.mp noQuote)
    obtain ⟨resolved, sameClosed⟩ := unescaped_cons notBackslash rest
    obtain ⟨atMost, kept⟩ := ih later (sameClosed ▸ closed)
    rw [resolved, marks_cons, marks_cons letter rest]
    refine ⟨by omega, fun counted => ?_⟩
    obtain ⟨restSame, restVerbatim⟩ := kept (by omega)
    rw [restSame, verbatim_cons ⟨Ne.symm notQuote, notBackslash⟩]
    exact ⟨rfl, restVerbatim⟩

/-- A verbatim text has no quote, and its escapes are complete and stay as they are. -/
theorem unescaped_of_verbatim (isVerbatim : verbatim text = true) :
    '\'' ∉ text ∧ isClosed text = true ∧ unescaped text = text := by
  induction text using verbatim.induct with
  | case1 => simp [isClosed, unescaped]
  | case2 rest => cases isVerbatim
  | case3 rest ih | case4 rest ih =>
    obtain ⟨noQuote, closed, same⟩ := ih isVerbatim
    refine ⟨?_, closed, ?_⟩
    · simpa using noQuote
    · rw [unescaped, same]
      rfl
  | case5 rest notPercent notUnderscore =>
    rw [verbatim.eq_5 rest notPercent notUnderscore] at isVerbatim
    cases isVerbatim
  | case6 letter rest notQuote _ _ notBackslash ih =>
    rw [verbatim_cons ⟨notQuote, notBackslash⟩] at isVerbatim
    obtain ⟨noQuote, closed, same⟩ := ih isVerbatim
    obtain ⟨resolved, sameClosed⟩ := unescaped_cons notBackslash rest
    refine ⟨?_, sameClosed.trans closed, by rw [resolved, same]⟩
    exact mem_cons.not.mpr (not_or.mpr ⟨Ne.symm notQuote, noQuote⟩)

theorem complete_eq_some {token : Token} :
    complete token letter = some (begun, next) ↔ ∃ more, start letter = some (more, next) ∧ begun = token :: more := by
  simp only [complete, map_eq_some_iff, Prod.mk.injEq, Prod.exists]
  constructor
  · rintro ⟨more, other, started, rfl, rfl⟩
    exact ⟨more, started, rfl⟩
  · rintro ⟨more, started, rfl⟩
    exact ⟨more, next, started, rfl, rfl⟩

/-- What a letter does if nothing is escaped. -/
structure Tight (reading : Reading) (letter : Char) (begun : List Token) (next : Reading) : Prop where
  inside : next.inside = (reading.inside ^^ letter == '\'')
  verbatim : reading.Verbatim → next.Verbatim ∧ ∀ token ∈ begun, token.Verbatim
  bracket : letter = '[' → reading.inside = true

/-- A token is complete outside of literals. -/
theorem complete_spec {reading : Reading} {token : Token} (asMany : token.marks = reading.marks)
    (isOutside : reading.inside = false)
    (alike : reading.Verbatim → token.Verbatim) (stepped : complete token letter = some (begun, next)) :
    marksOf begun + next.marks = reading.marks + marks [letter] ∧ Tight reading letter begun next := by
  obtain ⟨more, started, rfl⟩ := complete_eq_some.mp stepped
  obtain ⟨counted, place, isVerbatim, others, notBracket⟩ := start_spec started
  refine ⟨?_, ?_, fun soFar => ⟨isVerbatim, ?_⟩, fun isBracket => absurd isBracket notBracket⟩
  · have all : marksOf (token :: more) = token.marks + marksOf more := rfl
    omega
  · rw [place, isOutside, Bool.false_xor]
  · intro other mem
    rcases mem_cons.mp mem with rfl | mem
    · exact alike soFar
    · exact others other mem

/-- A letter completes no more than it and the ones before it are good for; if it is just as much, nothing is escaped.
-/
def Spends (reading : Reading) (letter : Char) (begun : List Token) (next : Reading) : Prop :=
  marksOf begun + next.marks ≤ reading.marks + marks [letter] ∧
    (marksOf begun + next.marks = reading.marks + marks [letter] → Tight reading letter begun next)

theorem Reading.next_spec {reading : Reading} (stepped : reading.next letter = some (begun, next)) :
    Spends reading letter begun next := by
  have ofComplete {token : Token} (completed : complete token letter = some (begun, next))
      (asMany : token.marks = reading.marks) (isOutside : reading.inside = false)
      (alike : reading.Verbatim → token.Verbatim) : Spends reading letter begun next := by
    obtain ⟨counted, isTight⟩ := complete_spec asMany isOutside alike completed
    exact ⟨Nat.le_of_eq counted, fun _ => isTight⟩
  -- a letter that goes on with a word or a number is neither a quote nor a bracket
  have ofLetter {other : Reading} (same : some (([] : List Token), other) = some (begun, next))
      (goesOn : letter ≠ '\'' ∧ letter ≠ '[') (asMany : other.marks = 0) (isOutside : reading.inside = false)
      (stays : other.inside = false) (isVerbatim : other.Verbatim) : Spends reading letter begun next := by
    cases same
    refine ⟨?_, fun _ => ⟨?_, fun _ => ⟨isVerbatim, by rintro token ⟨⟩⟩, fun isBracket => absurd isBracket goesOn.2⟩⟩
    · rw [asMany]
      exact Nat.zero_le _
    · have notQuote : (letter == '\'') = false := by simpa using goesOn.1
      rw [stays, isOutside, notQuote, Bool.false_xor]
  cases reading with
  | outside =>
    obtain ⟨counted, place, isVerbatim, others, notBracket⟩ := start_spec stepped
    have whole := counted.trans (Nat.zero_add _).symm
    exact ⟨Nat.le_of_eq whole, fun _ => ⟨place.trans (Bool.false_xor _).symm, fun _ => ⟨isVerbatim, others⟩,
      fun isBracket => absurd isBracket notBracket⟩⟩
  | word letters | number digits =>
    rw [Reading.next] at stepped
    split_ifs at stepped with goesOn
    · refine ofLetter stepped ⟨?_, ?_⟩ rfl rfl rfl trivial
      all_goals
        rintro rfl
        revert goesOn
        decide
    · exact ofComplete stepped rfl rfl fun _ => trivial
  | literal text =>
    rw [Reading.next] at stepped
    split_ifs at stepped with isQuote isBackslash
    · cases stepped
      subst isQuote
      have one : SqlText.marks ['\''] = 1 := rfl
      refine ⟨?_, fun _ => ⟨rfl, fun soFar => ⟨soFar, by rintro token ⟨⟩⟩, fun _ => rfl⟩⟩
      simp only [marksOf, Reading.marks, map_nil, sum_nil]
      omega
    · cases stepped
      subst isBackslash
      have one : SqlText.marks ['\\'] = 1 := rfl
      refine ⟨?_, fun _ => ⟨rfl, fun soFar => ⟨soFar, by rintro token ⟨⟩⟩, fun _ => rfl⟩⟩
      simp only [marksOf, Reading.marks, map_nil, sum_nil]
      omega
    · cases stepped
      have notQuote : (letter == '\'') = false := by simpa using isQuote
      refine ⟨?_, fun _ => ⟨?_, fun soFar => ⟨?_, by rintro token ⟨⟩⟩, fun _ => rfl⟩⟩
      · simp only [marksOf, Reading.marks, marks_append, map_nil, sum_nil]
        omega
      · rw [notQuote]
        rfl
      · refine verbatim_append soFar ?_
        rw [verbatim_cons ⟨isQuote, isBackslash⟩, verbatim]
  | escape text =>
    cases stepped
    obtain ⟨atMost, kept⟩ := marks_escaped letter
    simp only [Spends, marksOf, Reading.marks, marks_append, map_nil, sum_nil]
    refine ⟨by omega, fun counted => ?_⟩
    obtain ⟨same, isVerbatim, notQuote, notBracket⟩ := kept (by omega)
    have noQuote : (letter == '\'') = false := by simpa using notQuote
    refine ⟨?_, fun soFar => ⟨?_, by rintro token ⟨⟩⟩, fun _ => rfl⟩
    · rw [noQuote]
      rfl
    · rw [same]
      exact verbatim_append soFar isVerbatim
  | quote text =>
    rw [Reading.next] at stepped
    split_ifs at stepped with isQuote
    · cases stepped
      subst isQuote
      simp only [Spends, marksOf, Reading.marks, marks_append, map_nil, sum_nil]
      exact ⟨by omega, fun counted => by omega⟩
    · exact ofComplete stepped rfl rfl fun soFar => soFar
  | compare first =>
    rw [Reading.next] at stepped
    split_ifs at stepped with isEqual
    · cases stepped
      subst isEqual
      refine ⟨Nat.le_refl _, fun _ => ⟨rfl, fun _ => ⟨trivial, ?_⟩, fun isBracket => absurd isBracket (by decide)⟩⟩
      simp [Token.Verbatim]
    · exact ofComplete stepped rfl rfl fun _ => trivial

theorem odd_count_cons (letter other : Char) (rest : List Char) :
    decide (Odd ((letter :: rest).count other)) = (letter == other ^^ decide (Odd (rest.count other))) := by
  by_cases same : letter = other
  · subst same
    rw [count_cons_self, beq_self_eq_true, Bool.true_xor, ← decide_not]
    exact decide_eq_decide.mpr Nat.odd_add_one
  · rw [count_cons_of_ne same, beq_eq_false_iff_ne.mpr same, Bool.false_xor]

/-- The same for a text. -/
theorem Reading.read_spec {reading final : Reading} (read : reading.read text = some (all, final)) :
    marksOf all + final.marks ≤ reading.marks + SqlText.marks text ∧
      (marksOf all + final.marks = reading.marks + SqlText.marks text →
        final.inside = (reading.inside ^^ decide (Odd (text.count '\''))) ∧
          (reading.Verbatim → final.Verbatim ∧ ∀ token ∈ all, token.Verbatim)) := by
  induction text generalizing reading all with
  | nil =>
    cases read
    simp [marksOf]
  | cons letter rest ih =>
    obtain ⟨begun, next, more, stepped, later, rfl⟩ := read_cons.mp read
    obtain ⟨atMost, stepTight⟩ := next_spec stepped
    obtain ⟨laterAtMost, laterTight⟩ := ih later
    rw [marksOf_append, marks_cons]
    refine ⟨by omega, fun counted => ?_⟩
    have tight := stepTight (by omega)
    obtain ⟨place, isVerbatim⟩ := laterTight (by omega)
    constructor
    · rw [place, tight.inside, Bool.xor_assoc, odd_count_cons]
    · intro soFar
      obtain ⟨nextVerbatim, begunVerbatim⟩ := tight.verbatim soFar
      obtain ⟨finalVerbatim, moreVerbatim⟩ := isVerbatim nextVerbatim
      refine ⟨finalVerbatim, fun token mem => ?_⟩
      rcases mem_append.mp mem with mem | mem
      · exact begunVerbatim token mem
      · exact moreVerbatim token mem

theorem Reading.finish_spec {final : Reading} (finishes : final.finish = some last) :
    marksOf last = final.marks ∧ final.inside = false ∧ (final.Verbatim → ∀ token ∈ last, token.Verbatim) := by
  cases final with
  | literal text | escape text => cases finishes
  | outside | word letters | number digits | compare letter | quote text =>
    cases finishes
    refine ⟨by simp [marksOf, Token.marks, Reading.marks], rfl, fun soFar token mem => ?_⟩
    first
    | rw [mem_singleton.mp mem]
      exact soFar
    | cases mem

theorem marksOf_tokens_le (read : tokens text = some all) : marksOf all ≤ marks text := by
  obtain ⟨before, final, last, reads, finishes, rfl⟩ := tokens_eq_some.mp read
  obtain ⟨asMany, -, -⟩ := finish_spec finishes
  obtain ⟨atMost, -⟩ := read_spec reads
  have none : Reading.outside.marks = 0 := rfl
  rw [marksOf_append]
  omega

section Whole

variable {text : List Char} {all : List Token} (read : tokens text = some all) (counted : marksOf all = marks text)

include read counted

theorem verbatim_of_tokens : ∀ token ∈ all, token.Verbatim := by
  obtain ⟨before, final, last, reads, finishes, rfl⟩ := tokens_eq_some.mp read
  obtain ⟨asMany, -, lastVerbatim⟩ := finish_spec finishes
  obtain ⟨-, tight⟩ := read_spec reads
  rw [marksOf_append, asMany] at counted
  obtain ⟨-, isVerbatim⟩ := tight (counted.trans (Nat.zero_add _).symm)
  obtain ⟨finalVerbatim, beforeVerbatim⟩ := isVerbatim trivial
  intro token mem
  rcases mem_append.mp mem with mem | mem
  · exact beforeVerbatim token mem
  · exact lastVerbatim finalVerbatim token mem

/-- A bracket of such a text stands in a literal, so there is an odd number of quotes behind it. -/
theorem odd_quotes_behind_bracket {front back : List Char} (cut : text = front ++ '[' :: back) :
    Odd (back.count '\'') := by
  obtain ⟨before, final, last, reads, finishes, rfl⟩ := tokens_eq_some.mp read
  obtain ⟨asMany, isOutside, -⟩ := finish_spec finishes
  rw [cut] at reads
  obtain ⟨first, middle, rest, readFront, readRest, rfl⟩ := read_append_iff.mp reads
  obtain ⟨begun, next, more, stepped, readBack, rfl⟩ := read_cons.mp readRest
  obtain ⟨frontAtMost, -⟩ := read_spec readFront
  obtain ⟨atMost, stepTight⟩ := next_spec stepped
  obtain ⟨backAtMost, backTight⟩ := read_spec readBack
  have none : Reading.outside.marks = 0 := rfl
  rw [cut, marks_append, marks_cons, marksOf_append, marksOf_append, marksOf_append] at counted
  have tight := stepTight (by omega)
  obtain ⟨place, -⟩ := backTight (by omega)
  have inLiteral : next.inside = true := by
    rw [tight.inside, tight.bracket rfl]
    rfl
  rw [isOutside, inLiteral] at place
  simpa using place.symm

end Whole

end SecurityFabric.SqlText
