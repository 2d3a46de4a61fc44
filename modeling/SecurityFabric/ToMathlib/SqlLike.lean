import Mathlib.Data.List.Infix
import Mathlib.Data.Char
import Mathlib.Data.List.Lex
import Mathlib.Tactic.FinCases

/-! # The `like` operator of SQL

In a pattern `%` stands for any text, `_` for any one letter, and a backslash takes the letter behind it as it is. A
pattern made of a text without these signs and of `%` at its end asks whether the text begins what is matched. A text
without a backslash matches itself as a pattern.
-/

namespace SecurityFabric

open List

/-- Whether a pattern matches a text. -/
def like : List Char → List Char → Bool
  | [], text => text.isEmpty
  | '%' :: pattern, text => text.tails.any (like pattern)
  | '_' :: pattern, text => match text with
    | [] => false
    | _ :: text => like pattern text
  | ['\\'], text => text == ['\\']
  | '\\' :: letter :: pattern, text => match text with
    | [] => false
    | first :: text => first == letter && like pattern text
  | letter :: pattern, text => match text with
    | [] => false
    | first :: text => first == letter && like pattern text

/-- A text in which no sign of a pattern occurs. -/
def Plain (text : List Char) : Prop := ∀ letter ∈ text, letter ≠ '%' ∧ letter ≠ '_' ∧ letter ≠ '\\'

-- the instance for lists, not the one that goes over all letters there are
instance (text : List Char) : Decidable (Plain text) :=
  decidableBAll (fun letter => letter ≠ '%' ∧ letter ≠ '_' ∧ letter ≠ '\\') text

theorem like_percent (pattern text : List Char) :
    like ('%' :: pattern) text = true ↔ ∃ rest, rest <:+ text ∧ like pattern rest = true := by
  simp [like]

theorem like_letter {letter : Char} (plain : letter ≠ '%' ∧ letter ≠ '_' ∧ letter ≠ '\\') (pattern text : List Char) :
    like (letter :: pattern) text = true ↔ ∃ rest, text = letter :: rest ∧ like pattern rest = true := by
  obtain ⟨notPercent, notUnderscore, notBackslash⟩ := plain
  cases text with
  | nil | cons first text => simp [like, notBackslash]

variable {plain : List Char}

theorem like_append (isPlain : Plain plain) (pattern text : List Char) :
    like (plain ++ pattern) text = true ↔ ∃ rest, text = plain ++ rest ∧ like pattern rest = true := by
  induction plain generalizing text with
  | nil => simp
  | cons letter plain ih =>
    have later : Plain plain := (forall_mem_cons.mp isPlain).2
    rw [cons_append, like_letter (isPlain letter mem_cons_self)]
    constructor
    · rintro ⟨rest, rfl, matched⟩
      obtain ⟨back, rfl, remaining⟩ := (ih later rest).mp matched
      exact ⟨back, rfl, remaining⟩
    · rintro ⟨back, rfl, remaining⟩
      exact ⟨plain ++ back, rfl, (ih later _).mpr ⟨back, rfl, remaining⟩⟩

theorem like_any (text : List Char) : like ['%'] text = true := (like_percent [] text).mpr ⟨[], nil_suffix, rfl⟩

variable {pattern : List Char}

theorem like_begins_of_any (isPlain : Plain plain) (any : ∀ text, like pattern text = true) (text : List Char) :
    like (plain ++ pattern) text = true ↔ plain <+: text := by
  rw [like_append isPlain]
  constructor
  · rintro ⟨rest, rfl, _⟩
    exact prefix_append plain rest
  · rintro ⟨rest, rfl⟩
    exact ⟨rest, rfl, any rest⟩

theorem like_begins (isPlain : Plain plain) (text : List Char) :
    like (plain ++ ['%']) text = true ↔ plain <+: text := like_begins_of_any isPlain like_any text

theorem like_any_any (text : List Char) : like ['%', '%'] text = true :=
  (like_percent ['%'] text).mpr ⟨text, suffix_rfl, like_any text⟩

variable {text : List Char}

theorem like_self (noEscape : '\\' ∉ text) : like (text ++ ['%']) text = true := by
  induction text with
  | nil => exact like_any []
  | cons letter text ih =>
    obtain ⟨notBackslash, later⟩ := not_or.mp (mem_cons.not.mp noEscape)
    have rest := ih later
    by_cases percent : letter = '%'
    · subst percent
      exact (like_percent _ _).mpr ⟨text, suffix_cons '%' text, rest⟩
    · by_cases underscore : letter = '_'
      · subst underscore
        exact rest
      · exact (like_letter ⟨percent, underscore, Ne.symm notBackslash⟩ _ _).mpr ⟨text, rfl, rest⟩

theorem like_self_within (noEscape : '\\' ∉ text) : like ('%' :: text ++ ['%']) text = true :=
  (like_percent _ _).mpr ⟨text, suffix_rfl, like_self noEscape⟩

/-- A shortest text that a pattern matches. -/
def shortest : List Char → List Char
  | [] => []
  | '%' :: pattern => shortest pattern
  | '_' :: pattern => 'x' :: shortest pattern
  | ['\\'] => ['\\']
  | '\\' :: letter :: pattern => letter :: shortest pattern
  | letter :: pattern => letter :: shortest pattern

theorem shortest_letter {letter : Char} (notPercent : letter ≠ '%') (notUnderscore : letter ≠ '_')
    (notLast : letter = '\\' → pattern = [] → False)
    (notEscape : ∀ next rest, letter = '\\' → pattern = next :: rest → False) :
    (letter ≠ '%' ∧ letter ≠ '_' ∧ letter ≠ '\\') ∧ ∀ other, shortest (letter :: other) = letter :: shortest other := by
  have notBackslash : letter ≠ '\\' := by
    intro backslash
    cases pattern with
    | nil => exact notLast backslash rfl
    | cons next rest => exact notEscape next rest backslash rfl
  refine ⟨⟨notPercent, notUnderscore, notBackslash⟩, fun other => ?_⟩
  cases other with
  | nil | cons next rest => simp [shortest, notBackslash]

theorem like_shortest (pattern : List Char) : like pattern (shortest pattern) = true := by
  induction pattern using shortest.induct with
  | case1 | case4 => rfl
  | case2 pattern ih => exact (like_percent _ _).mpr ⟨_, suffix_rfl, ih⟩
  | case3 pattern ih => exact ih
  | case5 letter pattern ih => simp [shortest, like, ih]
  | case6 letter pattern notPercent notUnderscore notLast notEscape ih =>
    obtain ⟨plain, same⟩ := shortest_letter notPercent notUnderscore notLast notEscape
    rw [same]
    exact (like_letter plain _ _).mpr ⟨_, rfl, ih⟩

/-- Nothing shorter is matched. -/
theorem length_shortest_le_of_like (matched : like pattern text = true) : (shortest pattern).length ≤ text.length := by
  induction pattern using shortest.induct generalizing text with
  | case1 => exact Nat.zero_le _
  | case2 pattern ih =>
    obtain ⟨rest, behind, later⟩ := (like_percent _ _).mp matched
    exact (ih later).trans behind.length_le
  | case3 pattern ih =>
    cases text with
    | nil => cases matched
    | cons first text => exact Nat.succ_le_succ (ih matched)
  | case4 =>
    obtain rfl : text = ['\\'] := by simpa [like] using matched
    exact Nat.le_refl 1
  | case5 letter pattern ih =>
    cases text with
    | nil => simp [like] at matched
    | cons first text =>
      simp only [like, Bool.and_eq_true] at matched
      exact Nat.succ_le_succ (ih matched.2)
  | case6 letter pattern notPercent notUnderscore notLast notEscape ih =>
    obtain ⟨plain, same⟩ := shortest_letter notPercent notUnderscore notLast notEscape
    obtain ⟨rest, rfl, later⟩ := (like_letter plain _ _).mp matched
    rw [same]
    exact Nat.succ_le_succ (ih later)

theorem eq_shortest_of_like_iff (asks : ∀ other, like pattern other = true ↔ text <:+: other) :
    text = shortest pattern :=
  ((asks _).mp (like_shortest pattern)).eq_of_length_le (length_shortest_le_of_like ((asks text).mpr infix_rfl))

/-- The letters of the shortest text stand in the pattern, but for those that stand for any letter. -/
theorem countP_shortest_le {isCounted : Char → Bool} (placeholder : isCounted 'x' = false) (pattern : List Char) :
    (shortest pattern).countP isCounted ≤ pattern.countP isCounted := by
  induction pattern using shortest.induct with
  | case1 => exact Nat.le_refl 0
  | case2 pattern ih => exact ih.trans ((sublist_cons_self _ _).countP_le)
  | case3 pattern ih =>
    rw [shortest, countP_cons_of_neg (by simp [placeholder])]
    exact ih.trans ((sublist_cons_self _ _).countP_le)
  | case4 => exact Nat.le_refl _
  | case5 letter pattern ih =>
    have step : (letter :: shortest pattern).countP isCounted ≤ (letter :: pattern).countP isCounted := by
      rw [countP_cons, countP_cons]
      exact Nat.add_le_add_right ih _
    exact step.trans ((sublist_cons_self _ _).countP_le)
  | case6 letter pattern notPercent notUnderscore notLast notEscape ih =>
    rw [(shortest_letter notPercent notUnderscore notLast notEscape).2, countP_cons, countP_cons]
    exact Nat.add_le_add_right ih _

theorem length_shortest_le (text : List Char) : (shortest (text ++ ['%'])).length ≤ text.length := by
  induction text using shortest.induct with
  | case1 => exact Nat.le_refl 0
  | case2 text ih => exact Nat.le_succ_of_le ih
  | case3 text ih => exact Nat.succ_le_succ ih
  | case4 => exact Nat.le_refl 1
  | case5 letter text ih => exact Nat.le_succ_of_le (Nat.succ_le_succ ih)
  | case6 letter text notPercent notUnderscore notLast notEscape ih =>
    rw [cons_append, (shortest_letter notPercent notUnderscore notLast notEscape).2 (text ++ ['%'])]
    exact Nat.succ_le_succ ih

/-- Only a plain text is as long as what it matches at least. -/
theorem plain_of_eq_shortest (same : text = shortest (text ++ ['%'])) : Plain text := by
  induction text using shortest.induct with
  | case1 => simp [Plain]
  | case2 text ih =>
    have short := length_shortest_le text
    have long : text.length + 1 = (shortest (text ++ ['%'])).length := congrArg List.length same
    omega
  | case3 text ih => exact absurd (List.cons.inj same).1 (by decide)
  | case4 => exact absurd same (by decide)
  | case5 letter text ih =>
    have short := length_shortest_le text
    have long : text.length + 2 = (shortest (text ++ ['%'])).length + 1 := congrArg List.length same
    omega
  | case6 letter text notPercent notUnderscore notLast notEscape ih =>
    obtain ⟨plain, step⟩ := shortest_letter notPercent notUnderscore notLast notEscape
    rw [cons_append, step (text ++ ['%'])] at same
    intro other mem
    rcases mem_cons.mp mem with rfl | mem
    · exact plain
    · exact ih (List.cons.inj same).2 other mem

theorem like_within_iff (text : List Char) :
    (∀ other, like ('%' :: text ++ ['%']) other = true ↔ text <:+: other) ↔ Plain text := by
  constructor
  · intro asks
    have occurs := (asks _).mp (like_shortest ('%' :: text ++ ['%']))
    have short : (shortest ('%' :: text ++ ['%'])).length ≤ text.length := length_shortest_le text
    exact plain_of_eq_shortest (occurs.eq_of_length_le short)
  · intro plain other
    rw [cons_append, like_percent]
    constructor
    · rintro ⟨rest, behind, matched⟩
      exact ((like_begins plain rest).mp matched).isInfix.trans behind.isInfix
    · rintro ⟨front, back, rfl⟩
      refine ⟨text ++ back, ⟨front, (append_assoc _ _ _).symm⟩, ?_⟩
      exact (like_begins plain _).mpr (prefix_append text back)

/-! # Comparing names without regard to case

A case folding sends each letter to the one that stands for all its variants and leaves alone the signs that mean
something in a pattern or separate the parts of a name. Names are compared, and patterns matched, between foldings. A
collation adds the order in which a database sorts; names that it cannot tell apart are the same up to case.
-/

/-- A way to ignore the case of letters. -/
structure CaseFolding where
  fold : Char → Char
  sign : ∀ sign ∈ ['%', '_', '\\', '@'], ∀ letter, fold letter = sign ↔ letter = sign

namespace CaseFolding

variable (folding : CaseFolding)

def folded (name : List Char) : List Char := name.map folding.fold

/-- `EqualFold`, and the comparison of a column that ignores case. -/
def equalFold (s t : String) : Bool := folding.folded s.toList == folding.folded t.toList

/-- The operator `like` on a column that ignores case. -/
def likeFold (pattern text : List Char) : Bool := like (folding.folded pattern) (folding.folded text)

variable {folding}

theorem equalFold_iff {s t : String} :
    folding.equalFold s t = true ↔ folding.folded s.toList = folding.folded t.toList := beq_iff_eq

@[simp]
theorem fold_at_iff {letter : Char} : folding.fold letter = '@' ↔ letter = '@' := folding.sign '@' (by decide) letter

theorem fold_percent : folding.fold '%' = '%' := (folding.sign '%' (by decide) '%').mpr rfl

@[simp]
theorem folded_append (front back : List Char) :
    folding.folded (front ++ back) = folding.folded front ++ folding.folded back := map_append

@[simp]
theorem folded_at_cons (back : List Char) : folding.folded ('@' :: back) = '@' :: folding.folded back := by
  rw [folded, map_cons, fold_at_iff.mpr rfl, folded]

theorem at_mem_folded {name : List Char} : '@' ∈ folding.folded name ↔ '@' ∈ name := by
  rw [folded, mem_map]
  exact ⟨fun ⟨_, mem, same⟩ => fold_at_iff.mp same ▸ mem, fun mem => ⟨'@', mem, fold_at_iff.mpr rfl⟩⟩

theorem plain_folded {name : List Char} (plain : Plain name) : Plain (folding.folded name) := by
  intro letter mem
  obtain ⟨original, isLetter, rfl⟩ := mem_map.mp mem
  obtain ⟨notPercent, notUnderscore, notBackslash⟩ := plain original isLetter
  refine ⟨?_, ?_, ?_⟩
  · rwa [Ne, folding.sign '%' (by decide)]
  · rwa [Ne, folding.sign '_' (by decide)]
  · rwa [Ne, folding.sign '\\' (by decide)]

theorem likeFold_begins (isPlain : Plain plain) (text : List Char) :
    folding.likeFold (plain ++ ['@', '%', '%']) text = true ↔
    folding.folded plain ++ ['@'] <+: folding.folded text := by
  have ending : folding.folded ['@', '%', '%'] = ['@'] ++ ['%', '%'] := by simp [folded, fold_percent]
  have alsoPlain : Plain (folding.folded plain ++ ['@']) := by
    intro letter mem
    rcases mem_append.mp mem with inPlain | isAt
    · exact plain_folded isPlain letter inPlain
    · rw [mem_singleton.mp isAt]
      decide
  rw [likeFold, folded_append, ending, ← append_assoc, like_begins_of_any alsoPlain like_any_any]

end CaseFolding

/-- A case folding with an order of names in which only variants of one name are tied. -/
structure Collation extends CaseFolding where
  le : String → String → Bool
  total : ∀ s t, le s t = true ∨ le t s = true
  trans : ∀ {s t u}, le s t = true → le t u = true → le s u = true
  antisymm : ∀ {s t}, le s t = true → le t s = true → toCaseFolding.folded s.toList = toCaseFolding.folded t.toList

namespace Collation

theorem toLower_eq_iff {letter sign : Char} (notCapital : ¬ ('A' ≤ sign ∧ sign ≤ 'Z'))
    (notSmall : ¬ ('a' ≤ sign ∧ sign ≤ 'z')) :
    letter.toLower = sign ↔ letter = sign := by
  delta Char.toLower
  split
  · rename_i capital
    constructor
    · rintro rfl
      have low := UInt32.le_iff_toNat_le.mp capital.1
      have high := UInt32.le_iff_toNat_le.mp capital.2
      simp only [Char.le_def, UInt32.le_iff_toNat_le] at low high notSmall
      simp at low high notSmall
      omega
    · rintro rfl
      exact absurd capital notCapital
  · rfl

/-- Some name comes first. -/
theorem exists_first (collation : Collation) {α : Type} (name : α → String) {rows : List α} (nonempty : rows ≠ []) :
    ∃ first ∈ rows, ∀ row ∈ rows, collation.le (name first) (name row) = true := by
  induction rows with
  | nil => exact absurd rfl nonempty
  | cons row rest ih =>
    have own : collation.le (name row) (name row) = true := (collation.total _ _).elim id id
    by_cases more : rest = []
    · subst more
      exact ⟨row, mem_cons_self, fun other mem => by rwa [mem_singleton.mp mem]⟩
    · obtain ⟨first, mem, before⟩ := ih more
      rcases collation.total (name row) (name first) with earlier | later
      · exact ⟨row, mem_cons_self, forall_mem_cons.mpr ⟨own, fun other found =>
          collation.trans earlier (before other found)⟩⟩
      · exact ⟨first, mem_cons_of_mem _ mem, forall_mem_cons.mpr ⟨later, before⟩⟩

/-- The letters of ASCII without case, names in the order of their letters. -/
def ascii : Collation where
  fold := Char.toLower
  sign := by
    intro sign isSign letter
    fin_cases isSign
    all_goals exact toLower_eq_iff (by decide) (by decide)
  le s t := decide (s.toList.map Char.toLower ≤ t.toList.map Char.toLower)
  total := fun s t => by
    simp only [decide_eq_true_iff]
    exact le_total _ _
  trans := fun first second => by
    rw [decide_eq_true_iff] at first second ⊢
    exact first.trans second
  antisymm := fun first second => by
    rw [decide_eq_true_iff] at first second
    exact le_antisymm first second

end Collation

end SecurityFabric
