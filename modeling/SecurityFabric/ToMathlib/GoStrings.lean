import Mathlib.Data.List.Infix

/-! # Words of one length, joined by a separator

A text that joins words of one length by a separator is read word by word: one such text begins another, or occurs in
another, exactly if its words begin, or occur among, the words of the other. With words of different lengths a text can
also occur across the border of two words.
-/

namespace SecurityFabric

open List

variable {α : Type} {sep : α} {width : Nat}
variable {first words : List (List α)}

/-- Words of one length in which the separator does not occur. -/
def UniformWords (sep : α) (width : Nat) (words : List (List α)) : Prop :=
  ∀ word ∈ words, word.length = width ∧ sep ∉ word

theorem UniformWords.tail {word : List α} {words : List (List α)} (uniform : UniformWords sep width (word :: words)) :
    UniformWords sep width words := (forall_mem_cons.mp uniform).2

theorem intercalate_begins (begins : first <+: words) : [sep].intercalate first <+: [sep].intercalate words := by
  obtain ⟨rest, rfl⟩ := begins
  induction first with
  | nil => exact nil_prefix
  | cons word more ih =>
    cases more with
    | nil =>
      cases rest with
      | nil => exact prefix_rfl
      | cons next rest => exact ⟨sep :: [sep].intercalate (next :: rest), by simp⟩
    | cons next more =>
      rw [cons_append, cons_append, intercalate_cons_cons, intercalate_cons_cons]
      exact prefix_append_right_inj _ |>.mpr ih

theorem word_begins_intercalate (sep : α) (word : List α) (words : List (List α)) :
    word <+: [sep].intercalate (word :: words) := by
  have begins : [sep].intercalate [word] <+: _ := intercalate_begins (prefix_append [word] words)
  simpa using begins

theorem mem_intercalate {words : List (List α)} {letter : α} (mem : letter ∈ [sep].intercalate words) :
    letter = sep ∨ ∃ word ∈ words, letter ∈ word := by
  induction words with
  | nil => exact absurd mem not_mem_nil
  | cons word words ih =>
    cases words with
    | nil => exact .inr ⟨word, mem_cons_self, by simpa using mem⟩
    | cons next words =>
      rw [intercalate_cons_cons, append_assoc, mem_append, mem_append, mem_singleton] at mem
      rcases mem with inWord | isSep | later
      · exact .inr ⟨word, mem_cons_self, inWord⟩
      · exact .inl isSep
      · exact (ih later).imp_right fun ⟨other, among, within⟩ => ⟨other, mem_cons_of_mem _ among, within⟩

theorem not_prefix_of_short {word front back : List α} (clean : sep ∉ word) (short : front.length < word.length) :
    ¬ word <+: front ++ sep :: back := by
  intro begins
  have separator : front ++ [sep] <+: front ++ sep :: back := ⟨back, by simp⟩
  have whole : front ++ [sep] <+: word := prefix_of_prefix_length_le separator begins
    (by rw [length_append]; exact short)
  exact clean (whole.subset (by simp))

theorem infix_of_infix_append {word text front back : List α} (starts : word <+: text) (clean : sep ∉ word)
    (short : front.length < word.length) (occurs : text <:+: front ++ sep :: back) : text <:+: back := by
  induction front with
  | nil =>
    rcases infix_cons_iff.mp occurs with begins | later
    · exact absurd (starts.trans begins) (not_prefix_of_short clean short)
    · exact later
  | cons letter front ih =>
    rcases infix_cons_iff.mp occurs with begins | later
    · exact absurd (starts.trans begins) (not_prefix_of_short clean short)
    · exact ih (Nat.lt_of_succ_lt short) later

theorem intercalate_occurs (occurs : first <:+: words) (nonempty : first ≠ []) :
    [sep].intercalate first <:+: [sep].intercalate words := by
  obtain ⟨front, back, rfl⟩ := occurs
  induction front with
  | nil => exact (intercalate_begins (prefix_append first back)).isInfix
  | cons word front ih =>
    have more : front ++ first ++ back ≠ [] := by simp [nonempty]
    refine ih.trans ⟨word ++ [sep], [], ?_⟩
    rw [append_nil, cons_append, cons_append, intercalate_cons_of_ne_nil more]

variable (firstUniform : UniformWords sep width first) (uniform : UniformWords sep width words)

include firstUniform uniform

/-- A text that begins another has words that begin the other's. -/
theorem begins_of_intercalate (nonempty : words ≠ []) (begins : [sep].intercalate first <+: [sep].intercalate words) :
    first <+: words := by
  induction first generalizing words with
  | nil => exact nil_prefix
  | cons word more ih =>
    obtain ⟨start, rest, rfl⟩ := exists_cons_of_ne_nil nonempty
    have lengths : word.length = start.length := (firstUniform word mem_cons_self).1.trans
      (uniform start mem_cons_self).1.symm
    obtain rfl : word = start := (prefix_of_prefix_length_le ((word_begins_intercalate sep word more).trans begins)
      (word_begins_intercalate sep start rest) lengths.le).eq_of_length lengths
    refine (prefix_cons_inj word).mpr ?_
    cases more with
    | nil => exact nil_prefix
    | cons next more =>
      cases rest with
      | nil =>
        have short := begins.length_le
        simp only [intercalate_cons_cons, intercalate_singleton, length_append, length_singleton] at short
        omega
      | cons other rest =>
        rw [intercalate_cons_cons, intercalate_cons_cons, prefix_append_right_inj] at begins
        exact ih firstUniform.tail uniform.tail (cons_ne_nil _ _) begins

theorem intercalate_begins_iff (nonempty : words ≠ []) :
    [sep].intercalate first <+: [sep].intercalate words ↔ first <+: words :=
  ⟨begins_of_intercalate firstUniform uniform nonempty, intercalate_begins⟩

/-- A text that occurs in another has words that occur among the other's. -/
theorem occurs_of_intercalate (firstNonempty : first ≠ []) (nonempty : words ≠ [])
    (occurs : [sep].intercalate first <:+: [sep].intercalate words) : first <:+: words := by
  obtain ⟨word, more, rfl⟩ := exists_cons_of_ne_nil firstNonempty
  obtain ⟨wordWidth, clean⟩ := firstUniform word mem_cons_self
  have starts := word_begins_intercalate sep word more
  induction words with
  | nil => exact absurd rfl nonempty
  | cons start rest ih =>
    by_cases begins : [sep].intercalate (word :: more) <+: [sep].intercalate (start :: rest)
    · exact (begins_of_intercalate firstUniform uniform nonempty begins).isInfix
    have startWidth := (uniform start mem_cons_self).1
    cases rest with
    | nil =>
      -- Only the first word is left, and the text is no shorter than a word.
      rw [intercalate_singleton] at occurs begins
      have same := occurs.eq_of_length (by have := occurs.length_le; have := starts.length_le; omega)
      exact absurd (same ▸ prefix_rfl) begins
    | cons next rest =>
      refine infix_cons (ih uniform.tail (cons_ne_nil _ _) ?_)
      cases start with
      | nil => exact (infix_cons_iff.mp occurs).resolve_left begins
      | cons letter start =>
        have later := (infix_cons_iff.mp occurs).resolve_left begins
        refine infix_of_infix_append starts clean ?_ later
        rw [wordWidth, ← startWidth]
        exact Nat.lt_succ_self _

end SecurityFabric

/-! # Splitting and searching strings

The functions `Split`, `Join`, `Contains` and `LastIndex` of Go's string library, for a separator of one letter. For
strings whose parts all have one length the tests on strings are the tests on their lists of parts.
-/

namespace SecurityFabric.GoStrings

open List

variable {s t : String} {sep : Char} {width : Nat}

def split (s : String) (sep : Char) : List String := (s.toList.splitOn sep).map String.ofList

def contains (s substr : String) : Bool := decide (substr.toList <:+: s.toList)

/-- `Join`, for a separator of one letter. -/
def join (parts : List String) (sep : Char) : String := String.ofList ([sep].intercalate (parts.map String.toList))

/-- `LastIndex`, for one letter. -/
def lastIndex (sep : Char) : List Char → Option Nat
  | [] => none
  | letter :: rest => match lastIndex sep rest with
    | some index => some (index + 1)
    | none => if letter = sep then some 0 else none

variable {letters : List Char}

theorem lastIndex_eq_none : lastIndex sep letters = none ↔ sep ∉ letters := by
  induction letters with
  | nil => simp [lastIndex]
  | cons letter rest ih =>
    rw [lastIndex]
    cases later : lastIndex sep rest with
    | some index =>
      have within : sep ∈ rest := by
        by_contra absent
        rw [ih.mpr absent] at later
        cases later
      simp [within]
    | none => simp [ih.mp later, eq_comm]

theorem lastIndex_append {front back : List Char} (last : sep ∉ back) :
    lastIndex sep (front ++ sep :: back) = some front.length := by
  induction front with
  | nil => simp [lastIndex, lastIndex_eq_none.mpr last]
  | cons letter front ih => simp [lastIndex, ih]

theorem exists_of_mem_last (within : sep ∈ letters) : ∃ front back, letters = front ++ sep :: back ∧ sep ∉ back := by
  induction letters with
  | nil => cases within
  | cons letter rest ih =>
    by_cases later : sep ∈ rest
    · obtain ⟨front, back, rfl, last⟩ := ih later
      exact ⟨letter :: front, back, rfl, last⟩
    · obtain rfl : sep = letter := (mem_cons.mp within).resolve_right later
      exact ⟨[], rest, rfl, later⟩

theorem map_toList_split (s : String) (sep : Char) : (split s sep).map String.toList = s.toList.splitOn sep := by
  rw [split, map_map]
  exact (map_congr_left fun part _ => String.toList_ofList).trans (map_id _)

theorem intercalate_split (s : String) (sep : Char) :
    [sep].intercalate ((split s sep).map String.toList) = s.toList := by
  rw [map_toList_split, intercalate_splitOn]

theorem split_ne_nil (s : String) (sep : Char) : split s sep ≠ [] :=
  map_eq_nil_iff.not.mpr (splitOn_ne_nil sep s.toList)

theorem split_join {parts : List String} (clean : ∀ part ∈ parts, sep ∉ part.toList) (nonempty : parts ≠ []) :
    split (join parts sep) sep = parts := by
  have lettersClean : ∀ letters ∈ parts.map String.toList, sep ∉ letters := by
    intro letters mem
    obtain ⟨part, isPart, rfl⟩ := mem_map.mp mem
    exact clean part isPart
  rw [split, join, String.toList_ofList, splitOn_intercalate sep lettersClean
    (map_eq_nil_iff.not.mpr nonempty), map_map]
  exact (map_congr_left fun part _ => String.ofList_toList).trans (map_id parts)

/-- The separator is in no part. -/
theorem sep_notMem_of_mem_splitOn {part : List Char} (mem : part ∈ letters.splitOn sep) : sep ∉ part := by
  induction letters generalizing part with
  | nil =>
    rw [splitOn_nil, mem_singleton] at mem
    rw [mem]
    exact not_mem_nil
  | cons letter letters ih =>
    obtain ⟨first, more, parts⟩ := exists_cons_of_ne_nil (splitOn_ne_nil sep letters)
    rw [splitOn_cons_eq_if_modifyHead, parts] at mem
    rw [parts] at ih
    split_ifs at mem with separates
    · rcases mem_cons.mp mem with rfl | later
      · exact not_mem_nil
      · exact ih later
    · rcases mem_cons.mp mem with rfl | later
      · intro within
        rcases mem_cons.mp within with rfl | within
        · exact separates (beq_self_eq_true _)
        · exact ih mem_cons_self within
      · exact ih (mem_cons_of_mem _ later)

theorem uniformWords_split (lengths : ∀ part ∈ split s sep, part.length = width) :
    UniformWords sep width ((split s sep).map String.toList) := by
  intro letters mem
  obtain ⟨part, isPart, rfl⟩ := mem_map.mp mem
  rw [map_toList_split] at mem
  exact ⟨lengths part isPart, sep_notMem_of_mem_splitOn mem⟩

section Uniform

variable (sLengths : ∀ part ∈ split s sep, part.length = width) (tLengths : ∀ part ∈ split t sep, part.length = width)

include sLengths tLengths

theorem begins_iff_split : s.toList <+: t.toList ↔ split s sep <+: split t sep := by
  have nonempty : (split t sep).map String.toList ≠ [] := map_eq_nil_iff.not.mpr (split_ne_nil t sep)
  rw [← intercalate_split s sep, ← intercalate_split t sep, intercalate_begins_iff (uniformWords_split sLengths)
    (uniformWords_split tLengths) nonempty, prefix_map_iff_of_injective (fun _ _ => String.toList_inj.mp)]

theorem contains_iff_split : contains t s = true ↔ split s sep <:+: split t sep := by
  have nonempty (u : String) : (split u sep).map String.toList ≠ [] := map_eq_nil_iff.not.mpr (split_ne_nil u sep)
  rw [contains, decide_eq_true_iff, ← intercalate_split s sep, ← intercalate_split t sep,
    show _ <:+: [sep].intercalate _ ↔ _ from ⟨occurs_of_intercalate (uniformWords_split sLengths)
    (uniformWords_split tLengths) (nonempty s) (nonempty t),
      fun occurs => intercalate_occurs occurs (nonempty s)⟩]
  refine ⟨fun occurs => ?_, fun occurs => occurs.map String.toList⟩
  have readBack : String.ofList ∘ String.toList = id := funext fun _ => String.ofList_toList
  simpa only [map_map, readBack, map_id] using occurs.map String.ofList

end Uniform

end SecurityFabric.GoStrings
