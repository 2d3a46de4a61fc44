import SecurityFabric.ToMathlib.GoStrings
import Mathlib.Algebra.Group.Nat.Even
import Mathlib.Algebra.GroupWithZero.Nat

/-! # Replacing the first occurrence of a text

`Replace` of Go's string library with a count of one, by which templates are filled: a mark in a bracket is replaced by
a text. Two occurrences of a mark do not overlap. If it occurs in the text before its place, that part is changed and
the place is left as it is.
-/

namespace SecurityFabric

open List

variable {α : Type} [DecidableEq α] {old new front back text : List α}
variable {mark : List α} {separator : α}

def replaceFirst (old new : List α) : List α → List α
  | [] => if old = [] then new else []
  | letter :: rest =>
    if old <+: letter :: rest then new ++ (letter :: rest).drop old.length else letter :: replaceFirst old new rest

theorem exists_of_replaceFirst (new : List α) (occurs : old <:+: text) :
    ∃ front back, text = front ++ old ++ back ∧ replaceFirst old new text = front ++ new ++ back := by
  induction text with
  | nil =>
    obtain rfl := infix_nil.mp occurs
    exact ⟨[], [], rfl, by simp [replaceFirst]⟩
  | cons letter rest ih =>
    rw [replaceFirst]
    split_ifs with here
    · obtain ⟨back, same⟩ := here
      refine ⟨[], back, same.symm, ?_⟩
      rw [← same, drop_left, nil_append]
    · obtain ⟨front, back, rfl, replaced⟩ := ih ((infix_cons_iff.mp occurs).resolve_left here)
      exact ⟨letter :: front, back, rfl, by rw [replaced]; rfl⟩

section Bracketed

variable {bracket : α} {rest : List α} (alone : bracket ∉ rest)

include alone

omit [DecidableEq α] in
/-- An occurrence across the border of two parts would begin with the bracket and have it again in what follows. -/
theorem begins_of_begins_append {letter : α} (begins : bracket :: rest <+: letter :: (front ++ back))
    (bracketFollows : bracket ∈ front ∨ ∃ more, back = bracket :: more) : bracket :: rest <+: letter :: front := by
  obtain ⟨rfl, continues⟩ := cons_prefix_cons.mp begins
  refine cons_prefix_cons.mpr ⟨rfl, ?_⟩
  rcases prefix_or_prefix_of_prefix continues (prefix_append front back) with within | longer
  · exact within
  · obtain ⟨remaining, rfl⟩ := longer
    rcases bracketFollows with inFront | ⟨more, rfl⟩
    · exact absurd (mem_append_left remaining inFront) alone
    · have onwards := (prefix_append_right_inj front).mp continues
      cases remaining with
      | nil => rw [append_nil]
      | cons letter remaining =>
        obtain ⟨rfl, -⟩ := cons_prefix_cons.mp onwards
        exact absurd (mem_append_right front mem_cons_self) alone

theorem replaceFirst_of_absent (absent : ¬ bracket :: rest <:+: front) :
    replaceFirst (bracket :: rest) new (front ++ (bracket :: rest ++ back)) = front ++ (new ++ back) := by
  induction front with
  | nil =>
    have here : bracket :: rest <+: bracket :: (rest ++ back) := prefix_append (bracket :: rest) back
    rw [nil_append, cons_append, replaceFirst, if_pos here, ← cons_append, drop_left, nil_append]
  | cons letter front ih =>
    have notHere : ¬ bracket :: rest <+: letter :: (front ++ (bracket :: rest ++ back)) := fun begins =>
      absent (begins_of_begins_append alone begins (.inr ⟨rest ++ back, rfl⟩)).isInfix
    rw [cons_append, replaceFirst, if_neg notHere, ih fun later => absent (infix_cons later)]
    rfl

/-- The mark occurs before its place. -/
theorem replaceFirst_of_occurs (occurs : bracket :: rest <:+: front) :
    replaceFirst (bracket :: rest) new (front ++ back) = replaceFirst (bracket :: rest) new front ++ back := by
  induction front with
  | nil => cases infix_nil.mp occurs
  | cons letter front ih =>
    rw [cons_append, replaceFirst, replaceFirst]
    by_cases here : bracket :: rest <+: letter :: front
    · have longer : bracket :: rest <+: letter :: (front ++ back) := here.trans (prefix_append (letter :: front) back)
      rw [if_pos here, if_pos longer, ← cons_append, drop_append_of_le_length here.length_le, append_assoc]
    · have later := (infix_cons_iff.mp occurs).resolve_left here
      have inFront : bracket ∈ front := later.subset mem_cons_self
      rw [if_neg here, if_neg fun begins => here (begins_of_begins_append alone begins (.inl inFront)), ih later]
      rfl

end Bracketed

omit [DecidableEq α] in
/-- A text without a letter that separates two parts occurs in one of them. -/
theorem occurs_of_occurs_append (without : separator ∉ old) (occurs : old <:+: front ++ separator :: back) :
    old <:+: front ∨ old <:+: back := by
  induction front with
  | nil =>
    rcases infix_cons_iff.mp occurs with begins | later
    · cases old with
      | nil => exact .inl nil_infix
      | cons letter old =>
        obtain ⟨rfl, -⟩ := cons_prefix_cons.mp begins
        exact absurd mem_cons_self without
    · exact .inr later
  | cons letter front ih =>
    rcases infix_cons_iff.mp occurs with begins | later
    · rcases prefix_or_prefix_of_prefix begins (prefix_append (letter :: front) (separator :: back)) with
        within | longer
      · exact .inl within.isInfix
      · obtain ⟨remaining, rfl⟩ := longer
        have onwards := (prefix_append_right_inj (letter :: front)).mp begins
        cases remaining with
        | nil => exact .inl (by simp)
        | cons first remaining =>
          obtain ⟨rfl, -⟩ := cons_prefix_cons.mp onwards
          exact absurd (mem_append_right (letter :: front) mem_cons_self) without
    · rcases ih later with inFront | inBack
      · exact .inl (infix_cons inFront)
      · exact .inr inBack

variable {between : List α} {parts : List (List α)}

omit [DecidableEq α] in
/-- The same for parts that are joined. -/
theorem occurs_of_occurs_intercalate (without : separator ∉ old) (filled : old ≠ []) (absent : ¬ old <:+: between)
    (occurs : old <:+: (separator :: (between ++ [separator])).intercalate parts) : ∃ part ∈ parts, old <:+: part := by
  induction parts with
  | nil => exact absurd (infix_nil.mp (by simpa using occurs)) filled
  | cons part parts ih =>
    cases parts with
    | nil => exact ⟨part, mem_cons_self, by simpa using occurs⟩
    | cons next parts =>
      have cut : old <:+: part ++ separator :: (between ++ separator ::
          (separator :: (between ++ [separator])).intercalate (next :: parts)) := by simpa using occurs
      rcases occurs_of_occurs_append without cut with inPart | later
      · exact ⟨part, mem_cons_self, inPart⟩
      · obtain ⟨other, mem, within⟩ := ih ((occurs_of_occurs_append without later).resolve_left absent)
        exact ⟨other, mem_cons_of_mem _ mem, within⟩

omit [DecidableEq α] in
theorem infix_intercalate {part : List α} (mem : part ∈ parts) : part <:+: between.intercalate parts := by
  induction parts with
  | nil => cases mem
  | cons first parts ih =>
    cases parts with
    | nil =>
      rw [mem_singleton.mp mem, intercalate_singleton]
    | cons next parts =>
      rcases mem_cons.mp mem with rfl | mem
      · exact (prefix_append _ _).isInfix
      · exact (ih mem).trans ((suffix_append _ _).trans (suffix_append _ _)).isInfix

/-- A text in brackets, with no bracket in it. -/
def IsMark (opening closing : α) (mark : List α) : Prop :=
  opening ≠ closing ∧ ∃ inner, mark = opening :: (inner ++ [closing]) ∧ opening ∉ inner ∧ closing ∉ inner

/-- A place of a template: its mark, what it is replaced by, and what comes behind it in the template. -/
structure Slot (α : Type) where
  mark : List α
  /-- What is put there, which may depend on the text so far. -/
  text : List α → List α
  tail : List α

/-- The places that are still to be filled. -/
def template : List (Slot α) → List α
  | [] => []
  | slot :: more => slot.mark ++ (slot.tail ++ template more)

def fill (slots : List (Slot α)) (text : List α) : List α :=
  slots.foldl (fun text slot => replaceFirst slot.mark (slot.text text) text) text

/-- The text with every place filled where it is. -/
def inPlace : List α → List (Slot α) → List α
  | front, [] => front
  | front, slot :: more => inPlace (front ++ (slot.text (front ++ template (slot :: more)) ++ slot.tail)) more

/-- No mark occurs before its place. -/
def Unmarked : List α → List (Slot α) → Prop
  | _, [] => True
  | front, slot :: more =>
    ¬ slot.mark <:+: front ∧ Unmarked (front ++ (slot.text (front ++ template (slot :: more)) ++ slot.tail)) more

section Template

variable {opening closing : α} {slots : List (Slot α)}

namespace IsMark

variable (isMark : IsMark opening closing mark)

include isMark

omit [DecidableEq α] in
theorem alone : ∃ rest, mark = opening :: rest ∧ opening ∉ rest := by
  obtain ⟨apart, inner, rfl, noOpening, -⟩ := isMark
  exact ⟨inner ++ [closing], rfl, by simpa [apart] using noOpening⟩

theorem replaceFirst_of_absent (absent : ¬ mark <:+: front) (new : List α) :
    replaceFirst mark new (front ++ (mark ++ back)) = front ++ (new ++ back) := by
  obtain ⟨rest, rfl, alone⟩ := isMark.alone
  exact SecurityFabric.replaceFirst_of_absent alone absent

theorem replaceFirst_of_occurs (occurs : mark <:+: front) (new : List α) :
    replaceFirst mark new (front ++ back) = replaceFirst mark new front ++ back := by
  obtain ⟨rest, rfl, alone⟩ := isMark.alone
  exact SecurityFabric.replaceFirst_of_occurs alone occurs

variable {other : List α} (isOther : IsMark opening closing other)

include isOther

omit [DecidableEq α] in
/-- Marks that begin at the same place are the same. -/
theorem eq_of_append_eq (same : mark ++ front = other ++ back) : mark = other := by
  obtain ⟨-, inner, rfl, -, notInner⟩ := isMark
  obtain ⟨-, inner', rfl, -, notInner'⟩ := isOther
  have within : inner ++ closing :: front = inner' ++ closing :: back := by simpa using same
  clear same
  have equal : inner = inner' := by
    induction inner generalizing inner' with
    | nil =>
      cases inner' with
      | nil => rfl
      | cons letter inner' =>
        obtain ⟨rfl, -⟩ := List.cons.inj within
        exact absurd mem_cons_self notInner'
    | cons letter inner ih =>
      cases inner' with
      | nil =>
        obtain ⟨rfl, -⟩ := List.cons.inj within
        exact absurd mem_cons_self notInner
      | cons letter' inner' =>
        obtain ⟨rfl, later⟩ := List.cons.inj within
        rw [ih (fun mem => notInner (mem_cons_of_mem _ mem)) inner' (fun mem =>
          notInner' (mem_cons_of_mem _ mem)) later]
  rw [equal]

omit [DecidableEq α] in
/-- Two marks do not overlap. -/
theorem apart (differ : other ≠ mark) (same : mark ++ front = between ++ (other ++ back)) :
    ∃ gap, between = mark ++ gap ∧ front = gap ++ (other ++ back) := by
  rcases append_eq_append_iff.mp same with ⟨gap, rfl, later⟩ | ⟨gap, cut, later⟩
  · exact ⟨gap, rfl, later⟩
  · obtain ⟨rest, rfl, alone⟩ := isMark.alone
    obtain ⟨rest', rfl, -⟩ := isOther.alone
    cases gap with
    | nil => exact ⟨[], by simpa using cut.symm, by simpa using later.symm⟩
    | cons letter gap =>
      obtain ⟨rfl, -⟩ := List.cons.inj later
      cases between with
      | nil => exact absurd (isMark.eq_of_append_eq isOther (by simpa using same)).symm differ
      | cons first between =>
        obtain ⟨-, inRest⟩ := List.cons.inj cut
        exact absurd (inRest ▸ mem_append_right between mem_cons_self) alone

/-- A mark stays where another one is replaced. -/
theorem stays_of_replaceFirst (differ : other ≠ mark) (occurs : other <:+: front ++ (mark ++ back)) (new : List α) :
    ∃ front' back', replaceFirst other new (front ++ (mark ++ back)) = front' ++ (mark ++ back') ∧
      (back' = back ∨ ∃ first second, back = first ++ (other ++ second) ∧ back' = first ++ (new ++ second)) := by
  obtain ⟨before, behind, cut, replaced⟩ := exists_of_replaceFirst new occurs
  rw [replaced]
  rw [append_assoc] at cut
  rcases append_eq_append_iff.mp cut with ⟨between, rfl, later⟩ | ⟨between, rfl, later⟩
  · obtain ⟨gap, rfl, rfl⟩ := isMark.apart isOther differ later
    exact ⟨front, gap ++ (new ++ behind), by simp, .inr ⟨gap, behind, rfl, rfl⟩⟩
  · obtain ⟨gap, rfl, rfl⟩ := isOther.apart isMark differ.symm later
    exact ⟨before ++ (new ++ gap), back, by simp, .inl rfl⟩

end IsMark

theorem fill_cons (slot : Slot α) (more : List (Slot α)) (text : List α) :
    fill (slot :: more) text = fill more (replaceFirst slot.mark (slot.text text) text) := rfl

omit [DecidableEq α] in
theorem template_cons (slot : Slot α) (more : List (Slot α)) :
    template (slot :: more) = slot.mark ++ (slot.tail ++ template more) := rfl

omit [DecidableEq α] in
theorem notMem_template {letter : α} (unmarked : ∀ slot ∈ slots, letter ∉ slot.mark ∧ letter ∉ slot.tail) :
    letter ∉ template slots := by
  induction slots with
  | nil => simp [template]
  | cons slot more ih =>
    obtain ⟨notMark, notTail⟩ := unmarked slot mem_cons_self
    have later := ih (forall_mem_cons.mp unmarked).2
    simp [template, notMark, notTail, later]

variable (areMarks : ∀ slot ∈ slots, IsMark opening closing slot.mark)

include areMarks

theorem fill_of_unmarked (unmarked : Unmarked front slots) :
    fill slots (front ++ template slots) = inPlace front slots := by
  induction slots generalizing front with
  | nil => exact append_nil front
  | cons slot more ih =>
    obtain ⟨absent, later⟩ := unmarked
    rw [inPlace, ← ih (forall_mem_cons.mp areMarks).2 later, fill_cons]
    rw [template_cons, (areMarks slot mem_cons_self).replaceFirst_of_absent absent, append_assoc, append_assoc]

/-- Letters that are in no mark are counted as they are filled in. -/
theorem countP_fill {isCounted : α → Bool}
    (unmarked : ∀ slot ∈ slots, slot.mark.countP isCounted = 0 ∧ slot.tail.countP isCounted = 0)
    (fixed : ∀ slot ∈ slots, ∀ text, (slot.text text).countP isCounted = (slot.text []).countP isCounted) :
    (fill slots (front ++ template slots)).countP isCounted =
      front.countP isCounted + (slots.map fun slot => (slot.text []).countP isCounted).sum := by
  induction slots generalizing front with
  | nil => simp [fill, template]
  | cons slot more ih =>
    obtain ⟨noneInMark, noneInTail⟩ := unmarked slot mem_cons_self
    have later (front : List α) := @ih front (forall_mem_cons.mp areMarks).2 (forall_mem_cons.mp unmarked).2
      (forall_mem_cons.mp fixed).2
    have isMark := areMarks slot mem_cons_self
    have size := fixed slot mem_cons_self (front ++ template (slot :: more))
    rw [fill_cons, map_cons, sum_cons]
    generalize slot.text (front ++ template (slot :: more)) = new at size
    by_cases occurs : slot.mark <:+: front
    · obtain ⟨before, behind, cut, replaced⟩ := exists_of_replaceFirst new occurs
      have regrouped : before ++ new ++ behind ++ (slot.mark ++ (slot.tail ++ template more)) =
          before ++ new ++ behind ++ slot.mark ++ slot.tail ++ template more := by simp
      rw [isMark.replaceFirst_of_occurs occurs, replaced, template_cons, regrouped, later, cut]
      simp only [countP_append]
      omega
    · have regrouped : front ++ (new ++ (slot.tail ++ template more)) = front ++ new ++ slot.tail ++
        template more := by simp
      rw [template_cons, isMark.replaceFirst_of_absent occurs, regrouped, later]
      simp only [countP_append]
      omega

section Behind

variable {good : List α → Prop} (joined : ∀ {first second : List α}, good first → good second → good (first ++ second))
  (exchanged : ∀ slot ∈ slots, ∀ {first second new : List α},
    good (first ++ (slot.mark ++ second)) → good new → good (first ++ (new ++ second)))
  (unmarked : ∀ slot ∈ slots, good slot.mark ∧ good slot.tail)
    (goodTexts : ∀ slot ∈ slots, ∀ text, good (slot.text text))

include joined exchanged unmarked goodTexts

/-- A mark that is not one of those to be replaced stays, and the text behind it stays a good one. -/
theorem stays_of_fill (isMark : IsMark opening closing mark) (differs : ∀ slot ∈ slots, slot.mark ≠ mark)
    (isGood : good back) :
    ∃ front' back', fill slots (front ++ (mark ++ back) ++ template slots) = front' ++
      (mark ++ back') ∧ good back' := by
  induction slots generalizing front back with
  | nil => exact ⟨front, back, append_nil _, isGood⟩
  | cons slot more ih =>
    obtain ⟨goodMark, goodTail⟩ := unmarked slot mem_cons_self
    have later {front back : List α} := @ih front back (forall_mem_cons.mp areMarks).2 (forall_mem_cons.mp exchanged).2
      (forall_mem_cons.mp unmarked).2
      (forall_mem_cons.mp goodTexts).2
      (forall_mem_cons.mp differs).2
    have isOther := areMarks slot mem_cons_self
    have goodNew := goodTexts slot mem_cons_self (front ++ (mark ++ back) ++ template (slot :: more))
    rw [fill_cons]
    generalize slot.text (front ++ (mark ++ back) ++ template (slot :: more)) = new at goodNew
    by_cases occurs : slot.mark <:+: front ++ (mark ++ back)
    · obtain ⟨front', back', replaced, kept⟩ := isMark.stays_of_replaceFirst isOther
        (differs slot mem_cons_self) occurs new
      have goodKept : good back' := by
        rcases kept with rfl | ⟨first, second, rfl, rfl⟩
        · exact isGood
        · exact exchanged slot mem_cons_self isGood goodNew
      have regrouped : front' ++ (mark ++ back') ++ (slot.mark ++ (slot.tail ++ template more)) =
          front' ++ (mark ++ (back' ++ slot.mark ++ slot.tail)) ++ template more := by simp
      rw [isOther.replaceFirst_of_occurs occurs, replaced, template_cons, regrouped]
      exact later (joined (joined goodKept goodMark) goodTail)
    · have regrouped : front ++ (mark ++ back) ++ (new ++ (slot.tail ++ template more)) =
          front ++ (mark ++ (back ++ new ++ slot.tail)) ++ template more := by simp
      rw [template_cons, isOther.replaceFirst_of_absent occurs, regrouped]
      exact later (joined (joined isGood goodNew) goodTail)

/-- If a mark occurs before its place, a mark stays in the text, with a good text behind it. -/
theorem exists_mark_of_not_unmarked (distinct : (slots.map Slot.mark).Nodup) (marked : ¬ Unmarked front slots) :
    ∃ slot ∈ slots, ∃ front' back', fill slots (front ++ template slots) = front' ++
      (slot.mark ++ back') ∧ good back' := by
  induction slots generalizing front with
  | nil => exact absurd trivial marked
  | cons slot more ih =>
    have moreMarks : ∀ other ∈ more, IsMark opening closing other.mark := fun other mem =>
      areMarks other (mem_cons_of_mem _ mem)
    have moreExchanged : ∀ other ∈ more, ∀ {first second new : List α},
        good (first ++ (other.mark ++ second)) → good new → good (first ++ (new ++ second)) := fun other mem =>
      exchanged other (mem_cons_of_mem _ mem)
    have moreUnmarked : ∀ other ∈ more, good other.mark ∧ good other.tail := fun other mem =>
      unmarked other (mem_cons_of_mem _ mem)
    have moreTexts : ∀ other ∈ more, ∀ text, good (other.text text) := fun other mem =>
      goodTexts other (mem_cons_of_mem _ mem)
    obtain ⟨isNew, distinctMore⟩ := nodup_cons.mp distinct
    have isMark := areMarks slot mem_cons_self
    rw [fill_cons]
    by_cases occurs : slot.mark <:+: front
    · generalize slot.text (front ++ template (slot :: more)) = new
      have regrouped : replaceFirst slot.mark new front ++ (slot.mark ++ (slot.tail ++ template more)) =
          replaceFirst slot.mark new front ++ (slot.mark ++ slot.tail) ++ template more := by simp
      have differs : ∀ other ∈ more, other.mark ≠ slot.mark := fun other mem same =>
        isNew (same ▸ mem_map_of_mem mem)
      rw [template_cons, isMark.replaceFirst_of_occurs occurs, regrouped]
      exact ⟨slot, mem_cons_self,
        stays_of_fill moreMarks joined moreExchanged moreUnmarked moreTexts isMark differs
        (unmarked slot mem_cons_self).2⟩
    · have markedLater := fun laterUnmarked => marked ⟨occurs, laterUnmarked⟩
      obtain ⟨other, mem, front', back', filled, isGood⟩ :=
        ih moreMarks moreExchanged moreUnmarked moreTexts distinctMore markedLater
      refine ⟨other, mem_cons_of_mem _ mem, front', back', ?_, isGood⟩
      rw [← filled]
      rw [template_cons, isMark.replaceFirst_of_absent occurs, append_assoc, append_assoc]

end Behind

end Template

end SecurityFabric
