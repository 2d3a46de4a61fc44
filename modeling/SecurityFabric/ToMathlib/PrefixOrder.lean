import Mathlib.Data.List.Pairwise
import SecurityFabric.ToMathlib.SqlWhere

/-! # Orders that leave ties open

A query that orders its rows by some columns may return rows that these do not tell apart in any order. `OrderBy` is one
way to do so. What is proved for all of them does not depend on the choice.
-/

namespace SecurityFabric

open List

/-- A way to put lists in an order. -/
structure OrderBy {α : Type} (le : α → α → Prop) where
  list : List α → List α
  perm : ∀ xs, (list xs).Perm xs
  sorted : ∀ xs, (list xs).Pairwise le

namespace OrderBy

variable {α : Type} {le : α → α → Prop} (order : OrderBy le)

@[simp] theorem mem_list {xs : List α} {x : α} : x ∈ order.list xs ↔ x ∈ xs := (order.perm xs).mem_iff

/-- One way to do so. -/
def insertion (le : α → α → Prop) [DecidableRel le] [Std.Total le] [IsTrans α le] : OrderBy le :=
  ⟨insertionSort le, perm_insertionSort le, pairwise_insertionSort le⟩

end OrderBy

/-- What a loop sees that stops at the first element of a kind. In an order that puts the elements of that kind last
among their equals, these are the ones with no such element strictly before them. -/
theorem mem_takeWhile_of_sorted {α : Type} {le strict : α → α → Prop} {keep : α → Bool}
    (before : ∀ {x y}, le y x → keep y = false → keep x = true → strict y x) (notAfter : ∀ {x y}, le x y → ¬ strict y x)
    {xs : List α} (sorted : xs.Pairwise le) {x : α} :
    x ∈ xs.takeWhile keep ↔ x ∈ xs ∧ keep x = true ∧ ∀ y ∈ xs, keep y = false → ¬ strict y x := by
  induction xs with
  | nil => simp
  | cons first rest ih =>
    obtain ⟨smallest, later⟩ := pairwise_cons.mp sorted
    cases kept : keep first with
    | false =>
      rw [takeWhile_cons_of_neg (by simp [kept])]
      refine iff_of_false not_mem_nil ?_
      rintro ⟨mem, keeps, none⟩
      rcases mem_cons.mp mem with rfl | mem
      · rw [kept] at keeps
        cases keeps
      · exact none first mem_cons_self kept (before (smallest x mem) kept keeps)
    | true =>
      rw [takeWhile_cons_of_pos kept, mem_cons, mem_cons, ih later]
      constructor
      · rintro (rfl | ⟨mem, keeps, none⟩)
        · refine ⟨.inl rfl, kept, fun y isY dropped => ?_⟩
          rcases mem_cons.mp isY with rfl | isY
          · rw [kept] at dropped
            cases dropped
          · exact notAfter (smallest y isY)
        · refine ⟨.inr mem, keeps, fun y isY dropped => ?_⟩
          rcases mem_cons.mp isY with rfl | isY
          · rw [kept] at dropped
            cases dropped
          · exact none y isY dropped
      · rintro ⟨rfl | mem, keeps, none⟩
        · exact .inl rfl
        · exact .inr ⟨mem, keeps, (forall_mem_cons.mp none).2⟩

/-! # Dropping what begins alike

In the order of texts, those that begin with a given one come right after it. So one pass that remembers the last text
it kept, and drops what that covers, keeps just the texts that no other covers. The pass is stated for any order and
relation that fit together so.
-/

section Pass

variable {α : Type} (covers : α → α → Bool)

/-- The rest of the pass, after an element that was kept. -/
def dropCovered : α → List α → List α
  | _, [] => []
  | last, cur :: rest => if covers last cur then dropCovered last rest else cur :: dropCovered cur rest

/-- What no other element covers. -/
def keepUncovered : List α → List α
  | [] => []
  | first :: rest => first :: dropCovered covers first rest

variable {covers} {le : α → α → Prop}

theorem dropCovered_sublist (last : α) (xs : List α) : (dropCovered covers last xs).Sublist xs := by
  induction xs generalizing last with
  | nil => exact .slnil
  | cons cur rest ih =>
    rw [dropCovered]
    split_ifs
    · exact (ih last).cons cur
    · exact (ih cur).cons_cons cur

variable {xs : List α}

theorem covered_or_kept (refl : ∀ x, covers x x = true) {last : α} :
    ∀ x ∈ xs, covers last x = true ∨ ∃ kept ∈ dropCovered covers last xs, covers kept x = true := by
  induction xs generalizing last with
  | nil => simp
  | cons cur rest ih =>
    rw [dropCovered]
    split_ifs with covered
    · exact forall_mem_cons.mpr ⟨.inl covered, ih⟩
    · refine forall_mem_cons.mpr ⟨.inr ⟨cur, mem_cons_self, refl cur⟩, fun x mem => .inr ?_⟩
      rcases ih x mem with byCur | ⟨kept, isKept, byKept⟩
      · exact ⟨cur, mem_cons_self, byCur⟩
      · exact ⟨kept, mem_cons_of_mem _ isKept, byKept⟩

/-- What is kept is covered neither by the last element before nor by another one that is kept. -/
theorem pairwise_dropCovered (between : ∀ x y z, covers x z = true → le x y → le y z → covers x y = true) {last : α}
    (first : ∀ x ∈ xs, le last x) (sorted : xs.Pairwise le) :
    (last :: dropCovered covers last xs).Pairwise fun x y => covers x y = false := by
  induction xs generalizing last with
  | nil => exact pairwise_singleton _ _
  | cons cur rest ih =>
    obtain ⟨firstRest, sortedRest⟩ := pairwise_cons.mp sorted
    obtain ⟨lastCur, lastRest⟩ := forall_mem_cons.mp first
    rw [dropCovered]
    split_ifs with covered
    · exact ih lastRest sortedRest
    · refine pairwise_cons.mpr ⟨forall_mem_cons.mpr ⟨(Bool.not_eq_true _).mp covered, fun kept isKept => ?_⟩,
        ih firstRest sortedRest⟩
      by_contra byLast
      exact covered (between _ _ _ ((Bool.not_eq_false _).mp byLast) lastCur
        (firstRest kept ((dropCovered_sublist cur rest).subset isKept)))

theorem keepUncovered_sublist (xs : List α) : (keepUncovered covers xs).Sublist xs := by
  cases xs with
  | nil => exact .slnil
  | cons first rest => exact (dropCovered_sublist first rest).cons_cons first

theorem exists_kept (refl : ∀ x, covers x x = true) :
    ∀ x ∈ xs, ∃ kept ∈ keepUncovered covers xs, covers kept x = true := by
  cases xs with
  | nil => simp
  | cons first rest =>
    refine forall_mem_cons.mpr ⟨⟨first, mem_cons_self, refl first⟩, fun x mem => ?_⟩
    rcases covered_or_kept refl x mem with byFirst | ⟨kept, isKept, byKept⟩
    · exact ⟨first, mem_cons_self, byFirst⟩
    · exact ⟨kept, mem_cons_of_mem _ isKept, byKept⟩

/-- No two elements that are kept cover each other. -/
theorem not_covers_of_kept (between : ∀ x y z, covers x z = true → le x y → le y z → covers x y = true)
    (le_of_covers : ∀ x y, covers x y = true → le x y) (antisymm : ∀ x y, le x y → le y x → x = y) {xs : List α}
    (sorted : xs.Pairwise le) :
    ∀ x ∈ keepUncovered covers xs, ∀ y ∈ keepUncovered covers xs, x ≠ y → covers x y = false := by
  have kept : (keepUncovered covers xs).Pairwise fun x y => covers x y = false := by
    cases xs with
    | nil => exact .nil
    | cons first rest =>
      obtain ⟨smallest, later⟩ := pairwise_cons.mp sorted
      exact pairwise_dropCovered between smallest later
  have both : (keepUncovered covers xs).Pairwise fun x y => x ≠ y → covers x y = false ∧ covers y x = false := by
    refine (kept.and (sorted.sublist (keepUncovered_sublist xs))).imp fun ⟨notCovered, before⟩ distinct =>
      ⟨notCovered, ?_⟩
    by_contra covered
    exact distinct (antisymm _ _ before (le_of_covers _ _ ((Bool.not_eq_false _).mp covered)))
  have symmetric : Std.Symm fun x y => x ≠ y → covers x y = false ∧ covers y x = false :=
    ⟨fun _ _ neither distinct => (neither distinct.symm).symm⟩
  exact fun x isX y isY distinct => (both.forall isX isY distinct distinct).1

end Pass

namespace SqlText

variable {first second : List Char}

theorem textLe_cons {letter other : Char} : textLe (letter :: first) (other :: second) = true ↔
    letter.toNat < other.toNat ∨ letter.toNat = other.toNat ∧ textLe first second = true := by
  simp [textLe]

/-- The comparison is the lexicographic order of lists. -/
theorem textLe_iff_le : textLe first second = true ↔ first.le second := by
  induction first generalizing second with
  | nil => exact iff_of_true rfl (nil_le second)
  | cons letter first ih =>
    cases second with
    | nil => exact iff_of_false nofun fun before => cons_ne_nil _ _ (le_nil.mp before)
    | cons other second =>
      rw [textLe_cons, ih, Char.toNat_inj]
      exact (cons_le_cons_iff (a := letter)).symm

theorem textLe_total (first second : List Char) : textLe first second = true ∨ textLe second first = true := by
  rw [textLe_iff_le, textLe_iff_le]
  exact List.le_total first second

variable {third : List Char}

theorem textLe_trans (before : textLe first second = true) (before' : textLe second third = true) :
    textLe first third = true := by
  rw [textLe_iff_le] at before before' ⊢
  exact List.le_trans before before'

theorem textLe_antisymm (before : textLe first second = true) (after : textLe second first = true) :
    first = second := by
  rw [textLe_iff_le] at before after
  exact (List.le_iff_lt_or_eq.mp before).resolve_left after

theorem textLe_of_prefix (begins : first <+: second) : textLe first second = true := textLe_iff_le.mpr begins.le

theorem isPrefix_of_between (begins : first <+: third) (before : textLe first second = true)
    (before' : textLe second third = true) : first <+: second := by
  induction first generalizing second third with
  | nil => exact nil_prefix
  | cons letter first ih =>
    obtain ⟨rest, rfl⟩ := begins
    cases second with
    | nil => cases before
    | cons other second =>
      rw [textLe_cons] at before
      rw [cons_append, textLe_cons] at before'
      have same : letter = other := Char.toNat_inj.mp (by omega)
      subst same
      have later := (or_iff_right (lt_irrefl _)).mp before
      have later' := (or_iff_right (lt_irrefl _)).mp before'
      exact (prefix_cons_inj _).mpr (ih (prefix_append first rest) later.2 later'.2)

end SqlText

/-- Texts made of pieces of one length begin alike if their pieces do. -/
theorem flatMap_prefix_iff {α β : Type} {piece : α → List β} {length : Nat} (fixed : ∀ x, (piece x).length = length + 1)
    (injective : Function.Injective piece) {xs ys : List α} : xs.flatMap piece <+: ys.flatMap piece ↔ xs <+: ys := by
  induction xs generalizing ys with
  | nil => simp
  | cons x xs ih =>
    cases ys with
    | nil =>
      refine iff_of_false (fun begins => ?_) fun begins => by simp at begins
      have := begins.length_le
      rw [flatMap_cons, length_append, fixed, flatMap_nil, length_nil] at this
      omega
    | cons y ys =>
      rw [flatMap_cons, cons_prefix_cons, ← ih]
      constructor
      · rintro ⟨rest, same⟩
        rw [append_assoc] at same
        obtain ⟨here, later⟩ := append_inj same ((fixed x).trans (fixed y).symm)
        exact ⟨injective here, rest, later⟩
      · rintro ⟨rfl, begins⟩
        exact (prefix_append_right_inj _).mpr begins

end SecurityFabric
