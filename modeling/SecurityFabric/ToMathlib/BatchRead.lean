import Mathlib.Data.List.Nodup
import Mathlib.Data.List.Perm.Subperm

/-! # Pages of a list

A page is what is left of a list after an offset, up to a limit. A loop that appends to a page while it
walks over the list builds it, and the pages at the multiples of their limit are the list.
-/

namespace SecurityFabric

open List

variable {α : Type}
variable (xs : List α) (offset limit : Nat)

def page : List α := (xs.drop offset).take limit

@[simp] theorem page_nil : page ([] : List α) offset limit = [] := by simp [page]

theorem mem_of_mem_page {xs : List α} {offset limit : Nat} {x : α} (onPage : x ∈ page xs offset limit) : x ∈ xs :=
  mem_of_mem_drop (mem_of_mem_take onPage)

/-- A further element is on the page if the list has reached the offset and the page has room. -/
theorem page_concat (x : α) (offset limit : Nat) :
    page (xs ++ [x]) offset limit = if offset ≤ xs.length ∧
    (page xs offset limit).length < limit then page xs offset limit ++ [x]
      else page xs offset limit := by
  rw [show (page xs offset limit).length = _ from length_take, length_drop]
  split_ifs with added
  · obtain ⟨reached, room⟩ := added
    have short : (xs.drop offset).length ≤ limit := by
      rw [length_drop]
      omega
    have shorter : (xs.drop offset ++ [x]).length ≤ limit := by
      rw [length_append, length_singleton, length_drop]
      omega
    rw [page, page, drop_append_of_le_length reached, take_of_length_le shorter, take_of_length_le short]
  · by_cases reached : offset ≤ xs.length
    · have full : limit ≤ (xs.drop offset).length := by
        rw [length_drop]
        omega
      rw [page, page, drop_append_of_le_length reached, take_append_of_le_length full]
    · have nothing : (xs ++ [x]).length ≤ offset := by
        rw [length_append, length_singleton]
        omega
      rw [page, page, drop_of_length_le nothing, drop_of_length_le (by omega)]

theorem flatMap_page (limit count : Nat) :
    (List.range count).flatMap (fun k => page xs (k * limit) limit) = xs.take (count * limit) := by
  induction count with
  | zero => simp
  | succ count ih =>
    rw [range_succ, flatMap_append, ih, flatMap_singleton, Nat.succ_mul, page, take_add]

theorem flatMap_page_of_le {xs : List α} {limit count : Nat} (positive : 0 < limit) (enough : xs.length ≤ count) :
    (List.range count).flatMap (fun k => page xs (k * limit) limit) = xs := by
  rw [flatMap_page]
  exact take_of_length_le (Nat.le_trans enough (Nat.le_mul_of_pos_right count positive))

theorem mem_iff_mem_page {limit : Nat} (positive : 0 < limit) (xs : List α) (x : α) :
    x ∈ xs ↔ ∃ k, x ∈ page xs (k * limit) limit := by
  constructor
  · intro mem
    rw [← flatMap_page_of_le positive (Nat.le_refl xs.length)] at mem
    obtain ⟨k, _, onPage⟩ := mem_flatMap.mp mem
    exact ⟨k, onPage⟩
  · rintro ⟨k, onPage⟩
    exact mem_of_mem_page onPage

/-! # Reading a list in batches behind a cursor

A list is read in batches of a fixed size. After a full batch the rest is asked for again, but only what the cursor left
by the last element of the batch still admits. A batch that is not full is the last one. A batch may also break off
without notice. Nothing is missed exactly if the list is `Whole`: no batch breaks off, and the last element of every
full batch admits all elements behind it.
-/

variable {α : Type} (keep : α → α → Bool) (n : Nat) (cut : Nat → Option Nat)

/-- What arrives of a batch that may break off. -/
def delivered (cut : Option Nat) (batch : List α) : List α := cut.elim batch batch.take

theorem delivered_begins (cut : Option Nat) (batch : List α) : delivered cut batch <+: batch := by
  cases cut with
  | none => exact prefix_refl _
  | some count => exact take_prefix count batch

theorem delivered_sublist (cut : Option Nat) (batch : List α) : (delivered cut batch).Sublist batch :=
  (delivered_begins cut batch).sublist

theorem delivered_eq_of_length {cut : Option Nat} {batch : List α}
    (full : batch.length ≤ (delivered cut batch).length) :
    delivered cut batch = batch :=
  (delivered_sublist cut batch).eq_of_length_le full

/-- Everything that is read, the given number of batches having been read before. -/
inductive BatchRead : Nat → List α → List α → Prop where
  | short {k : Nat} {rows : List α} (notFull : (delivered (cut k) (rows.take n)).length ≠ n) :
      BatchRead k rows (delivered (cut k) (rows.take n))
  | full {k : Nat} {rows read : List α} {last : α} (isFull : (delivered (cut k) (rows.take n)).length = n)
      (isLast : (delivered (cut k) (rows.take n)).getLast? = some last)
      (later : BatchRead (k + 1) ((rows.drop n).filter (keep last)) read) :
      BatchRead k rows (delivered (cut k) (rows.take n) ++ read)

/-- No batch breaks off before its end, and full batches admit all that is behind them. -/
structure Whole (k : Nat) (rows : List α) : Prop where
  uncut : ∀ batches count, cut (k + batches) = some count → batches * n ≤ rows.length →
    rows.length ≤ batches * n + count ∨ n ≤ count
  kept : ∀ before last after, rows = before ++ last :: after → n ∣ before.length + 1 →
    ∀ row ∈ after, keep last row = true

variable {keep n cut} {k : Nat} {rows read : List α} {last : α}

theorem BatchRead.subset (reads : BatchRead keep n cut k rows read) : read ⊆ rows := by
  induction reads with
  | short _ => exact ((delivered_sublist _ _).trans (take_sublist _ _)).subset
  | full _ _ _ ih =>
    refine append_subset.mpr ⟨((delivered_sublist _ _).trans (take_sublist _ _)).subset, fun row mem => ?_⟩
    exact mem_of_mem_drop (mem_of_mem_filter (ih mem))

theorem whole_of_length_lt (short : rows.length < n) (arrives : ∀ count, cut k = some count → rows.length ≤ count) :
    Whole keep n cut k rows := by
  refine ⟨fun batches count isCut reached => ?_, fun before last after parts divides => ?_⟩
  · cases batches with
    | zero => exact .inl (by simpa using arrives count isCut)
    | succ batches =>
      rw [Nat.succ_mul] at reached
      omega
  · have := Nat.le_of_dvd (Nat.succ_pos _) divides
    rw [parts, length_append, length_cons] at short
    omega

/-- A list that begins with a full batch is whole if the batch arrives, its last element admits the rest, and the rest
is whole. -/
theorem whole_iff_of_full (full : n ≤ rows.length) (isLast : (rows.take n).getLast? = some last) :
    Whole keep n cut k rows ↔
    (∀ count, cut k = some count → n ≤ count) ∧ (∀ row ∈ rows.drop n, keep last row = true) ∧
    Whole keep n cut (k + 1) (rows.drop n) := by
  obtain ⟨first, firstBatch⟩ := getLast?_eq_some_iff.mp isLast
  have split : rows = first ++ last :: rows.drop n := by
    have parts := take_append_drop n rows
    rw [firstBatch, append_assoc] at parts
    exact parts.symm
  have firstLength : first.length + 1 = n := by
    have := congrArg List.length firstBatch
    rw [length_append, length_singleton, length_take] at this
    omega
  constructor
  · intro whole
    refine ⟨fun count isCut => ?_, whole.kept first last _ split ⟨1, by omega⟩,
      fun batches count isCut reached => ?_, ?_⟩
    · rcases whole.uncut 0 count isCut (by omega) with enough | enough
      · omega
      · exact enough
    · rw [length_drop] at reached ⊢
      have := whole.uncut (batches + 1) count (by rwa [← Nat.add_right_comm] at isCut) (by
        rw [Nat.succ_mul]
        omega)
      rw [Nat.succ_mul] at this
      omega
    · intro before other after parts divides
      refine whole.kept (first ++ last :: before) other after ?_ ?_
      · rw [append_assoc, cons_append, ← parts, ← split]
      · have length : (first ++ last :: before).length + 1 = n + (before.length + 1) := by
          rw [length_append, length_cons]
          omega
        rw [length]
        exact (Nat.dvd_add_right (Nat.dvd_refl n)).mpr divides
  · rintro ⟨arrives, admits, whole⟩
    refine ⟨fun batches count isCut reached => ?_, fun before other after parts divides => ?_⟩
    · cases batches with
      | zero => exact .inr (arrives count isCut)
      | succ batches =>
        have := whole.uncut batches count (by rwa [← Nat.add_assoc, Nat.add_right_comm] at isCut) (by
          rw [Nat.succ_mul] at reached
          rw [length_drop]
          omega)
        rw [length_drop] at this
        rw [Nat.succ_mul]
        omega
    · have long : n ≤ before.length + 1 := Nat.le_of_dvd (Nat.succ_pos _) divides
      rcases Nat.eq_or_lt_of_le long with here | further
      · have same := append_inj (split.symm.trans parts) (by omega)
        obtain ⟨rfl, rfl⟩ := List.cons.inj same.2
        exact admits
      · -- the element ends a later batch, so it lies behind the first
        have behind : n ≤ before.length := by omega
        refine whole.kept (before.drop n) other after ?_ ?_
        · rw [parts, drop_append_of_le_length behind]
        · have length : (before.drop n).length + 1 = before.length + 1 - n := by
            rw [length_drop]
            omega
          rw [length]
          exact Nat.dvd_sub divides (Nat.dvd_refl n)

/-- Everything is read exactly if the list is whole. -/
theorem BatchRead.subset_iff (nodup : rows.Nodup) (reads : BatchRead keep n cut k rows read) :
    rows ⊆ read ↔ Whole keep n cut k rows := by
  induction reads with
  | @short k rows notFull =>
    constructor
    · intro all
      have upTo : rows.length ≤ (delivered (cut k) (rows.take n)).length := (subperm_of_subset nodup all).length_le
      have within := (delivered_sublist (cut k) (rows.take n)).length_le
      rw [length_take] at within
      refine whole_of_length_lt (by omega) fun count isCut => ?_
      rw [isCut] at upTo
      change _ ≤ ((rows.take n).take count).length at upTo
      rw [length_take] at upTo
      omega
    · intro whole
      have arrives : delivered (cut k) (rows.take n) = rows.take n := by
        cases isCut : cut k with
        | none => rfl
        | some count =>
          refine take_of_length_le ?_
          rw [length_take]
          rcases whole.uncut 0 count isCut (by omega) with enough | enough <;> omega
      rw [arrives, length_take] at notFull
      rw [arrives, take_of_length_le (by omega)]
      exact Subset.refl _
  | @full k rows read last isFull isLast later ih =>
    have arrived : delivered (cut k) (rows.take n) = rows.take n :=
      delivered_eq_of_length (by rw [isFull]; exact length_take_le n rows)
    have long : n ≤ rows.length := by
      rw [arrived, length_take] at isFull
      omega
    rw [arrived] at isLast ⊢
    have arrives : ∀ count, cut k = some count → n ≤ count := by
      intro count isCut
      rw [isCut] at isFull
      change ((rows.take n).take count).length = n at isFull
      rw [length_take] at isFull
      omega
    have kept_iff : (∀ row ∈ rows.drop n, keep last row = true) ↔
      (rows.drop n).filter (keep last) = rows.drop n := filter_eq_self.symm
    rw [whole_iff_of_full long isLast, and_iff_right arrives]
    have ih := ih ((nodup.sublist (drop_sublist n rows)).filter _)
    constructor
    · intro all
      -- an element behind the batch is read later, so the cursor admits it
      have behind : rows.drop n ⊆ read := by
        intro row mem
        refine (mem_append.mp (all (mem_of_mem_drop mem))).resolve_left fun inBatch => ?_
        exact disjoint_take_drop nodup (Nat.le_refl n) inBatch mem
      have admits : ∀ row ∈ rows.drop n, keep last row = true := fun row mem =>
        (mem_filter.mp (later.subset (behind mem))).2
      rw [kept_iff.mp admits] at ih
      exact ⟨admits, ih.mp behind⟩
    · rintro ⟨admits, whole⟩
      rw [kept_iff.mp admits] at ih
      intro row mem
      rw [← take_append_drop n rows] at mem
      exact append_subset.mpr ⟨subset_append_left _ _, Subset.trans (ih.mpr whole) (subset_append_right _ _)⟩ mem

end SecurityFabric
