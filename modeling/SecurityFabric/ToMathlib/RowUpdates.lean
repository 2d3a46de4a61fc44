import Mathlib.Data.List.Nodup

/-! # Updates addressed to rows of a table

A table is a list of rows, each with an identifier, and an update names the identifier of the rows
it overwrites. Applying a list of updates one after another to a whole table is applying, to each
row by itself, the updates that name it. Identifiers need not be unique.
-/

namespace SecurityFabric.RowUpdates

open List

variable {α β ι γ : Type} [DecidableEq ι]

/-- Overwrite a row if the update names it. -/
def apply (ident : α → ι) (target : β → ι) (write : β → α → α) (u : β) (row : α) : α :=
  if ident row = target u then write u row else row

/-- Overwrite a row by each update that names it, in order. -/
def applyAll (ident : α → ι) (target : β → ι) (write : β → α → α) (updates : List β) (row : α) : α :=
  updates.foldl (fun row u => apply ident target write u row) row

variable {ident : α → ι} {target : β → ι} {write : β → α → α}

theorem foldl_map_apply (updates : List β) (table : List α) :
    updates.foldl (fun table u => table.map (apply ident target write u)) table =
      table.map (applyAll ident target write updates) := by
  induction updates generalizing table with
  | nil => exact (map_id table).symm
  | cons u rest ih =>
    rw [foldl_cons, ih, map_map]
    rfl

theorem applyAll_keeps {f : α → γ} (keeps : ∀ u row, f (write u row) = f row) (updates : List β) (row : α) :
    f (applyAll ident target write updates row) = f row := by
  induction updates generalizing row with
  | nil => rfl
  | cons u rest ih =>
    have step : f (apply ident target write u row) = f row := by
      unfold apply
      split_ifs
      · exact keeps u row
      · rfl
    exact (ih _).trans step

variable {updates : List β} {row : α}

theorem applyAll_induction {P : α → Prop} (start : P row)
    (written : ∀ u ∈ updates, ∀ row', target u = ident row' → P row' → P (write u row')) :
    P (applyAll ident target write updates row) := by
  induction updates generalizing row with
  | nil => exact start
  | cons u rest ih =>
    have step : P (apply ident target write u row) := by
      unfold apply
      split_ifs with named
      · exact written u (mem_cons_self ..) row named.symm start
      · exact start
    exact ih step (forall_mem_cons.mp written).2

theorem applyAll_of_forall_ne (foreign : ∀ u ∈ updates, target u ≠ ident row) :
    applyAll ident target write updates row = row := by
  induction updates with
  | nil => rfl
  | cons u rest ih =>
    have skipped : apply ident target write u row = row := if_neg (Ne.symm (foreign u (mem_cons_self ..)))
    change applyAll ident target write rest (apply ident target write u row) = row
    rw [skipped]
    exact ih (forall_mem_cons.mp foreign).2

/-- A row named by one update is overwritten by it. -/
theorem applyAll_of_mem (keeps : ∀ u row, ident (write u row) = ident row) {u : β}
    (distinct : (updates.map target).Nodup)
    (mem : u ∈ updates) (named : target u = ident row) : applyAll ident target write updates row = write u row := by
  induction updates with
  | nil => cases mem
  | cons head rest ih =>
    obtain ⟨fresh, distinct⟩ := nodup_cons.mp distinct
    change applyAll ident target write rest (apply ident target write head row) = write u row
    rcases mem_cons.mp mem with rfl | later
    · rw [apply, if_pos named.symm]
      apply applyAll_of_forall_ne
      intro other present same
      exact fresh (mem_map.mpr ⟨other, present, by rw [same, keeps, named]⟩)
    · have other : target head ≠ ident row := by
        intro same
        exact fresh (mem_map.mpr ⟨u, later, named.trans same.symm⟩)
      rw [apply, if_neg (Ne.symm other)]
      exact ih distinct later

end SecurityFabric.RowUpdates
