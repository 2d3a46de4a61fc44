import SecurityFabric.ToMathlib.GoMap

/-! # Collecting everything below, level by level

Two loops ask again and again for the nodes right below the last answer, until there are none. The first keeps every
answer; the second goes on only with what is new. The second loop always ends, with at most one query more than there
are nodes below others; the first ends, as soon, exactly if it cannot reach a cycle. A loop that ends has found what the
transitive closure reaches.
-/

namespace SecurityFabric.LevelClosure

open Relation List

variable {α : Type} {next : List α → List α} {below : α → α → Prop} {nodes level all : List α}
  {fuel : Nat} {seen : GoSet α}

/-- Append level after level. -/
def collect [DecidableEq α] (next : List α → List α) : Nat → List α → List α → Option (List α)
  | 0, _, _ => none
  | fuel + 1, level, all => if level = [] then some all else collect next fuel (next level) (all ++ next level)

/-- The elements of a list that a set does not have, and the set with them. -/
def takeFresh [DecidableEq α] (xs : List α) (seen : GoSet α) : List α × GoSet α :=
  xs.foldl (fun state x => if x ∈ state.2 then state else (state.1 ++ [x], state.2.insert x ())) ([], seen)

/-- Level after level of what has not been seen. -/
def collectFresh [DecidableEq α] (next : List α → List α) : Nat → List α → GoSet α → Option (GoSet α)
  | 0, _, _ => none
  | fuel + 1, level, seen =>
    if level = [] then some seen
    else collectFresh next fuel (takeFresh (next level) seen).1 (takeFresh (next level) seen).2

/-- The query gives what is right below, always some of finitely many nodes. -/
structure Answers (next : List α → List α) (below : α → α → Prop) (nodes : List α) : Prop where
  mem_next : ∀ level y, y ∈ next level ↔ ∃ x ∈ level, below x y
  mem_nodes : ∀ {x y}, below x y → y ∈ nodes

/-- A cycle can be reached from the level. -/
def Cyclic (below : α → α → Prop) (level : List α) : Prop :=
  ∃ x ∈ level, ∃ y, ReflTransGen below x y ∧ TransGen below y y

namespace Answers

variable (answers : Answers next below nodes)

include answers

theorem transGen_iff (level : List α) (y : α) :
    (∃ x ∈ level, TransGen below x y) ↔ y ∈ next level ∨ ∃ x ∈ next level, TransGen below x y := by
  constructor
  · rintro ⟨x, mem, reached⟩
    obtain ⟨child, first, rest⟩ := TransGen.head'_iff.mp reached
    have found : child ∈ next level := (answers.mem_next level child).mpr ⟨x, mem, first⟩
    rcases reflTransGen_iff_eq_or_transGen.mp rest with rfl | later
    · exact .inl found
    · exact .inr ⟨child, found, later⟩
  · rintro (found | ⟨child, found, later⟩)
    · obtain ⟨x, mem, first⟩ := (answers.mem_next level y).mp found
      exact ⟨x, mem, .single first⟩
    · obtain ⟨x, mem, first⟩ := (answers.mem_next level child).mp found
      exact ⟨x, mem, .head first later⟩

theorem cyclic_next (cyclic : Cyclic below level) : Cyclic below (next level) := by
  obtain ⟨x, mem, y, reached, cycle⟩ := cyclic
  obtain ⟨child, first, rest⟩ := TransGen.head'_iff.mp (TransGen.trans_right reached cycle)
  exact ⟨child, (answers.mem_next level child).mpr ⟨x, mem, first⟩, y, rest, cycle⟩

variable [DecidableEq α]

theorem collect_of_cyclic (cyclic : Cyclic below level) : collect next fuel level all = none := by
  induction fuel generalizing level all with
  | zero => rfl
  | succ fuel ih =>
    have later := answers.cyclic_next cyclic
    obtain ⟨x, mem, -⟩ := cyclic
    rw [collect, if_neg (ne_nil_of_mem mem)]
    exact ih later

theorem mem_of_collect {result : List α} (ended : collect next fuel level all = some result) (y : α) :
    y ∈ result ↔ y ∈ all ∨ ∃ x ∈ level, TransGen below x y := by
  induction fuel generalizing level all with
  | zero => cases ended
  | succ fuel ih =>
    rw [collect] at ended
    split_ifs at ended with empty
    · cases ended
      simp [empty]
    · rw [ih ended, mem_append, answers.transGen_iff level y, or_assoc]

theorem exists_chain (unfinished : collect next (fuel + 1) level all = none) :
    ∃ x ∈ level, ∃ path, path.length = fuel ∧ IsChain below (x :: path) := by
  induction fuel generalizing level all with
  | zero =>
    rw [collect] at unfinished
    split_ifs at unfinished with empty
    obtain ⟨x, mem⟩ := exists_mem_of_ne_nil level empty
    exact ⟨x, mem, [], rfl, .singleton x⟩
  | succ fuel ih =>
    rw [collect] at unfinished
    split_ifs at unfinished
    obtain ⟨child, found, path, length, chain⟩ := ih unfinished
    obtain ⟨x, mem, first⟩ := (answers.mem_next level child).mp found
    exact ⟨x, mem, child :: path, by rw [length_cons, length], .cons_cons first chain⟩

/-- A path without a cycle meets each node once, so that it is not longer than they are many. -/
theorem exists_collect (acyclic : ¬ Cyclic below level) (enough : nodes.length + 2 ≤ fuel) :
    ∃ result, collect next fuel level all = some result := by
  obtain ⟨fuel, rfl⟩ := Nat.exists_eq_add_of_le' (Nat.le_of_add_left_le enough : 1 ≤ fuel)
  refine Option.ne_none_iff_exists'.mp fun unfinished => ?_
  obtain ⟨x, mem, path, length, chain⟩ := answers.exists_chain unfinished
  have descends := (chain.imp fun _ _ => TransGen.single).pairwise
  rw [pairwise_cons] at descends
  have once : path.Nodup := by
    refine descends.2.imp_of_mem fun {y z} isFirst _ below same => ?_
    exact acyclic ⟨x, mem, y, (descends.1 y isFirst).to_reflTransGen, same ▸ below⟩
  have within : path ⊆ nodes := by
    intro y isNode
    obtain ⟨above, -, edge⟩ := TransGen.tail'_iff.mp (descends.1 y isNode)
    exact answers.mem_nodes edge
  have := (subperm_of_subset once within).length_le
  omega

end Answers

variable [DecidableEq α]

theorem takeFresh_append (xs : List α) (x : α) (seen : GoSet α) :
    takeFresh (xs ++ [x]) seen = if x ∈ (takeFresh xs seen).2 then takeFresh xs seen
      else ((takeFresh xs seen).1 ++ [x], (takeFresh xs seen).2.insert x ()) := by
  rw [takeFresh, foldl_append]
  rfl

theorem mem_takeFresh (xs : List α) (seen : GoSet α) (y : α) :
    (y ∈ (takeFresh xs seen).1 ↔ y ∈ xs ∧ y ∉ seen) ∧ (y ∈ (takeFresh xs seen).2 ↔ y ∈ seen ∨ y ∈ xs) := by
  induction xs using reverseRecOn with
  | nil => simp [takeFresh]
  | append_singleton xs x ih =>
    rw [takeFresh_append]
    by_cases same : y = x
    · subst same
      split_ifs with old
      · have known := ih.2.mp old
        refine ⟨ih.1.trans ?_, by simp [old]⟩
        simp only [mem_append, mem_singleton, or_true, true_and, and_iff_right_iff_imp]
        exact fun new => known.resolve_left new
      · have new : y ∉ seen := fun known => old (ih.2.mpr (.inl known))
        simp [new]
    · split_ifs with old <;> simp [ih.1, ih.2, same]

/-- What is right below a seen node has been seen, unless the node is still in the level. -/
def ClosedExcept (below : α → α → Prop) (level : List α) (seen : GoSet α) : Prop :=
  ∀ x ∈ seen, x ∉ level → ∀ y, below x y → y ∈ seen

theorem ClosedExcept.reaches (closed : ClosedExcept below level seen) {x y : α} (known : x ∈ seen)
    (reached : TransGen below x y) : y ∈ seen ∨ ∃ z ∈ level, TransGen below z y := by
  induction reached using TransGen.head_induction_on with
  | @single x edge =>
    by_cases pending : x ∈ level
    · exact .inr ⟨x, pending, .single edge⟩
    · exact .inl (closed x known pending y edge)
  | @head x child edge later ih =>
    by_cases pending : x ∈ level
    · exact .inr ⟨x, pending, .head edge later⟩
    · exact ih (closed x known pending child edge)

theorem Answers.closed_next (answers : Answers next below nodes) (closed : ClosedExcept below level seen) :
    ClosedExcept below (takeFresh (next level) seen).1 (takeFresh (next level) seen).2 := by
  intro x known left y edge
  rw [(mem_takeFresh _ _ x).1] at left
  rw [(mem_takeFresh _ _ x).2] at known
  rw [(mem_takeFresh _ _ y).2]
  have old : x ∈ seen := by
    by_contra new
    exact left ⟨known.resolve_left new, new⟩
  by_cases pending : x ∈ level
  · exact .inr ((answers.mem_next level y).mpr ⟨x, pending, edge⟩)
  · exact .inl (closed x old pending y edge)

/-- Each round but the last one meets a node that is new. -/
theorem Answers.exists_collectFresh (answers : Answers next below nodes)
    (enough : (nodes.filter (· ∉ seen)).length + 2 ≤ fuel) :
    ∃ result, collectFresh next fuel level seen = some result := by
  induction fuel generalizing level seen with
  | zero => omega
  | succ fuel ih =>
    rw [collectFresh]
    split_ifs
    · exact ⟨seen, rfl⟩
    · cases fresh : (takeFresh (next level) seen).1 with
      | nil =>
        obtain ⟨fuel, rfl⟩ := Nat.exists_eq_succ_of_ne_zero (by omega : fuel ≠ 0)
        exact ⟨_, if_pos rfl⟩
      | cons node rest =>
        have isNew := (mem_takeFresh (next level) seen node).1.mp (fresh ▸ mem_cons_self)
        obtain ⟨above, -, edge⟩ := (answers.mem_next level node).mp isNew.1
        have old (y : α) := (mem_takeFresh (next level) seen y).2
        refine ih (Nat.succ_le_of_lt (Nat.lt_of_lt_of_le
          (Nat.add_lt_add_right (length_filter_lt (fun y _ => ?_) (answers.mem_nodes edge)
          ?_ ?_) 1) (Nat.le_of_succ_le_succ enough)))
        · simp +contextual [old]
        · simpa using isNew.2
        · simp [old, isNew.1]

/-- The loop may stop early at nodes it has seen: by closedness what is below them is not lost. -/
theorem Answers.mem_of_collectFresh (answers : Answers next below nodes)
    (closed : ClosedExcept below level seen) {result : GoSet α}
    (ended : collectFresh next fuel level seen = some result) (y : α) :
    y ∈ result ↔ y ∈ seen ∨ ∃ x ∈ level, TransGen below x y := by
  induction fuel generalizing level seen with
  | zero => cases ended
  | succ fuel ih =>
    rw [collectFresh] at ended
    split_ifs at ended with empty
    · cases ended
      simp [empty]
    · rw [ih (answers.closed_next closed) ended, (mem_takeFresh _ _ y).2, answers.transGen_iff level y]
      constructor
      · rintro ((known | found) | ⟨x, taken, reached⟩)
        · exact .inl known
        · exact .inr (.inl found)
        · exact .inr (.inr ⟨x, ((mem_takeFresh _ _ x).1.mp taken).1, reached⟩)
      · rintro (known | found | ⟨x, found, reached⟩)
        · exact .inl (.inl known)
        · exact .inl (.inr found)
        · -- a child that was already seen is not visited again, so the new set's closedness has to say where `y` is
          have known : x ∈ (takeFresh (next level) seen).2 := (mem_takeFresh _ _ x).2.mpr (.inr found)
          rw [← (mem_takeFresh _ _ y).2]
          exact (answers.closed_next closed).reaches known reached

end SecurityFabric.LevelClosure
