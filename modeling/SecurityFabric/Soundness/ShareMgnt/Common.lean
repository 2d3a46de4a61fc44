import SecurityFabric.Model.ShareMgnt.Common
import Mathlib.Algebra.Order.Group.Nat
import Mathlib.Tactic.SplitIfs

/-! # What is a net mask

A number is accepted exactly if its ones are one block, wherever the block ends.
-/

namespace SecurityFabric.ShareMgnt

section

open Nat

variable {mask : List Char} {num top zeros : Nat}

/-- One-bits, and zero-bits below them, are all of the 32 bits. -/
def IsMask (num : Nat) : Prop := ∃ k, 1 ≤ k ∧ k ≤ 32 ∧ num = (2 ^ k - 1) <<< (32 - k)

/-- The ones are the bits below `top` and not below `zeros`. -/
def Block (top zeros num : Nat) : Prop := zeros < top ∧ num + 2 ^ zeros = 2 ^ top

private theorem Block.pow_le_iff (block : Block top zeros num) (n : Nat) : 2 ^ n ≤ num ↔ n < top := by
  obtain ⟨below, whole⟩ := block
  have positive := Nat.two_pow_pos zeros
  constructor
  · intro reached
    exact (Nat.pow_lt_pow_iff_right (by decide)).mp (show 2 ^ n < 2 ^ top by omega)
  · intro lower
    have double : 2 ^ top = 2 * 2 ^ (top - 1) := by rw [← Nat.pow_succ', succ_eq_add_one, Nat.sub_add_cancel (by omega)]
    have half (m : Nat) (isLow : m < top) : 2 ^ m ≤ 2 ^ (top - 1) := Nat.pow_le_pow_right (by decide) (by omega)
    have := half n lower
    have := half zeros below
    omega

private theorem isMask_iff : IsMask num ↔ ∃ zeros, Block 32 zeros num := by
  have whole (k : Nat) (small : k ≤ 32) : (2 ^ k - 1) <<< (32 - k) + 2 ^ (32 - k) = 2 ^ 32 := by
    rw [shiftLeft_eq, ← Nat.succ_mul, succ_eq_add_one, Nat.sub_add_cancel Nat.one_le_two_pow,
      ← pow_add, Nat.add_sub_cancel' small]
  constructor
  · rintro ⟨k, some, small, rfl⟩
    exact ⟨32 - k, by omega, whole k small⟩
  · rintro ⟨zeros, below, same⟩
    have sum := whole (32 - zeros) (by omega)
    rw [Nat.sub_sub_self below.le] at sum
    exact ⟨32 - zeros, by omega, by omega, by rw [Nat.sub_sub_self below.le]; omega⟩

/-- The flipped digits stand for what is missing to the next power of two. -/
theorem ofDigitChars_flipDigits (positive : num ≠ 0) :
    ∃ size, 2 ^ size ≤ num ∧ num + (ofDigitChars 2 (flipDigits num) 0 + 1) = 2 ^ (size + 1) := by
  induction num using Nat.strongRecOn with
  | ind num ih =>
    by_cases one : num < 2
    · obtain rfl : num = 1 := by omega
      exact ⟨0, by decide, by decide⟩
    · obtain ⟨size, below, whole⟩ := ih (num / 2) (by omega) (by omega)
      refine ⟨size + 1, by omega, ?_⟩
      rw [flipDigits, toDigits_of_base_le (by decide) (by omega), List.map_append, ofDigitChars_append]
      change num + (ofDigitChars 2 _ (ofDigitChars 2 (flipDigits (num / 2)) 0) + 1) = _
      rcases Nat.mod_two_eq_zero_or_one num with even | odd
      · simp [even, ofDigitChars_cons]
        omega
      · simp [odd, ofDigitChars_cons]
        omega

private theorem checkNetMask_eq_true (isIp : checkNetIp mask = true) :
    checkNetMask mask = true ↔ ∃ num ∈ inetAton mask, ∃ top zeros, Block top zeros num := by
  rw [checkNetMask, if_pos isIp, Option.any_eq_true]
  refine exists_congr fun num => and_congr_right fun _ => ?_
  split_ifs with zero
  · refine iff_of_false not_false ?_
    rintro ⟨top, zeros, block⟩
    have reached := (block.pow_le_iff 0).mpr (by have := block.1; omega)
    omega
  · obtain ⟨size, below, whole⟩ := ofDigitChars_flipDigits zero
    rw [decide_eq_true_iff, and_sub_one_eq_zero_iff_isPowerOfTwo (by omega)]
    constructor
    · rintro ⟨zeros, power⟩
      have small : 2 ^ zeros < 2 ^ (size + 1) := by omega
      exact ⟨size + 1, zeros, (Nat.pow_lt_pow_iff_right (by decide)).mp small, by omega⟩
    · rintro ⟨top, zeros, block⟩
      have lower := (block.pow_le_iff size).mp below
      have upper := mt (block.pow_le_iff (size + 1)).mpr (by omega)
      obtain rfl : top = size + 1 := by omega
      have := block.2
      exact ⟨zeros, by omega⟩

private theorem inetAton_lt (read : inetAton mask = some num) : num < 2 ^ 32 := by
  have small {part : List Char} {n : Nat} (isPart : readOctet part = some n) : n ≤ 255 :=
    of_decide_eq_true (Option.filter_eq_some_iff.mp isPart).2
  unfold inetAton at read
  split at read
  · simp only [Option.bind_eq_bind, Option.bind_eq_some_iff] at read
    obtain ⟨a, first, b, second, c, third, d, fourth, same⟩ := read
    have := Option.some.inj same
    have := small first
    have := small second
    have := small third
    have := small fourth
    omega
  · cases read

/-- Masks are told apart from other numbers exactly if every block of ones reaches the highest bit. -/
theorem checkNetMask_iff (isIp : checkNetIp mask = true) :
    (checkNetMask mask = true ↔ ∃ num ∈ inetAton mask, IsMask num) ↔
    ∀ num ∈ inetAton mask, ∀ top zeros, Block top zeros num → 2 ^ 31 ≤ num := by
  rw [checkNetMask_eq_true isIp]
  constructor
  · intro right num read top zeros block
    obtain ⟨other, same, isMask⟩ := right.mp ⟨num, read, top, zeros, block⟩
    obtain rfl := Option.mem_unique read same
    obtain ⟨zeros, mask⟩ := isMask_iff.mp isMask
    exact (mask.pow_le_iff 31).mpr (by decide)
  · intro high
    constructor
    · rintro ⟨num, read, top, zeros, block⟩
      have lower := (block.pow_le_iff 31).mp (high num read top zeros block)
      have upper := mt (block.pow_le_iff 32).mpr (Nat.not_le.mpr (inetAton_lt read))
      obtain rfl : top = 32 := by omega
      exact ⟨num, read, isMask_iff.mpr ⟨zeros, block⟩⟩
    · rintro ⟨num, read, isMask⟩
      exact ⟨num, read, 32, isMask_iff.mp isMask⟩

theorem checkNetMask_top :
    checkNetMask "255.0.0.0".toList = true ∧ ∃ num ∈ inetAton "255.0.0.0".toList, IsMask num := by
  have isMask : checkNetMask "255.0.0.0".toList = true := by decide +kernel
  have read : inetAton "255.0.0.0".toList = some 4278190080 := by decide +kernel
  refine ⟨isMask, ((checkNetMask_iff (by decide +kernel)).mpr fun num same _ _ _ => ?_).mp isMask⟩
  obtain rfl := Option.mem_unique read same
  decide

/-- A block of ones at the low end is taken for a mask. -/
theorem low_block_accepted : checkNetIp "0.0.0.255".toList = true ∧ checkNetMask "0.0.0.255".toList = true ∧
    inetAton "0.0.0.255".toList = some 255 ∧ ¬ IsMask 255 := by
  refine ⟨by decide +kernel, by decide +kernel, by decide +kernel, fun isMask => ?_⟩
  obtain ⟨zeros, block⟩ := isMask_iff.mp isMask
  exact absurd ((block.pow_le_iff 31).mpr (by decide)) (by decide)

end

/-! # Leases of the database lock

From the time a holder gets the lock, the row is its own until it gives it back or the lease has run out. So nobody else
gets the lock before that, whatever the schedule.
-/

open Machine Function

variable {Holder : Type} [DecidableEq Holder]

/-- What a statement does to the row: it leaves it, gives the lock for a time, or gives it back. -/
inductive LockMove (holderId : Holder) (now : Int) (row : Option (LockRow Holder)) :
    LockStatement → Option (LockRow Holder) → LockPhase → Prop
  | kept {statement phase} (unlocked : phase ≠ .outside true) : LockMove holderId now row statement row phase
  | got {statement durationSec} (lasts : statement = .insert durationSec ∨ statement = .update durationSec)
      (free : ∀ lease ∈ row, lease.expireTime < now) :
      LockMove holderId now row statement (some ⟨holderId, now + durationSec⟩) (.outside true)
  | released : LockMove holderId now row .delete (row.filter (·.hoderId ≠ holderId)) (.outside false)

private theorem lockAdvance_cases {holderId : Holder} {now : Int} {statement : LockStatement}
    {table after : LockTable Holder}
    {phase next : LockPhase} (advanced : lockAdvance holderId (now, statement) table phase = some (after, next)) :
    table.now ≤ now ∧ after.now = now ∧ LockMove holderId now table.row statement after.row next := by
  dsimp only [lockAdvance] at advanced
  split at advanced
  · cases advanced
  rename_i back
  refine ⟨Int.not_lt.mp back, ?_⟩
  split at advanced
  · split_ifs at advanced with free <;> cases advanced
    · exact ⟨rfl, .got (.inl rfl) (by simp [Option.isNone_iff_eq_none.mp free])⟩
    · exact ⟨rfl, .kept nofun⟩
  · split_ifs at advanced with same expired <;> cases advanced
    · exact ⟨rfl, .got (.inr rfl) fun lease mem => by simpa [Option.mem_def.mp mem] using expired⟩
    · exact ⟨rfl, .kept nofun⟩
  · cases advanced
    exact ⟨rfl, .released⟩
  · cases advanced

variable {holder : Holder} {start taken state next : Shared Holder (LockTable Holder) LockPhase}
  {statement : LockStatement}
  {labels : List (Holder × Int × LockStatement)} {now durationSec : Int}

private theorem lockStep_cases (stepped : Shared.step lockAdvance state (holder, now, statement) = some next) :
    state.store.now ≤ now ∧ next.store.now = now ∧ LockMove holder now state.store.row statement next.store.row
      (next.phase holder) := by
  obtain ⟨table, phase, advanced, rfl⟩ := Shared.step_eq_some.mp stepped
  dsimp only
  rw [update_self]
  exact lockAdvance_cases advanced

/-- The holder does not give the lock back and does not get it anew. -/
def Keeps (holder : Holder) (state : Shared Holder (LockTable Holder) LockPhase)
    (label : Holder × Int × LockStatement) : Prop :=
  label.1 = holder → label.2.2 ≠ .delete ∧ ∀ next ∈ Shared.step lockAdvance state label,
    next.phase holder ≠ .outside true

/-- The row stays the holder's own until its lease has run out. -/
theorem lease_of_keeps {expireTime : Int} {label : Holder × Int × LockStatement}
    (own : state.store.row = some ⟨holder, expireTime⟩ ∨ expireTime < state.store.now)
    (keeps : Keeps holder state label)
    (stepped : Shared.step lockAdvance state label = some next) :
    next.store.row = some ⟨holder, expireTime⟩ ∨ expireTime < next.store.now := by
  obtain ⟨other, now, statement⟩ := label
  obtain ⟨onward, moved, move⟩ := lockStep_cases stepped
  rcases own with own | expired
  · rw [own] at move
    generalize next.store.row = row, next.phase other = phase at move ⊢
    cases move with
    | kept => exact .inl rfl
    | got _ free => exact .inr (moved ▸ free _ rfl)
    | released =>
      have differs : holder ≠ other := fun same => (keeps same.symm).1 rfl
      exact .inl (by simp [differs])
  · exact .inr (by omega)

/-- A holder that gets the lock excludes the others until the lease has run out, and nobody frees the lock of another
holder. -/
theorem lease_excludes (lasts : statement = .insert durationSec ∨ statement = .update durationSec)
    (acquired : Shared.step lockAdvance start (holder, now, statement) = some taken)
    (returned : taken.phase holder = .outside true)
    (keeps : Meets (Shared.step lockAdvance) (Keeps holder) taken labels)
    (ran : run (Shared.step lockAdvance) taken labels = some state) :
    (∀ other ≠ holder, ∀ later statement next, Shared.step lockAdvance state (other, later, statement) = some next →
      next.phase other = .outside true → now + durationSec < later) ∧
    ∀ other later next, Shared.step lockAdvance state (other, later, .delete) = some next →
      ∀ row ∈ state.store.row, row.hoderId ≠ other → row ∈ next.store.row := by
  constructor
  · have own : taken.store.row = some ⟨holder, now + durationSec⟩ := by
      obtain ⟨-, -, move⟩ := lockStep_cases acquired
      rw [returned] at move
      generalize taken.store.row = row at move ⊢
      cases move with
      | kept unlocked => exact absurd rfl unlocked
      | got same => rcases lasts with rfl | rfl <;> simpa [eq_comm] using same
    have lease := invariant_of_meets _ lease_of_keeps (.inl own) keeps ran
    intro other differs later statement next stepped got
    obtain ⟨onward, -, move⟩ := lockStep_cases stepped
    rcases lease with own | expired
    · rw [own, got] at move
      generalize next.store.row = row at move
      cases move with
      | kept unlocked => exact absurd rfl unlocked
      | got _ free => exact free _ rfl
    · omega
  · intro other later next stepped row mem differs
    obtain ⟨-, -, move⟩ := lockStep_cases stepped
    generalize next.store.row = after, next.phase other = phase at move ⊢
    cases move with
    | kept => exact mem
    | got lasts => rcases lasts with same | same <;> cases same
    | released => exact Option.mem_filter_iff.mpr ⟨mem, by simpa using differs⟩

/-- The lock has just been given back, and an INSERT of the second holder failed before. -/
def givenBack : Shared Bool (LockTable Bool) LockPhase :=
  ⟨⟨none, 0⟩, fun first => bif first then .outside false else .insertFailed 10⟩

theorem lease_excludes_second : ∃ taken next, Shared.step lockAdvance givenBack (true, 5, .insert 10) = some taken ∧
    Shared.step lockAdvance taken (false, 16, .update 10) = some next ∧ next.phase false = .outside true ∧
    (5 : Int) + 10 < 16 := by
  have acquired : Shared.step lockAdvance givenBack (true, 5, .insert 10) = some _ := rfl
  have excludes := (lease_excludes (.inl rfl) acquired rfl (show Meets _ _ _ [] from trivial) rfl).1
    false Bool.false_ne_true
  exact ⟨_, _, acquired, rfl, rfl, excludes 16 (.update 10) _ rfl rfl⟩

end SecurityFabric.ShareMgnt
