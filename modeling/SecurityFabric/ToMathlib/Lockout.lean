import Mathlib.Data.List.Basic

/-! # Limits on the number of wrong attempts

A `Streak` counts wrong attempts: since the last success, since the last lock ran out, and anew when the previous wrong
attempt is older than a window. When it reaches a limit, attempts are locked out for some time after the wrong attempt
that completed it, and count for nothing.

A `Counter` implements this with one count and the time at which it was last written. It does not store whether there is
a lock: an attempt later than the lock time after the last write sets the count back. If the window is no longer than
the lock time, this forgets only streaks that the next wrong attempt would begin anew, so that the counter `Represents`
the streak.
-/

namespace SecurityFabric.Lockout

open List

/-- What an attempt is like; an attempt that is neither right nor wrong is given up before it counts. -/
inductive Attempt where
  | right
  | wrong
  | other
deriving DecidableEq, Repr

structure Rules where
  (limit lockTime window : Int)
deriving DecidableEq, Repr

/-- How many wrong attempts there were, and when the last of them was. -/
structure Streak where
  count : Nat
  previous : Int
deriving DecidableEq, Repr

namespace Streak

variable (rules : Rules) (now : Int)

def Locked (streak : Streak) : Prop := rules.limit ≤ streak.count ∧ now < streak.previous + rules.lockTime

instance (streak : Streak) : Decidable (streak.Locked rules now) := inferInstanceAs (Decidable (_ ∧ _))

/-- A lock that has run out ends the streak. -/
def expire (streak : Streak) : Streak :=
  if rules.limit ≤ streak.count ∧ streak.previous + rules.lockTime ≤ now then { streak with count := 0 } else streak

/-- The streak after an attempt. -/
def attempt (kind : Attempt) (streak : Streak) : Streak :=
  let streak := streak.expire rules now
  if streak.Locked rules now then streak
  else match kind with
    | .right => { streak with count := 0 }
    | .wrong => ⟨if 0 < streak.count ∧ now - streak.previous < rules.window then streak.count + 1 else 1, now⟩
    | .other => streak

/-- The streak after attempts, each with its time. -/
def attempts (streak : Streak) (made : List (Int × Attempt)) : Streak :=
  made.foldl (fun streak attempt => streak.attempt rules attempt.1 attempt.2) streak

end Streak

structure Counter where
  (count time : Int)
deriving DecidableEq, Repr

namespace Counter

variable (rules : Rules) (now : Int)

section

variable (kind : Attempt) (counter : Counter)

/-- The count is set back when nothing was written for the lock time. -/
def refresh : Counter := if counter.time + rules.lockTime ≤ now then ⟨0, now⟩ else counter

/-- The count that a wrong attempt writes. -/
def next : Int := if now - counter.time < rules.window then counter.count + 1 else 1

def Refuses : Prop := rules.limit ≤ counter.count

instance : Decidable (counter.Refuses rules) := inferInstanceAs (Decidable (_ ≤ _))

/-- The counter after an attempt that finds it set back where it has to be. -/
def settle : Counter :=
  if counter.Refuses rules then counter
  else match kind with
    | .right => ⟨0, now⟩
    | .wrong => ⟨counter.next rules now, now⟩
    | .other => counter

def attempt : Counter := (counter.refresh rules now).settle rules now kind

def attempts (made : List (Int × Attempt)) : Counter :=
  made.foldl (fun counter attempt => counter.attempt rules attempt.1 attempt.2) counter

end

variable {rules now}

theorem refresh_nonneg {counter : Counter} (nonneg : 0 ≤ counter.count) : 0 ≤ (counter.refresh rules now).count := by
  unfold refresh
  split
  · exact Int.le_refl 0
  · exact nonneg

theorem next_nonneg {counter : Counter} (nonneg : 0 ≤ counter.count) : 0 ≤ counter.next rules now := by
  unfold next
  split <;> omega

theorem attempt_nonneg {counter : Counter} (nonneg : 0 ≤ counter.count) (kind : Attempt) :
    0 ≤ (counter.attempt rules now kind).count := by
  have fresh := @refresh_nonneg rules now counter nonneg
  unfold attempt settle
  split
  · exact fresh
  · cases kind with
    | right => exact Int.le_refl 0
    | wrong => exact next_nonneg fresh
    | other => exact fresh

end Counter

variable {rules : Rules} {now clock : Int} {counter : Counter} {streak : Streak}

/-- The counter holds the streak, or it was set back after a streak to which no attempt can be added. -/
inductive Represents (rules : Rules) (clock : Int) : Counter → Streak → Prop where
  | holds {counter : Counter} {streak : Streak} (same : counter.count = streak.count)
      (since : 0 < streak.count → counter.time = streak.previous ∧ streak.previous ≤ clock) :
      Represents rules clock counter streak
  | lapsed {counter : Counter} {streak : Streak} (zero : counter.count = 0) (below : (streak.count : Int) < rules.limit)
      (old : streak.previous + rules.window ≤ counter.time) (past : counter.time ≤ clock) :
      Represents rules clock counter streak

theorem Represents.count_nonneg (represents : Represents rules clock counter streak) : 0 ≤ counter.count := by
  cases represents with
  | holds same since | lapsed zero below old past => omega

theorem Represents.mono (represents : Represents rules clock counter streak) (later : clock ≤ now) :
    Represents rules now counter streak := by
  cases represents with
  | holds same since => exact .holds same fun positive => ⟨(since positive).1, Int.le_trans (since positive).2 later⟩
  | lapsed zero below old past => exact .lapsed zero below old (Int.le_trans past later)

section Simulation

variable (positive : 0 < rules.limit) (longer : rules.window ≤ rules.lockTime)

include positive longer

/-- Setting the counter back is the end of a lock, or a lapse of the streak. -/
theorem Represents.refresh (represents : Represents rules now counter streak) :
    Represents rules now (counter.refresh rules now) (streak.expire rules now) := by
  unfold Counter.refresh Streak.expire
  cases represents with
  | holds same since =>
    split_ifs with passed full full
    · exact .holds rfl nofun
    · rcases Nat.eq_zero_or_pos streak.count with zero | some
      · exact .holds (by simp [zero]) (by omega)
      · have below : (streak.count : Int) < rules.limit := by omega
        exact .lapsed rfl below (by dsimp only; omega) (Int.le_refl _)
    · omega
    · exact .holds same since
  | lapsed zero below old past =>
    split_ifs with passed full full
    · omega
    · exact .lapsed rfl below (by dsimp only; omega) (Int.le_refl _)
    · omega
    · exact .lapsed zero below old past

omit longer in
theorem Represents.refuses_iff (represents : Represents rules now (counter.refresh rules now)
    (streak.expire rules now)) :
    (counter.refresh rules now).Refuses rules ↔ (streak.expire rules now).Locked rules now := by
  have still : rules.limit ≤ (streak.expire rules now).count →
      now < (streak.expire rules now).previous + rules.lockTime := by
    unfold Streak.expire
    split_ifs with ended
    · dsimp only
      omega
    · omega
  unfold Counter.Refuses Streak.Locked
  cases represents with
  | holds same since => exact ⟨fun full => ⟨same ▸ full, still (same ▸ full)⟩, fun full => same ▸ full.1⟩
  | lapsed zero below old past => omega

omit longer in
theorem Streak.expire_locked_iff : (streak.expire rules now).Locked rules now ↔ streak.Locked rules now := by
  unfold Streak.expire Streak.Locked
  split_ifs with ended
  · dsimp only
    omega
  · rfl

variable (represents : Represents rules clock counter streak)

include represents

/-- One attempt keeps the representation. -/
theorem Represents.attempt (later : clock ≤ now) (kind : Attempt) :
    Represents rules now (counter.attempt rules now kind) (streak.attempt rules now kind) := by
  have fresh := (represents.mono later).refresh positive longer
  have locked := fresh.refuses_iff positive
  unfold Counter.attempt Streak.attempt Counter.settle
  dsimp only
  rw [if_congr locked rfl rfl]
  split
  · exact fresh
  · cases kind with
    | right => exact .holds rfl nofun
    | other => exact fresh
    | wrong =>
      refine .holds ?_ fun _ => ⟨rfl, Int.le_refl _⟩
      dsimp only [Counter.next]
      cases fresh with
      | holds same since | lapsed zero below old past => split_ifs <;> omega

/-- Attempts made one after another keep the representation. -/
theorem Represents.attempts {made : List (Int × Attempt)} (begun : clock ≤ now)
    (later : ∀ attempt ∈ made, clock ≤ attempt.1) (ordered : made.Pairwise fun one next => one.1 ≤ next.1)
    (before : ∀ attempt ∈ made, attempt.1 ≤ now) :
    Represents rules now (counter.attempts rules made) (streak.attempts rules made) := by
  induction made generalizing clock counter streak with
  | nil => exact represents.mono begun
  | cons attempt rest rest_ih =>
    obtain ⟨first, ordered⟩ := pairwise_cons.mp ordered
    have next := represents.attempt positive longer (later attempt mem_cons_self) attempt.2
    exact rest_ih next (before attempt mem_cons_self) first ordered (forall_mem_cons.mp before).2

theorem Represents.refuses_refresh_iff (later : clock ≤ now) :
    (counter.refresh rules now).Refuses rules ↔ streak.Locked rules now := by
  rw [((represents.mono later).refresh positive longer).refuses_iff positive, Streak.expire_locked_iff positive]

end Simulation

/-! # What a counter remembers of its history

A `History` records what happened to a counter of wrong attempts, newest entry first. Time may pass between computing
the next count and writing it, and between finding that the lock time has passed and setting the counter back.

If the log is `Armed`, that is, if it holds as many wrong attempts close together as the limit allows and no success
after them, the counter refuses attempts until the lock time after each of these has passed.
-/

open List

inductive Entry where
  | wrong (time : Int)
  | success
  | other
deriving DecidableEq, Repr

/-- The counter and the log at a time, if every write replaces the counter it was computed from. -/
inductive History (rules : Rules) : Int → Counter → List Entry → Prop where
  | start {counter : Counter} (clock : Int) (nonneg : 0 ≤ counter.count) : History rules clock counter []
  | wait {clock now : Int} {counter : Counter} {log : List Entry} (history : History rules clock counter log)
      (later : clock ≤ now) : History rules now counter log
  | reset {clock found : Int} {counter : Counter} {log : List Entry} (history : History rules clock counter log)
      (passed : counter.time + rules.lockTime ≤ found) (past : found ≤ clock) : History rules clock ⟨0, found⟩ log
  | success {clock : Int} {counter : Counter} {log : List Entry} (history : History rules clock counter log) :
      History rules clock ⟨0, clock⟩ (.success :: log)
  | wrong {clock computed : Int} {counter : Counter} {log : List Entry} (history : History rules clock counter log)
      (free : ¬ counter.Refuses rules) (past : computed ≤ clock) :
      History rules clock ⟨counter.next rules computed, clock⟩ (.wrong clock :: log)
  | other {clock : Int} {counter : Counter} {log : List Entry} (history : History rules clock counter log) :
      History rules clock counter (.other :: log)

/-- Wrong attempts at these times, close together and with no success after the first of them. -/
structure Burst (rules : Rules) (log : List Entry) (times : List Int) : Prop where
  recent : ∃ newer older, log = newer ++ older ∧ .success ∉ newer ∧ (times.map Entry.wrong).Sublist newer
  close : ∀ one ∈ times, ∀ other ∈ times, one - other < rules.window

/-- There were enough wrong attempts, and the lock time after one of them has not passed. -/
def Armed (rules : Rules) (log : List Entry) (now : Int) : Prop :=
  ∃ times, Burst rules log times ∧ rules.limit ≤ times.length ∧ ∃ time ∈ times, now < time + rules.lockTime

variable {log : List Entry} {times : List Int} {time : Int}

theorem Burst.of_nil (burst : Burst rules [] times) : times = [] := by
  obtain ⟨⟨newer, older, split, -, sub⟩, -⟩ := burst
  obtain ⟨rfl, -⟩ := nil_eq_append_iff.mp split
  exact map_eq_nil_iff.mp (sublist_nil.mp sub)

theorem Burst.of_success (burst : Burst rules (.success :: log) times) : times = [] := by
  obtain ⟨⟨newer, older, split, noSuccess, sub⟩, -⟩ := burst
  cases newer with
  | nil => exact map_eq_nil_iff.mp (sublist_nil.mp sub)
  | cons head rest =>
    obtain ⟨rfl, -⟩ := cons_eq_cons.mp split
    exact absurd mem_cons_self noSuccess

/-- The newest entry belongs to the burst, or the burst was there before. -/
theorem Burst.of_cons {entry : Entry} (burst : Burst rules (entry :: log) times) :
    Burst rules log times ∨ ∃ time rest, times = time :: rest ∧ entry = .wrong time ∧ Burst rules log rest := by
  obtain ⟨⟨newer, older, split, noSuccess, sub⟩, close⟩ := burst
  cases newer with
  | nil =>
    obtain rfl := map_eq_nil_iff.mp (sublist_nil.mp sub)
    exact .inl ⟨⟨[], log, rfl, not_mem_nil, Sublist.refl _⟩, close⟩
  | cons head newer =>
    obtain ⟨rfl, tail⟩ := cons_eq_cons.mp split
    have noSuccess' : Entry.success ∉ newer := fun mem => noSuccess (mem_cons_of_mem _ mem)
    rcases sublist_cons_iff.mp sub with before | ⟨rest, split', before⟩
    · exact .inl ⟨⟨newer, older, tail, noSuccess', before⟩, close⟩
    · obtain ⟨time, rest', rfl, rfl, rfl⟩ := map_eq_cons_iff.mp split'
      refine .inr ⟨time, rest', rfl, rfl, ⟨newer, older, tail, noSuccess', before⟩, ?_⟩
      exact fun one isOne other isOther =>
        close one (mem_cons_of_mem _ isOne) other (mem_cons_of_mem _ isOther)

theorem Burst.mem_log (burst : Burst rules log times) (mem : time ∈ times) : .wrong time ∈ log := by
  obtain ⟨⟨newer, older, rfl, -, sub⟩, -⟩ := burst
  exact mem_append_left _ (sub.subset (mem_map_of_mem mem))

namespace History

variable (longer : rules.window ≤ rules.lockTime) (history : History rules clock counter log)

include history

theorem count_nonneg : 0 ≤ counter.count := by
  induction history with
  | start clock nonneg => exact nonneg
  | wait _ _ ih | other _ ih => exact ih
  | reset | success => exact Int.le_refl 0
  | wrong _ _ _ ih => exact Counter.next_nonneg ih

theorem wrong_past (mem : .wrong time ∈ log) : time ≤ clock := by
  induction history with
  | start => exact absurd mem not_mem_nil
  | wait _ later ih => exact Int.le_trans (ih mem) later
  | reset _ _ _ ih => exact ih mem
  | success _ ih | other _ ih =>
    rcases mem_cons.mp mem with same | before
    · cases same
    · exact ih before
  | wrong _ _ _ ih =>
    rcases mem_cons.mp mem with same | before
    · cases same
      exact Int.le_refl _
    · exact ih before

include longer

/-- The counter counts a burst as long as its attempts are not older than the window. -/
theorem counts (burst : Burst rules log times) (mem : time ∈ times) :
    (times.length ≤ counter.count ∧ time ≤ counter.time) ∨ time + rules.window ≤ clock := by
  induction history generalizing times time with
  | start =>
    obtain rfl := burst.of_nil
    exact absurd mem not_mem_nil
  | wait _ later ih => exact (ih burst mem).imp_right fun old => Int.le_trans old later
  | @reset clock found counter log _ passed past ih =>
    refine .inr ?_
    rcases ih burst mem with ⟨-, before⟩ | old
    · omega
    · exact old
  | success =>
    obtain rfl := burst.of_success
    exact absurd mem not_mem_nil
  | other _ ih =>
    rcases burst.of_cons with before | ⟨_, _, _, impossible, _⟩
    · exact ih before mem
    · cases impossible
  | @wrong clock computed counter log history free past ih =>
    dsimp only [Counter.next]
    rcases burst.of_cons with before | ⟨newest, rest, rfl, same, before⟩
    · rcases ih before mem with ⟨counted, earlier⟩ | old
      · have inPast := history.wrong_past (before.mem_log mem)
        split <;> omega
      · exact .inr old
    · cases same
      refine .inl ⟨?_, ?_⟩
      · cases rest with
        | nil =>
          have nonneg := history.count_nonneg
          simp only [length_cons, length_nil]
          split <;> omega
        | cons previous rest =>
          -- an attempt within the window is still counted, so the next count is one more
          have near := burst.close clock mem_cons_self previous (by simp)
          rcases ih before mem_cons_self with ⟨counted, earlier⟩ | old
          · rw [length_cons]
            omega
          · omega
      · rcases mem_cons.mp mem with rfl | inRest
        · exact Int.le_refl _
        · exact history.wrong_past (before.mem_log inRest)

/-- A burst that reaches the limit locks the counter until the lock time after its attempts has passed. -/
theorem locks (burst : Burst rules log times) (full : rules.limit ≤ times.length)
    (mem : time ∈ times) : (counter.Refuses rules ∧ time ≤ counter.time) ∨ time + rules.lockTime ≤ clock := by
  induction history generalizing times time with
  | start =>
    obtain rfl := burst.of_nil
    exact absurd mem not_mem_nil
  | wait _ later ih => exact (ih burst full mem).imp_right fun old => Int.le_trans old later
  | @reset clock found counter log _ passed past ih =>
    refine .inr ?_
    rcases ih burst full mem with ⟨-, before⟩ | old
    · omega
    · exact old
  | success =>
    obtain rfl := burst.of_success
    exact absurd mem not_mem_nil
  | other _ ih =>
    rcases burst.of_cons with before | ⟨_, _, _, impossible, _⟩
    · exact ih before full mem
    · cases impossible
  | @wrong clock computed counter log history free past ih =>
    rcases burst.of_cons with before | ⟨newest, rest, rfl, same, -⟩
    · exact (ih before full mem).imp_left fun refuses => absurd refuses.1 free
    · cases same
      rcases (history.wrong free past).counts longer burst mem with ⟨counted, earlier⟩ | old
      · exact .inl ⟨Int.le_trans full counted, earlier⟩
      · have near := burst.close clock mem_cons_self time mem
        omega

theorem refuses_of_armed (armed : Armed rules log now) (later : clock ≤ now) :
    counter.Refuses rules ∧ now < counter.time + rules.lockTime := by
  obtain ⟨times, burst, full, time, mem, before⟩ := armed
  rcases history.locks longer burst full mem with ⟨refuses, earlier⟩ | passed
  · exact ⟨refuses, by omega⟩
  · omega

end History

end SecurityFabric.Lockout
