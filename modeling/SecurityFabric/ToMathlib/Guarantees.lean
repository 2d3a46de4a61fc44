import Mathlib.Tactic.SplitIfs

/-! # Computations that succeeded

A Go function that returns at the first error is a chain of binds in `Except`. These rules take such a
chain apart once it is known to have succeeded: a bind, a check that would have thrown, an early
return, a loop of checks, and a loop that converts rows.
-/

namespace SecurityFabric

open List

variable {ε α β : Type}
variable {convert : α → Except ε β} {xs : List α} {results : List β} {next : α → Except ε β}

theorem bind_eq_ok {first : Except ε α} {result : β} :
    (first >>= next) = .ok result ↔ ∃ value, first = .ok value ∧ next value = .ok result := by
  constructor
  · intro success
    cases first with
    | error failure => cases success
    | ok value => exact ⟨value, rfl, success⟩
  · rintro ⟨value, rfl, success⟩
    exact success

theorem bind_ok {first : Except ε α} {result : β} (success : (first >>= next) = .ok result) :
    ∃ value, first = .ok value ∧ next value = .ok result :=
  bind_eq_ok.mp success

@[simp] theorem ok_bind (value : α) (next : α → Except ε β) : (Except.ok value >>= next) = next value := rfl

theorem guard_ok {c : Prop} [Decidable c] {failure : ε} {rest : Except ε β} {result : β}
    (passed : (if c then (throw failure : Except ε α) >>= next else rest) = .ok result) : ¬ c ∧ rest = .ok result := by
  split_ifs at passed with holds
  · cases passed
  · exact ⟨holds, passed⟩

theorem return_ok {c : Prop} [Decidable c] {value result : α} {rest : Except ε α}
    (ran : (if c then pure value else rest) = .ok result) :
    c ∧ result = value ∨ ¬ c ∧ rest = .ok result := by
  split_ifs at ran with holds
  · cases ran
    exact .inl ⟨holds, rfl⟩
  · exact .inr ⟨holds, ran⟩

theorem forM_ok {check : α → Except ε Unit} {done : Unit} (passed : xs.forM check = .ok done) :
    ∀ x ∈ xs, check x = .ok () := by
  induction xs with
  | nil => exact fun _ mem => by cases mem
  | cons x rest ih =>
    obtain ⟨_, first, later⟩ := bind_ok passed
    exact forall_mem_cons.mpr ⟨first, ih later⟩

theorem forM_congr {check other : α → Except ε Unit} (same : ∀ x ∈ xs, check x = other x) :
    xs.forM check = xs.forM other := by
  induction xs with
  | nil => rfl
  | cons x rest ih =>
    obtain ⟨first, later⟩ := forall_mem_cons.mp same
    rw [List.forM, List.forM, first, ih later]

theorem mem_mapM_ok (ran : xs.mapM convert = .ok results) (y : β) : y ∈ results ↔ ∃ x ∈ xs, convert x = .ok y := by
  induction xs generalizing results with
  | nil =>
    cases ran
    simp
  | cons x rest ih =>
    rw [mapM_cons] at ran
    obtain ⟨first, converted, ran⟩ := bind_ok ran
    obtain ⟨later, rounds, ran⟩ := bind_ok ran
    cases ran
    simp only [mem_cons, ih rounds, exists_eq_or_imp, converted, Except.ok.injEq]
    exact or_congr_left eq_comm

theorem exists_of_mapM_ok (ran : xs.mapM convert = .ok results) : ∀ x ∈ xs, ∃ y, convert x = .ok y := by
  induction xs generalizing results with
  | nil => exact fun _ mem => by cases mem
  | cons x rest ih =>
    rw [mapM_cons] at ran
    obtain ⟨first, converted, ran⟩ := bind_ok ran
    obtain ⟨later, rounds, _⟩ := bind_ok ran
    exact forall_mem_cons.mpr ⟨⟨first, converted⟩, ih rounds⟩

theorem mapM_ok_map {result : α → β} (each : ∀ x ∈ xs, convert x = .ok (result x)) :
    xs.mapM convert = .ok (xs.map result) := by
  induction xs with
  | nil => rfl
  | cons x rest ih =>
    obtain ⟨first, more⟩ := forall_mem_cons.mp each
    rw [mapM_cons, first, ih more]
    rfl

theorem mapM_map_ok {γ : Type} {write : α → β} {read : β → Except ε γ} {result : α → γ}
    (each : ∀ x ∈ xs, read (write x) = .ok (result x)) :
    (xs.map write).mapM read = .ok (xs.map result) := by
  induction xs with
  | nil => rfl
  | cons x rest ih =>
    obtain ⟨first, more⟩ := forall_mem_cons.mp each
    rw [map_cons, mapM_cons, first, ih more]
    rfl

theorem mapM_ok_of_forall (converts : ∀ x ∈ xs, ∃ y, convert x = .ok y) : ∃ results, xs.mapM convert = .ok results := by
  induction xs with
  | nil => exact ⟨[], rfl⟩
  | cons x rest ih =>
    obtain ⟨⟨first, converted⟩, more⟩ := forall_mem_cons.mp converts
    obtain ⟨later, rounds⟩ := ih more
    exact ⟨first :: later, by rw [mapM_cons, converted, rounds]; rfl⟩

/-! # Programs whose exceptions undo nothing

A program that reads and writes tables and may raise an exception is a computation in `EStateM`. These rules compute its
result on given tables, and take apart a sequence that came to its end.
-/

open EStateM

variable {ε σ α β : Type}

@[simp]
theorem run_tryCatch (body : EStateM ε σ α) (handler : ε → EStateM ε σ α) (state : σ) :
    (tryCatch body handler).run state = match body.run state with
      | .ok value after => .ok value after
      | .error failure after => (handler failure).run after := by
  change (EStateM.tryCatch body handler) state = _
  unfold EStateM.tryCatch EStateM.run
  cases body state <;> rfl

/-- The state in which a program leaves the tables. -/
def afterwards : EStateM.Result ε σ α → σ
  | .ok _ after => after
  | .error _ after => after

/-! ## Programs made of changes and checks

What holds of the state in which a program ends is shown statement by statement: it holds where the statement stops
the program, and it holds at the end of the rest if the statement lets the program go on. -/

/-- A change that is made as a whole or not at all. -/
def attempt (change : σ → Except ε σ) : EStateM ε σ Unit := do
  match change (← get) with
  | .ok after => set after
  | .error failure => throw failure

variable {state : σ} {holds : σ → Prop}

theorem afterwards_check {check : Except ε α} {next : α → EStateM ε σ β} (kept : holds state)
    (goes : ∀ value, check = .ok value → holds (afterwards ((next value).run state))) :
    holds (afterwards ((MonadExcept.ofExcept check >>= next).run state)) := by
  cases check with
  | ok value => exact goes value rfl
  | error failure => exact kept

theorem afterwards_attempt {change : σ → Except ε σ} {next : Unit → EStateM ε σ β} (kept : holds state)
    (goes : ∀ after, change state = .ok after → holds (afterwards ((next ()).run after))) :
    holds (afterwards ((attempt change >>= next).run state)) := by
  cases changed : change state with
  | ok after => simpa [attempt, changed] using goes after changed
  | error failure => simpa [attempt, changed, afterwards] using kept

/-! # What a program that may be stopped guarantees

A program that changes a state and may be stopped in the middle is a computation in `EStateM`. What it guarantees is
said by three conditions: on the state it starts in, on its value and the state it ends in, and on the state in which it
is stopped. The rules follow the program: a sequence, a value, a stop, a choice.
-/

def Guarantees (before : σ → Prop) (program : EStateM ε σ α) (after : α → σ → Prop) (stopped : σ → Prop) : Prop :=
  ∀ state, before state → match program.run state with
    | .ok value final => after value final
    | .error _ final => stopped final

namespace Guarantees

variable {before : σ → Prop} {after : α → σ → Prop} {stopped : σ → Prop} {program : EStateM ε σ α}

theorem bind {next : α → EStateM ε σ β} {result : β → σ → Prop} (first : Guarantees before program after stopped)
    (rest : ∀ value, Guarantees (after value) (next value) result stopped) :
    Guarantees before (program >>= next) result stopped := by
  intro state holds
  have here := first state holds
  rw [run_bind]
  cases ran : program.run state with
  | ok value middle =>
    rw [ran] at here
    exact rest value middle here
  | error failure middle =>
    rw [ran] at here
    exact here

theorem pure {value : α} (holds : ∀ state, before state → after value state) :
    Guarantees (ε := ε) before (Pure.pure value) after stopped := holds

theorem throw {failure : ε} (holds : ∀ state, before state → stopped state) :
    Guarantees before (MonadExcept.throw failure : EStateM ε σ α) after stopped := holds

theorem imp {first : σ → Prop} {last : α → σ → Prop} {halted : σ → Prop}
    (guarantees : Guarantees before program after stopped)
    (starts : ∀ state, first state → before state) (ends : ∀ value state, after value state → last value state)
    (stops : ∀ state, stopped state → halted state) : Guarantees first program last halted := by
  intro state holds
  have here := guarantees state (starts state holds)
  cases ran : program.run state with
  | ok value final =>
    rw [ran] at here
    exact ends value final here
  | error failure final =>
    rw [ran] at here
    exact stops final here

theorem of_and {fact : Prop} (guarantees : fact → Guarantees before program after stopped) :
    Guarantees (fun state => fact ∧ before state) program after stopped :=
  fun state holds => guarantees holds.1 state holds.2

theorem result (guarantees : Guarantees before program after stopped) (holds : before state) :
    (∃ value final, program.run state = .ok value final ∧ after value final) ∨
      ∃ failure final, program.run state = .error failure final ∧ stopped final := by
  have here := guarantees state holds
  cases ran : program.run state with
  | ok value final =>
    rw [ran] at here
    exact .inl ⟨value, final, rfl, here⟩
  | error failure final =>
    rw [ran] at here
    exact .inr ⟨failure, final, rfl, here⟩

theorem of_exists {ι : Type} {cases : ι → σ → Prop}
    (guarantees : ∀ index, Guarantees (cases index) program after stopped) :
    Guarantees (fun state => ∃ index, cases index state) program after stopped :=
  fun state ⟨index, holds⟩ => guarantees index state holds

end Guarantees

end SecurityFabric
