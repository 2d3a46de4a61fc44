import Mathlib.Logic.Function.Basic

/-! # Runs of a system that takes labelled steps

A step function gives the next state for a label, or none if the label is not enabled. A run is a list
of labels, so a statement about every list is about every schedule. `Meets` asks each step
of a run for a condition on the state before it. An invariant that every such step keeps holds wherever the run ends.

The second half has parties that act on one shared store, each with a phase of its own that the others do not see.
-/

namespace SecurityFabric.Machine

open Function Option

section Labelled

variable {σ α : Type}

/-- The state a list of labels leads to, if each is enabled in its turn. -/
def run (step : σ → α → Option σ) : σ → List α → Option σ
  | state, [] => some state
  | state, label :: rest => (step state label).bind fun next => run step next rest

/-- What holds wherever a run can end. -/
def Always (step : σ → α → Option σ) (start : σ) (property : σ → Prop) : Prop :=
  ∀ labels, ∀ final ∈ run step start labels, property final

/-- Every step of a run meets a condition on the state before it and its label. -/
def Meets (step : σ → α → Option σ) (condition : σ → α → Prop) : σ → List α → Prop
  | _, [] => True
  | state, label :: rest =>
    condition state label ∧ ∀ next ∈ step state label, Meets step condition next rest

instance decidableMeets (step : σ → α → Option σ) (condition : σ → α → Prop)
    [∀ state label, Decidable (condition state label)] :
    (state : σ) → (labels : List α) → Decidable (Meets step condition state labels)
  | _, [] => .isTrue trivial
  | state, label :: rest =>
    have (next : σ) := decidableMeets step condition next rest
    inferInstanceAs (Decidable (condition state label ∧ ∀ next ∈ step state label, Meets step condition next rest))

variable {step : σ → α → Option σ} {final : σ}

theorem run_cons {state : σ} {label : α} {rest : List α} :
    run step state (label :: rest) = some final ↔ ∃ next, step state label = some next ∧
    run step next rest = some final :=
  bind_eq_some_iff

theorem Meets.cons {condition : σ → α → Prop} {state next : σ} {label : α} {rest : List α} (met : condition state label)
    (stepped : step state label = some next) (later : Meets step condition next rest) :
    Meets step condition state (label :: rest) := by
  refine ⟨met, fun other same => ?_⟩
  obtain rfl : next = other := some.inj (stepped.symm.trans same)
  exact later

variable {condition : σ → α → Prop} {labels : List α} {start : σ}

theorem Meets.imp {other : σ → α → Prop} (implies : ∀ {state label}, condition state label → other state label)
    (meets : Meets step condition start labels) : Meets step other start labels := by
  induction labels generalizing start with
  | nil => trivial
  | cons label rest ih => exact ⟨implies meets.1, fun next stepped => ih (meets.2 next stepped)⟩

variable (invariant : σ → Prop)

section Kept

variable (keeps : ∀ {state next label}, invariant state → condition state label →
  step state label = some next → invariant next)
  (initially : invariant start) (meets : Meets step condition start labels)

include keeps initially meets

theorem invariant_of_meets (reached : run step start labels = some final) : invariant final := by
  induction labels generalizing start with
  | nil => exact some.inj reached ▸ initially
  | cons label rest ih =>
    obtain ⟨next, stepped, later⟩ := run_cons.mp reached
    exact ih (keeps initially meets.1 stepped) (meets.2 next stepped) later

theorem Meets.and_invariant : Meets step (fun state label => invariant state ∧ condition state label) start labels := by
  induction labels generalizing start with
  | nil => trivial
  | cons label rest ih =>
    exact ⟨⟨initially, meets.1⟩, fun next stepped => ih (keeps initially meets.1 stepped) (meets.2 next stepped)⟩

end Kept

/-- A run with a step that does not meet the condition is cut at the first such step. -/
theorem exists_of_not_meets (reached : run step start labels = some final)
    (fails : ¬ Meets step condition start labels) :
    ∃ before label after state, Meets step condition start before ∧ run step start before = some state ∧
      run step state (label :: after) = some final ∧ ¬ condition state label := by
  induction labels generalizing start with
  | nil => exact absurd trivial fails
  | cons label rest ih =>
    by_cases met : condition start label
    · obtain ⟨next, stepped, later⟩ := run_cons.mp reached
      obtain ⟨before, bad, after, state, good, upTo, onwards, unmet⟩ :=
        ih later fun meets => fails (.cons met stepped meets)
      exact ⟨label :: before, bad, after, state, .cons met stepped good,
        run_cons.mpr ⟨next, stepped, upTo⟩, onwards, unmet⟩
    · exact ⟨[], label, rest, start, trivial, rfl, reached, met⟩

theorem invariant_of_run (keeps : ∀ {state next label}, invariant state → step state label = some next → invariant next)
    (initially : invariant start) (reached : run step start labels = some final) : invariant final := by
  induction labels generalizing start with
  | nil => exact some.inj reached ▸ initially
  | cons label rest ih =>
    obtain ⟨next, stepped, later⟩ := run_cons.mp reached
    exact ih (keeps initially stepped) later

end Labelled

/-- How a statement of a handler goes: it is executed at some time, or fails and changes nothing. -/
inductive StatementChoice where
  | proceed (now : Int)
  | fail
deriving DecidableEq, Repr

variable {ι S P C : Type} [DecidableEq ι]

/-- The store and how far each party has got. -/
structure Shared (ι S P : Type) where
  store : S
  phase : ι → P

namespace Shared

/-- One party takes a step; the choice resolves what is open in it. -/
def step (advance : ι → C → S → P → Option (S × P)) (state : Shared ι S P) (label : ι × C) : Option (Shared ι S P) :=
  (advance label.1 label.2 state.store (state.phase label.1)).map fun after =>
    ⟨after.1, Function.update state.phase label.1 after.2⟩

variable {advance : ι → C → S → P → Option (S × P)}

theorem step_eq_some {state next : Shared ι S P} {label : ι × C} : step advance state label = some next ↔
    ∃ store phase, advance label.1 label.2 state.store (state.phase label.1) = some (store, phase) ∧
      next = ⟨store, Function.update state.phase label.1 phase⟩ := by
  constructor
  · intro stepped
    obtain ⟨⟨store, phase⟩, advanced, same⟩ := map_eq_some_iff.mp stepped
    exact ⟨store, phase, advanced, same.symm⟩
  · rintro ⟨store, phase, advanced, rfl⟩
    exact map_eq_some_iff.mpr ⟨_, advanced, rfl⟩

theorem forall_update (holds : ι → P → Prop) {phases : ι → P} (all : ∀ i, holds i (phases i)) {i : ι} {phase : P}
    (new : holds i phase) (j : ι) : holds j (Function.update phases i phase j) :=
  (forall_update_iff _ holds).mpr ⟨new, fun other _ => all other⟩ j

/-- A property of the store and a property of each phase by itself, when a step of any party keeps both. -/
theorem invariant_of_parties {condition : Shared ι S P → ι × C → Prop} (good : S → Prop) (holds : ι → P → Prop)
    (keeps : ∀ {state : Shared ι S P} {i choice store phase}, good state.store → holds i (state.phase i) →
      condition state (i, choice) → advance i choice state.store (state.phase i) = some (store, phase) →
      good store ∧ holds i phase) {labels : List (ι × C)} {start final : Shared ι S P} (initially : good start.store)
    (phases : ∀ i, holds i (start.phase i)) (meets : Meets (step advance) condition start labels)
    (reached : run (step advance) start labels = some final) : good final.store ∧ ∀ i, holds i (final.phase i) := by
  refine invariant_of_meets (fun state => good state.store ∧
    ∀ i, holds i (state.phase i)) ?_ ⟨initially, phases⟩ meets reached
  rintro state next ⟨i, choice⟩ ⟨kept, all⟩ met stepped
  obtain ⟨store, phase, advanced, rfl⟩ := step_eq_some.mp stepped
  obtain ⟨after, new⟩ := keeps kept (all i) met advanced
  exact ⟨after, forall_update holds all new⟩

/-! # Secrets that are used once

Parties on a shared store use a secret that the store holds and that is never put back. If each use finds the secret and
takes it away in the same step, there is one use.

Often a party reads the secret, uses it in a later step, and takes it away in one later still, and holds it in between.
There is one use if nobody starts to hold the secret while another party does, and if a party that has used it lets it
go only when it is gone. In any case nobody finds the secret after a party has taken it away.
-/

variable {condition : Shared ι S P → ι × C → Prop} {present : S → Prop} {holds used : ι → P → Prop}

theorem of_update {property : ι → P → Prop} {phases : ι → P} {i j : ι} {phase : P}
    (after : property j (Function.update phases i phase j)) :
    j = i ∧ property i phase ∨ j ≠ i ∧ property j (phases j) :=
  (pred_update property phases i phase j).mp after

/-- Whoever has the one property and whoever has the other are one party, also when a party has taken a step. -/
theorem unique_update {first second : ι → P → Prop} {phases : ι → P} {i : ι} {phase : P}
    (unique : ∀ j k, first j (phases j) → second k (phases k) → j = k)
    (left : ∀ k, first i phase → second k (phases k) → i = k)
    (right : ∀ j, first j (phases j) → second i phase → j = i) (j k : ι)
    (isFirst : first j (Function.update phases i phase j))
    (isSecond : second k (Function.update phases i phase k)) : j = k := by
  rcases of_update isFirst with ⟨rfl, own⟩ | ⟨-, other⟩
  · rcases of_update isSecond with ⟨rfl, _⟩ | ⟨-, other⟩
    · rfl
    · exact left k own other
  · rcases of_update isSecond with ⟨rfl, own⟩ | ⟨-, another⟩
    · exact right j other own
    · exact unique j k other another

/-- A use finds the secret and takes it away. -/
structure TakeStep (present : S → Prop) (used : ι → P → Prop) (state : Shared ι S P) (i : ι) (store : S) (phase : P) :
    Prop where
  lasting : present store → present state.store
  take : used i phase → used i (state.phase i) ∨ present state.store ∧ ¬ present store

variable {labels : List (ι × C)} {start final : Shared ι S P}

/-- If every use finds the secret and takes it away, it is used once. -/
theorem used_once_of_take (steps : ∀ {state : Shared ι S P} {i choice store phase}, condition state (i, choice) →
      advance i choice state.store (state.phase i) = some (store, phase) → TakeStep present used state i store phase)
    (unused : ∀ i, ¬ used i (start.phase i))
    (meets : Meets (step advance) condition start labels) (reached : run (step advance) start labels = some final) :
    ∀ i j, used i (final.phase i) → used j (final.phase j) → i = j := by
  refine (invariant_of_meets (fun state => (∀ i, used i (state.phase i) → ¬ present state.store) ∧
    ∀ i j, used i (state.phase i) → used j (state.phase j) → i = j) ?_
    ⟨fun i isUsed => absurd isUsed (unused i), fun i _ isUsed => absurd isUsed (unused i)⟩ meets reached).2
  rintro state next ⟨i, choice⟩ ⟨gone, one⟩ met stepped
  obtain ⟨store, phase, advanced, rfl⟩ := step_eq_some.mp stepped
  have facts := steps met advanced
  -- a use by another party has taken the secret away before this step
  have firstUse (j : ι) (other : used j (state.phase j)) (own : used i phase) : used i (state.phase i) :=
    (facts.take own).resolve_right fun found => gone j other found.1
  constructor
  · intro j isUsed stillThere
    rcases of_update isUsed with ⟨-, own⟩ | ⟨-, other⟩
    · rcases facts.take own with before | ⟨_, taken⟩
      · exact gone i before (facts.lasting stillThere)
      · exact taken stillThere
    · exact gone j other (facts.lasting stillThere)
  · exact unique_update one (fun k own other => one i k (firstUse k other own) other)
      fun j other own => one j i other (firstUse j other own)

/-- A party starts to hold the secret when it is there and nobody else holds it, uses it while holding it,
and lets it go after a use only when it is gone. -/
structure UseStep (present : S → Prop) (holds used : ι → P → Prop) (state : Shared ι S P) (i : ι) (store : S)
    (phase : P) : Prop where
  lasting : present store → present state.store
  start : holds i phase → holds i (state.phase i) ∨ present state.store ∧ ∀ j, ¬ holds j (state.phase j)
  use : used i phase → used i (state.phase i) ∨ holds i (state.phase i)
  letGo : used i phase → holds i phase ∨ ¬ present store ∨ used i (state.phase i) ∧ ¬ holds i (state.phase i)

/-- One party holds or has used the secret, and a use that is finished has taken it away. -/
structure Exclusive (present : S → Prop) (holds used : ι → P → Prop) (state : Shared ι S P) : Prop where
  spent : ∀ i, used i (state.phase i) → holds i (state.phase i) ∨ ¬ present state.store
  holder : ∀ i j, holds i (state.phase i) → holds j (state.phase j) → i = j
  userHolder : ∀ i j, used i (state.phase i) → holds j (state.phase j) → i = j
  user : ∀ i j, used i (state.phase i) → used j (state.phase j) → i = j

theorem Exclusive.step {state : Shared ι S P} {i : ι} {store : S} {phase : P}
    (exclusive : Exclusive present holds used state)
    (facts : UseStep present holds used state i store phase) :
    Exclusive present holds used ⟨store, Function.update state.phase i phase⟩ := by
  -- whoever else holds or has used the secret, the party of this step did not just start
  have heldBefore (j : ι) (other : holds j (state.phase j) ∨ used j (state.phase j)) (own : holds i phase) :
      holds i (state.phase i) := by
    refine (facts.start own).resolve_right fun ⟨there, nobody⟩ => ?_
    rcases other with held | isUsed
    · exact nobody j held
    · exact (exclusive.spent j isUsed).elim (nobody j) (absurd there)
  constructor
  · intro j isUsed
    rcases of_update isUsed with ⟨rfl, own⟩ | ⟨different, other⟩
    · dsimp only
      rw [update_self]
      rcases facts.letGo own with held | gone | ⟨before, free⟩
      · exact .inl held
      · exact .inr gone
      · exact .inr fun there => ((exclusive.spent j before).resolve_left free) (facts.lasting there)
    · dsimp only
      rw [update_of_ne different]
      exact (exclusive.spent j other).imp_right fun gone there => gone (facts.lasting there)
  · exact unique_update exclusive.holder (fun k own other => exclusive.holder i k (heldBefore k (.inl other) own) other)
      fun j other own => exclusive.holder j i other (heldBefore j (.inl other) own)
  · exact unique_update exclusive.userHolder
      (fun k own other => (facts.use own).elim (exclusive.userHolder i k · other) (exclusive.holder i k · other))
      fun j other own => exclusive.userHolder j i other (heldBefore j (.inr other) own)
  · exact unique_update exclusive.user
      (fun k own other => (facts.use own).elim (exclusive.user i k · other) fun held =>
        (exclusive.userHolder k i other held).symm)
      fun j other own => (facts.use own).elim (exclusive.user j i other) (exclusive.userHolder j i other)

/-- If nobody starts to hold the secret while another party does, it is used once. -/
theorem exclusive_of_meets (steps : ∀ {state : Shared ι S P} {i choice store phase}, condition state (i, choice) →
      advance i choice state.store (state.phase i) = some (store, phase) →
      UseStep present holds used state i store phase)
    (unused : ∀ i, ¬ used i (start.phase i)) (free : ∀ i, ¬ holds i (start.phase i))
    (meets : Meets (step advance) condition start labels)
    (reached : run (step advance) start labels = some final) : Exclusive present holds used final := by
  refine invariant_of_meets (Exclusive present holds used) ?_ ⟨fun i isUsed => absurd isUsed (unused i),
    fun i _ held => absurd held (free i), fun i _ isUsed => absurd isUsed (unused i),
    fun i _ isUsed => absurd isUsed (unused i)⟩ meets reached
  rintro state next ⟨i, choice⟩ exclusive met stepped
  obtain ⟨store, phase, advanced, rfl⟩ := step_eq_some.mp stepped
  exact exclusive.step (steps met advanced)

/-- A party that spends the secret takes it away, and one that has not found it finds it only while it is there. -/
structure SpendStep (present : S → Prop) (unfound spent : ι → P → Prop) (state : Shared ι S P) (i : ι) (store : S)
    (phase : P) : Prop where
  lasting : present store → present state.store
  find : unfound i (state.phase i) → ¬ present state.store → unfound i phase
  spend : spent i phase → ¬ present store

/-- Once the secret is spent, nobody finds it any more. -/
theorem unfound_of_spent {unfound spent : ι → P → Prop} (steps : ∀ {state : Shared ι S P} {i choice store phase},
      advance i choice state.store (state.phase i) = some (store, phase) →
      SpendStep present unfound spent state i store phase)
    (unspent : ∀ i, ¬ spent i (start.phase i)) :
    Always (step advance) start fun state => (∃ i, spent i (state.phase i)) →
      Always (step advance) state fun later => ∀ j, unfound j (state.phase j) → unfound j (later.phase j) := by
  rintro labels middle reached ⟨i, isSpent⟩ more later onwards
  have gone : ∀ i, spent i (middle.phase i) → ¬ present middle.store := by
    refine invariant_of_run (fun state : Shared ι S P => ∀ i, spent i (state.phase i) → ¬ present state.store) ?_
      (fun i isSpent => absurd isSpent (unspent i)) reached
    intro state next label gone stepped j isSpent there
    obtain ⟨store, phase, advanced, rfl⟩ := step_eq_some.mp stepped
    rcases of_update isSpent with ⟨-, own⟩ | ⟨-, other⟩
    · exact (steps advanced).spend own there
    · exact gone j other ((steps advanced).lasting there)
  refine (invariant_of_run (fun state : Shared ι S P => ¬ present state.store ∧
    ∀ j, unfound j (middle.phase j) → unfound j (state.phase j)) ?_ ⟨gone i isSpent, fun _ => id⟩ onwards).2
  rintro state next label ⟨gone, all⟩ stepped
  obtain ⟨store, phase, advanced, rfl⟩ := step_eq_some.mp stepped
  exact ⟨fun there => gone ((steps advanced).lasting there),
    forall_update (fun j phase => unfound j (middle.phase j) → unfound j phase) all fun before =>
      (steps advanced).find (all label.1 before) gone⟩

end Shared

end SecurityFabric.Machine
