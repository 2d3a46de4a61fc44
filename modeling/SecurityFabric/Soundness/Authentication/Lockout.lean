import SecurityFabric.Proofs.Authentication.Login

/-! # When a right password is refused

Logins to an enabled local account, one after another, where wrong passwords lock the account and images are not asked
for. A right password is refused exactly while the streak of wrong passwords has reached the limit, and the lock time
since the password that completed it has not passed.
-/

namespace SecurityFabric.Authentication

open UserManagement Lockout List

variable {services : LoginServices} {config : LoginConfig} {users : List UserAccount} {row : UserAccount}

/-- The streak that the row of an account stands for. -/
def streakOf (row : UserAccount) : Streak := ⟨row.pwdErrCnt.toNat, row.pwdErrLatestTime⟩

private theorem exists_represents_streakOf {rules : Rules} (nonneg : 0 ≤ row.pwdErrCnt) {times : List Int}
    (past : ∀ time ∈ times, 0 ≤ time ∧ (0 < row.pwdErrCnt → row.pwdErrLatestTime ≤ time)) :
    ∃ clock, Represents rules clock row.storedCounter (streakOf row) ∧ ∀ time ∈ times, clock ≤ time := by
  have same : row.storedCounter.count = (streakOf row).count := (Int.toNat_of_nonneg nonneg).symm
  rcases Int.lt_or_le 0 row.pwdErrCnt with positive | none
  · exact ⟨row.pwdErrLatestTime, .holds same fun _ => ⟨rfl, le_refl _⟩, fun time member =>
      (past time member).2 positive⟩
  · refine ⟨0, .holds same fun positive => ?_, fun time member => (past time member).1⟩
    exact absurd (Int.lt_toNat.mp positive) (not_lt.mpr none)

/-- After any logins to the account, a right password is refused if the streak is locked, and accepted otherwise. -/
theorem right_password_refused_iff_locked (member : row ∈ users)
    (single : ∀ other ∈ users, other.id = row.id → other = row)
    (lockable : Lockable config row) (limit : 1 ≤ config.lock.pwdErrCnt) (lockTime : 5 ≤ config.lock.pwdLockTime)
    (noImage : config.vcodeEnable = false) (nonneg : 0 ≤ row.pwdErrCnt)
    {history : List (Int × LoginRequest)} {now : Int}
    {req : LoginRequest} (isTo : ∀ login ∈ (now, req) :: history, login.2.IsTo services config users row)
    (past : ∀ login ∈ (now, req) :: history, 0 ≤ login.1 ∧ (0 < row.pwdErrCnt → row.pwdErrLatestTime ≤ login.1))
    (ordered : history.Pairwise fun one next => one.1 ≤ next.1) (last : ∀ login ∈ history, login.1 ≤ now)
    (right : req.attempt services false now users row.id = .right) :
    let streak := (streakOf row).attempts (lockRules config) (attemptsOf services users row.id history)
    let answer := (req.login services config now (logins services config users history)).1
    ((∃ error, answer = .error error) ↔ streak.Locked (lockRules config) now) ∧
      (answer = .ok row.id ↔ ¬ streak.Locked (lockRules config) now) := by
  intro streak answer
  obtain ⟨clock, begins, later⟩ := @exists_represents_streakOf row (lockRules config) nonneg
    (((now, req) :: history).map Prod.fst) fun time member => by
      obtain ⟨login, isLogin, rfl⟩ := mem_map.mp member
      exact past login isLogin
  obtain ⟨begun, later⟩ := forall_mem_cons.mp later
  have positive : 0 < (lockRules config).limit := limit
  have longer : (lockRules config).window ≤ (lockRules config).lockTime := by
    change (300 : Int) ≤ config.lock.pwdLockTime * 60
    omega
  have represents : Represents (lockRules config) now
      (row.storedCounter.attempts (lockRules config) (attemptsOf services users row.id history)) streak := by
    refine begins.attempts positive longer begun ?_ (pairwise_map.mpr ordered) ?_
    · exact forall_mem_map.mpr fun login isLogin => later login.1 (mem_map_of_mem isLogin)
    · exact forall_mem_map.mpr last
  have reached : logins services config users history = setCounter users row.id
      (row.storedCounter.attempts (lockRules config) (attemptsOf services users row.id history)) := by
    conv_lhs => rw [← setCounter_self single]
    exact logins_setCounter lockable noImage member (forall_mem_cons.mp isTo).2
      (fun login isLogin => (past login (mem_cons_of_mem _ isLogin)).1) nonneg
  have refuses := represents.refuses_refresh_iff positive longer (le_refl now)
  obtain ⟨error, attempt⟩ := login_setCounter lockable (isTo (now, req) mem_cons_self) member
    (past (now, req) mem_cons_self).1 represents.count_nonneg
  have answers : answer = if streak.Locked (lockRules config) now then .error error else .ok row.id := by
    change (req.login services config now (logins services config users history)).1 = _
    rw [reached, attempt, imageAsked_of_disabled noImage, right]
    simp [refuses]
  rw [answers]
  by_cases locked : streak.Locked (lockRules config) now
  · simp [locked]
  · simp [locked]

open Sample

private theorem loginAs_isTo (password : String) :
    (loginAs password).IsTo plainServices (lockAfter 3) [alice] alice := by
  have found : UserManagement.findAccount .ascii id [alice] "alice" false false = .ok (some alice) := by decide
  exact ⟨found, fun _ _ => by decide⟩

/-- Three wrong passwords lock the account: the right one is refused a minute later and accepted after the ten minutes.
-/
theorem right_password_refused_after_three :
    (∃ error, ((loginAs "alice").login plainServices (lockAfter 3) 62 (logins plainServices (lockAfter 3) [alice]
        [(0, loginAs "a"), (1, loginAs "b"), (2, loginAs "c")])).1 = .error error) ∧
      ((loginAs "alice").login plainServices (lockAfter 3) 602 (logins plainServices (lockAfter 3) [alice]
        [(0, loginAs "a"), (1, loginAs "b"), (2, loginAs "c")])).1 = .ok "user-1" := by
  have lockable : Lockable (lockAfter 3) alice := ⟨rfl, ⟨rfl, rfl⟩, rfl⟩
  have history (now : Int) : ∀ login ∈ [(now, loginAs "alice"), (0, loginAs "a"), (1, loginAs "b"), (2, loginAs "c")],
      login.2.IsTo plainServices (lockAfter 3) [alice] alice := by
    simp [loginAs_isTo]
  have answers (now : Int) (later : 2 ≤ now) := right_password_refused_iff_locked (mem_singleton.mpr rfl)
    (fun other member _ => mem_singleton.mp member) lockable (by decide) (by decide) rfl (le_refl 0) (history now)
    (by simp [alice]; omega) (by decide) (by simp; omega) rfl
  exact ⟨(answers 62 (by decide)).1.mpr (by decide), (answers 602 (by decide)).2.mpr (by decide)⟩

/-! # Racing against the lock

Calls that log in to one enabled local account overlap. The count that a call writes is computed from the row that it
has read, so any number of wrong passwords can be tried before the account is locked.

If each write finds the count and time that its call has read, the log of the calls is a `Lockout.History` of the
counter. Then a call that starts while the log is armed reads a counter that refuses it.
-/

open Machine Function

variable {ι : Type} {calls : ι → LoginRequest}

variable {state : Shared ι (LoginStore ι) LoginPhase} {phase : LoginPhase} {store : LoginStore ι} {i : ι} {now : Int}

section

variable (services config row calls)

/-- What the log says about wrong passwords. -/
def entryOf : LoginEvent ι → Entry
  | .started _ _ => .other
  | .returned _ _ true => .success
  | .returned caller time false => if (calls caller).wrongPassword services row then .wrong time else .other

/-- A call that starts after so many wrong passwords close together, with no success since and before the lock time
after one of them has passed, is not accepted. -/
def LockHolds (state : Shared ι (LoginStore ι) LoginPhase) : Prop :=
  ∀ after caller time before, state.store.log = after ++ .started caller time :: before →
    Armed (lockRules config) (before.map (entryOf services row calls)) time →
    ∀ user, state.phase caller ≠ .finished (.ok user)

variable (req : LoginRequest) (users : List UserAccount) (id : String) (counter : Counter)

/-- The counter of a user is this one. -/
def FindsCounter : Prop := ∀ other ∈ users, other.id = id → other.storedCounter = counter

instance : Decidable (FindsCounter users id counter) := inferInstanceAs (Decidable (∀ other ∈ users, _ → _))

/-- A write finds what its call has read, and a call with a wrong password gets as far as counting it. -/
def LoginPhase.Undisturbed : LoginPhase → Prop
  | .resetting read _ => FindsCounter users read.id read.storedCounter
  | .matched (some info) => req.wrongPassword services row = true →
      tooManyErrors config info = false ∧ req.codeRefused services config info = false
  | .decided (some info) _ => FindsCounter users info.id ⟨info.pwdErrCnt, info.pwdErrLastTime⟩
  | _ => True

instance : (phase : LoginPhase) → Decidable (phase.Undisturbed services config row req users)
  | .resetting _ _ => inferInstanceAs (Decidable (FindsCounter _ _ _))
  | .matched (some _) => inferInstanceAs (Decidable (_ → _ ∧ _))
  | .decided (some _) _ => inferInstanceAs (Decidable (FindsCounter _ _ _))
  | .waiting | .matched none | .decided none _ | .finished _ => .isTrue trivial

/-- The condition on a step. -/
def Undisturbed (state : Shared ι (LoginStore ι) LoginPhase) (label : ι × Int) : Prop :=
  (state.phase label.1).Undisturbed services config row (calls label.1) state.store.users

instance (state : Shared ι (LoginStore ι) LoginPhase) (label : ι × Int) :
    Decidable (Undisturbed services config row calls state label) :=
  inferInstanceAs (Decidable (LoginPhase.Undisturbed ..))

end

private theorem FindsCounter.eq {counter expected : Counter} (member : row ∈ users)
    (finds : FindsCounter (setCounter users row.id counter) row.id expected) : counter = expected :=
  finds (row.withCounter counter) (mem_map.mpr ⟨row, member, if_pos rfl⟩) rfl

variable (services : LoginServices) (config : LoginConfig) (row : UserAccount) (clock : Int) (req : LoginRequest) in
/-- What a call knows in each phase. -/
inductive PhaseKnows : LoginPhase → Prop where
  | waiting : PhaseKnows .waiting
  | resetting {read : Counter} {found : Int} (passed : read.time + (lockRules config).lockTime ≤ found)
      (past : found ≤ clock) : PhaseKnows (.resetting (row.withCounter read) found)
  | matched (read : Counter) : PhaseKnows (.matched (some (handleUserBaseInfo (row.withCounter read))))
  | counting {read : Counter} {computed : Int} {error : LoginError} (free : ¬ read.Refuses (lockRules config))
      (past : computed ≤ clock) (wrong : req.wrongPassword services row = true) :
      PhaseKnows (.decided (some (handleUserBaseInfo (row.withCounter read)))
        (.count row.id (read.next (lockRules config) computed) error))
  | accepting (read : Counter) :
      PhaseKnows (.decided (some (handleUserBaseInfo (row.withCounter read))) (.accept row.id))
  | finished (result : Except LoginError String) : PhaseKnows (.finished result)

private theorem PhaseKnows.mono {clock now : Int} {req : LoginRequest} (later : clock ≤ now)
    (knows : PhaseKnows services config row clock req phase) : PhaseKnows services config row now req phase := by
  cases knows with
  | waiting => exact .waiting
  | resetting passed past => exact .resetting passed (le_trans past later)
  | matched read => exact .matched read
  | counting free past wrong => exact .counting free (le_trans past later) wrong
  | accepting read => exact .accepting read
  | finished result => exact .finished result

/-- The call has read a counter that refuses it, or has been refused. -/
inductive PhaseRefused (config : LoginConfig) (row : UserAccount) : LoginPhase → Prop where
  | matched {read : Counter} (refuses : read.Refuses (lockRules config)) :
      PhaseRefused config row (.matched (some (handleUserBaseInfo (row.withCounter read))))
  | finished (error : LoginError) : PhaseRefused config row (.finished (.error error))

variable {read : Counter}

private theorem PhaseRefused.refuses (refused : PhaseRefused config row
    (.matched (some (handleUserBaseInfo (row.withCounter read))))) :
    read.Refuses (lockRules config) := by
  generalize same : LoginPhase.matched (some (handleUserBaseInfo (row.withCounter read))) = phase at refused
  cases refused with
  | @matched other refuses =>
    have counts : read.count = other.count := congrArg AccountInfo.pwdErrCnt
      (Option.some.inj (LoginPhase.matched.inj same))
    unfold Counter.Refuses at refuses ⊢
    omega
  | finished error => cases same

section

variable (services config users row calls)

/-- The log is a history of the counter. -/
def StoreHistory (store : LoginStore ι) : Prop :=
  0 ≤ store.clock ∧ ∃ counter, store.users = setCounter users row.id counter ∧
    History (lockRules config) store.clock counter (store.log.map (entryOf services row calls))

structure LockInvariant (state : Shared ι (LoginStore ι) LoginPhase) : Prop where
  history : StoreHistory services config users row calls state.store
  knows : ∀ i, PhaseKnows services config row state.store.clock (calls i) (state.phase i)
  refused : ∀ after caller time before, state.store.log = after ++ .started caller time :: before →
    Armed (lockRules config) (before.map (entryOf services row calls)) time →
    PhaseRefused config row (state.phase caller)

end

variable [DecidableEq ι]

/-- An entry that is no start leaves refused calls refused. -/
theorem LockInvariant.refused_update (invariant : LockInvariant services config users row calls state)
    (new : List (LoginEvent ι)) (noStart : ∀ caller time, .started caller time ∉ new)
    (keeps : PhaseRefused config row (state.phase i) → PhaseRefused config row phase) :
    ∀ after caller time before, new ++ state.store.log = after ++ .started caller time :: before →
      Armed (lockRules config) (before.map (entryOf services row calls)) time →
      PhaseRefused config row (Function.update state.phase i phase caller) := by
  intro after caller time before split armed
  have older : ∃ after, state.store.log = after ++ .started caller time :: before := by
    rcases append_eq_append_iff.mp split with ⟨rest, -, same⟩ | ⟨rest, same, started⟩
    · exact ⟨rest, same⟩
    · cases rest with
      | nil => exact ⟨[], started.symm⟩
      | cons event rest =>
        obtain ⟨rfl, -⟩ := cons_eq_cons.mp started
        exact absurd (same ▸ mem_append_right _ mem_cons_self) (noStart caller time)
  obtain ⟨after, log⟩ := older
  have before := invariant.refused after caller time _ log armed
  by_cases own : caller = i
  · subst own
    rw [update_self]
    exact keeps before
  · rw [update_of_ne own]
    exact before

private theorem LockInvariant.knows_update (invariant : LockInvariant services config users row calls state)
    (later : state.store.clock ≤ now) (knows : PhaseKnows services config row now (calls i) phase) (j : ι) :
    PhaseKnows services config row now (calls j) (Function.update state.phase i phase j) :=
  Shared.forall_update (fun j => PhaseKnows services config row now (calls j)) (fun j =>
    (invariant.knows j).mono later) knows j

section Keeps

variable (member : row ∈ users) (single : ∀ other ∈ users, other.id = row.id → other = row)
  (lockable : Lockable config row)
  (lockTime : 5 ≤ config.lock.pwdLockTime) (isTo : ∀ i, (calls i).IsTo services config users row)

include lockable lockTime isTo

omit [DecidableEq ι] lockable isTo in
private theorem window_le_lockTime : (lockRules config).window ≤ (lockRules config).lockTime := by
  change (300 : Int) ≤ config.lock.pwdLockTime * 60
  omega

variable {counter : Counter} {clock : Int} {log : List (LoginEvent ι)} {phases : ι → LoginPhase} (begun : 0 ≤ clock)
  (history : History (lockRules config) clock counter (log.map (entryOf services row calls)))
  (invariant : LockInvariant services config users row calls ⟨⟨setCounter users row.id counter, clock, log⟩, phases⟩)
  (later : clock ≤ now)
  (advanced : (calls i).advance services config i now ⟨setCounter users row.id counter, clock, log⟩ (phases i) =
    some (store, phase))

include begun history invariant later advanced

/-- A call that starts while the log is armed reads a counter that refuses it. -/
theorem LockInvariant.start (waiting : phases i = .waiting) :
    LockInvariant services config users row calls ⟨store, Function.update phases i phase⟩ := by
  rw [waiting, advance_waiting lockable (isTo i) later] at advanced
  cases advanced
  refine ⟨⟨le_trans begun later, counter, rfl, (history.wait later).other⟩, invariant.knows_update later ?_, ?_⟩
  · split
    · rename_i passed
      exact .resetting passed (le_refl _)
    · exact .matched counter
  · intro after caller time before split armed
    rcases cons_eq_append_iff.mp split with ⟨rfl, started⟩ | ⟨rest, rfl, older⟩
    · cases started
      dsimp only
      rw [update_self]
      obtain ⟨refuses, notPassed⟩ := history.refuses_of_armed (window_le_lockTime lockTime) armed later
      rw [if_neg (not_le.mpr notPassed)]
      exact .matched refuses
    · have refused := invariant.refused rest caller time before older armed
      have other : caller ≠ i := by
        rintro rfl
        dsimp only at refused
        rw [waiting] at refused
        cases refused
      dsimp only
      rw [update_of_ne other]
      exact refused

omit lockTime isTo in
include member in
/-- Setting the counter back. -/
theorem LockInvariant.reset {found : Int} (resetting : phases i = .resetting (row.withCounter read) found)
    (passed : read.time + (lockRules config).lockTime ≤ found) (past : found ≤ clock)
    (finds : FindsCounter (setCounter users row.id counter) row.id read) :
    LockInvariant services config users row calls ⟨store, Function.update phases i phase⟩ := by
  obtain rfl := finds.eq member
  rw [resetting, LoginRequest.advance, if_neg (not_lt.mpr later)] at advanced
  dsimp only at advanced
  rw [checkAccountLocked_withCounter lockable, show Counter.refresh _ _ _ = _ from if_pos passed] at advanced
  cases advanced
  refine ⟨⟨le_trans begun later, _, rfl, (history.reset passed past).wait later⟩,
    invariant.knows_update later (.matched _), invariant.refused_update [] (fun _ _ => not_mem_nil) fun refused => ?_⟩
  dsimp only at refused
  rw [resetting] at refused
  cases refused

omit lockTime in
include member single in
/-- Deciding; a call with a wrong password is not turned away here. -/
theorem LockInvariant.decide (matched : phases i = .matched (some (handleUserBaseInfo (row.withCounter read))))
    (counts : (calls i).wrongPassword services row = true →
      tooManyErrors config (handleUserBaseInfo (row.withCounter read)) = false ∧
        (calls i).codeRefused services config (handleUserBaseInfo (row.withCounter read)) = false) :
    LockInvariant services config users row calls ⟨store, Function.update phases i phase⟩ := by
  obtain ⟨error, advances⟩ := @advance_matched services config now users row counter (calls i) ι i clock log read
    lockable (isTo i) later
  rw [matched, advances] at advanced
  have wrong_iff := @attempt_eq_wrong_iff services config now users row read (calls i) member single
  rw [tooManyErrors_withCounter lockable] at counts
  have kept (after : LoginPhase) (finished : read.Refuses (lockRules config) → PhaseRefused config row after)
      (refused : PhaseRefused config row (phases i)) : PhaseRefused config row after := by
    rw [matched] at refused
    exact finished refused.refuses
  -- a call that is turned away does not have a wrong password
  have turnedAway (error : LoginError) (reason : (calls i).wrongPassword services row = false)
      (refuses : some ((⟨setCounter users row.id counter, now, .returned i now false :: log⟩ : LoginStore ι),
        LoginPhase.finished (.error error)) = some (store, phase)) :
      LockInvariant services config users row calls ⟨store, Function.update phases i phase⟩ := by
    cases refuses
    have entry : entryOf services row calls (.returned i now false) = .other := by simp [entryOf, reason]
    refine ⟨⟨le_trans begun later, counter, rfl, ?_⟩, invariant.knows_update later (.finished _),
      invariant.refused_update [.returned i now false] (by simp) (kept _ fun _ => .finished error)⟩
    dsimp only
    rw [map_cons, entry]
    exact (history.wait later).other
  by_cases full : read.Refuses (lockRules config)
  · have reason : (calls i).wrongPassword services row = false :=
      Bool.eq_false_iff.mpr fun wrong => absurd full (of_decide_eq_false (counts wrong).1)
    refine turnedAway error reason ?_
    cases kind : (calls i).attempt services (imageAsked config read.count) now users row.id with
    | right | wrong =>
      rw [kind, decision, if_pos full] at advanced
      exact advanced
    | other =>
      rw [kind] at advanced
      exact advanced
  · cases kind : (calls i).attempt services (imageAsked config read.count) now users row.id with
    | right =>
      rw [kind, decision, if_neg full] at advanced
      cases advanced
      exact ⟨⟨le_trans begun later, counter, rfl, history.wait later⟩, invariant.knows_update later (.accepting read),
        invariant.refused_update [] (fun _ _ => not_mem_nil) (kept _ fun refuses => absurd refuses full)⟩
    | wrong =>
      rw [kind, decision, if_neg full] at advanced
      cases advanced
      exact ⟨⟨le_trans begun later, counter, rfl, history.wait later⟩,
        invariant.knows_update later (.counting full (le_refl now) (wrong_iff.mp kind).1),
        invariant.refused_update [] (fun _ _ => not_mem_nil) (kept _ fun refuses => absurd refuses full)⟩
    | other =>
      rw [kind] at advanced
      refine turnedAway error (Bool.eq_false_iff.mpr fun wrong => ?_) advanced
      cases kind.symm.trans (wrong_iff.mpr ⟨wrong, (counts wrong).2⟩)

omit lockable lockTime isTo in
include member in
/-- A wrong password is counted. -/
theorem LockInvariant.count {computed : Int} {error : LoginError}
    (counting : phases i = .decided (some (handleUserBaseInfo (row.withCounter read)))
      (.count row.id (read.next (lockRules config) computed) error)) (free :
      ¬ read.Refuses (lockRules config)) (past : computed ≤ clock)
    (wrong : (calls i).wrongPassword services row = true)
    (finds : FindsCounter (setCounter users row.id counter) row.id read) :
    LockInvariant services config users row calls ⟨store, Function.update phases i phase⟩ := by
  obtain rfl := finds.eq member
  rw [counting, advance_counting member (le_trans begun later) later
    (Counter.next_nonneg history.count_nonneg)] at advanced
  cases advanced
  have entry : entryOf services row calls (.returned i now false) = .wrong now := by simp [entryOf, wrong]
  refine ⟨⟨le_trans begun later, _, rfl, ?_⟩, invariant.knows_update later (.finished _),
    invariant.refused_update [.returned i now false] (by simp) fun refused => ?_⟩
  · dsimp only
    rw [map_cons, entry]
    exact (history.wait later).wrong free (le_trans past later)
  · dsimp only at refused
    rw [counting] at refused
    cases refused

omit lockable lockTime isTo in
include member in
/-- A call is accepted. -/
theorem LockInvariant.accept {userInfo : Option AccountInfo}
    (accepting : phases i = .decided userInfo (.accept row.id)) :
    LockInvariant services config users row calls ⟨store, Function.update phases i phase⟩ := by
  rw [accepting, LoginRequest.advance, if_neg (not_lt.mpr later)] at advanced
  dsimp only [carryOut] at advanced
  rw [updatePwdErrInfo_setCounter member (le_trans begun later) (le_refl 0)] at advanced
  cases advanced
  refine ⟨⟨le_trans begun later, _, rfl, (history.wait later).success⟩, invariant.knows_update later (.finished _),
    invariant.refused_update [.returned i now true] (by simp) fun refused => ?_⟩
  dsimp only at refused
  rw [accepting] at refused
  cases refused

omit begun history invariant later advanced in
include member single in
/-- A step that meets the condition keeps the invariant. -/
theorem LockInvariant.step {state next : Shared ι (LoginStore ι) LoginPhase} {label : ι × Int}
    (invariant : LockInvariant services config users row calls state)
    (met : Undisturbed services config row calls state label)
    (stepped : loginStep services config calls state label = some next) :
    LockInvariant services config users row calls next := by
  obtain ⟨i, now⟩ := label
  obtain ⟨store, phase, advanced, rfl⟩ := Shared.step_eq_some.mp stepped
  obtain ⟨begun, counter, isCounter, history⟩ := invariant.history
  obtain ⟨⟨users', clock, log⟩, phases⟩ := state
  dsimp only [Undisturbed] at *
  subst isCounter
  have later := clock_le_of_advance advanced
  have knows := invariant.knows i
  dsimp only at knows later
  generalize same : phases i = before at knows met
  cases knows with
  | waiting => exact invariant.start lockable lockTime isTo begun history later advanced same
  | resetting passed past => exact invariant.reset member lockable begun history later advanced same passed past met
  | matched read => exact invariant.decide member single lockable isTo begun history later advanced same met
  | counting free past wrong => exact invariant.count member begun history later advanced same free past wrong met
  | accepting read => exact invariant.accept member begun history later advanced same
  | finished result =>
    rw [same, LoginRequest.advance] at advanced
    split at advanced <;> cases advanced

end Keeps

/-- In every run whose steps meet the condition, the lock holds. -/
theorem lock_holds_of_undisturbed (member : row ∈ users) (single : ∀ other ∈ users, other.id = row.id → other = row)
    (lockable : Lockable config row) (lockTime : 5 ≤ config.lock.pwdLockTime) (nonneg : 0 ≤ row.pwdErrCnt)
    (isTo : ∀ i, (calls i).IsTo services config users row) {clock : Int} (past : 0 ≤ clock) {schedule : List (ι × Int)}
    {final : Shared ι (LoginStore ι) LoginPhase}
    (meets : Meets (loginStep services config calls) (Undisturbed services config row calls)
      (loginStart users clock) schedule)
    (reached : run (loginStep services config calls) (loginStart users clock) schedule = some final) :
    LockHolds services config row calls final := by
  have initially : LockInvariant services config users row calls (loginStart users clock) := by
    refine ⟨⟨past, row.storedCounter, (setCounter_self single).symm, .start clock nonneg⟩, fun _ => .waiting, ?_⟩
    exact fun after caller time before split => absurd split (by simp [loginStart])
  have invariant := invariant_of_meets (LockInvariant services config users row calls)
    (fun kept met stepped => kept.step member single lockable lockTime isTo met stepped) initially meets reached
  intro after caller time before split armed user accepted
  have refused := invariant.refused after caller time before split armed
  rw [accepted] at refused
  cases refused

namespace Sample

/-- Three calls with a wrong password and one with the right one. -/
def threeGuesses (i : Fin 4) : LoginRequest := loginAs (if i = 3 then "alice" else "guess")

def guessesInTurn : List (Fin 4 × Int) :=
  [(0, 0), (0, 0), (0, 0), (1, 1), (1, 1), (1, 1), (2, 2), (2, 2), (2, 2), (3, 3), (3, 3)]

def guessesAtOnce : List (Fin 4 × Int) :=
  [(0, 0), (1, 0), (2, 0), (0, 1), (1, 1), (2, 1), (0, 2), (1, 2), (2, 2), (3, 3), (3, 3), (3, 3)]

end Sample

open Sample

/-- Guesses in turn lock the account. -/
theorem lock_holds_of_undisturbed_in_turn :
    ∃ final, run (loginStep plainServices (lockAfter 3) threeGuesses) (loginStart [alice] 0)
      guessesInTurn = some final ∧
      final.store.log = [.returned 3 3 false, .started 3 3, .returned 2 2 false, .started 2 2, .returned 1 1 false,
        .started 1 1, .returned 0 0 false, .started 0 0] ∧
        LockHolds plainServices (lockAfter 3) alice threeGuesses final := by
  have meets : Meets (loginStep plainServices (lockAfter 3) threeGuesses)
      (Undisturbed plainServices (lockAfter 3) alice threeGuesses) (loginStart [alice] 0) guessesInTurn := by decide
  refine ⟨_, rfl, by decide, ?_⟩
  exact lock_holds_of_undisturbed (mem_singleton.mpr rfl) (fun other member _ => mem_singleton.mp member)
    ⟨rfl, ⟨rfl, rfl⟩, rfl⟩ (by decide) (le_refl 0) (fun _ => loginAs_isTo _) (le_refl 0) meets rfl

/-- Guesses that overlap all write the count one, and the right password is accepted after as many as the limit. -/
theorem overlapping_guesses_do_not_lock :
    ∃ final, run (loginStep plainServices (lockAfter 3) threeGuesses) (loginStart [alice] 0)
      guessesAtOnce = some final ∧ ¬ LockHolds plainServices (lockAfter 3) alice threeGuesses final := by
  refine ⟨_, rfl, fun holds => ?_⟩
  have armed : Armed (lockRules (lockAfter 3)) [.wrong 2, .wrong 2, .wrong 2, .other, .other, .other] 3 :=
    ⟨[2, 2, 2], ⟨⟨[.wrong 2, .wrong 2, .wrong 2], _, rfl, by decide, Sublist.refl _⟩, by decide⟩, by decide,
      2, by decide, by decide⟩
  exact holds [.returned 3 3 true] 3 3 _ rfl armed "user-1" rfl

end SecurityFabric.Authentication
