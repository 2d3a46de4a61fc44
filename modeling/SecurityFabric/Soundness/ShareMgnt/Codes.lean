import SecurityFabric.Proofs.ShareMgnt.ModifyPassword

/-! # Guesses of a code

The number of errors is read, added to and written back in two statements. If no call reads or writes while another one
has yet to write, each guess is counted.
-/

namespace SecurityFabric.ShareMgnt

section

open Machine Function List VerifyPhase

variable {ι : Type} [DecidableEq ι] {settings : Settings} {calls : VerifyCalls ι}
  {start state next : Shared ι VcodeTable VerifyPhase}
  {row : VcodeInfo} {now : Int}

private theorem getVcode_updateVcodeErrCnt {vcodes : List VcodeInfo} {uuid : String} {vcodeType : VcodeType}
    (read : getVcode vcodes uuid vcodeType = some row) (vcodeErrorCnt : Int) :
    getVcode (updateVcodeErrCnt vcodes vcodeErrorCnt uuid) uuid vcodeType = some { row with vcodeErrorCnt } := by
  have own : row.uuid = uuid ∧ row.vcodeType = vcodeType := by simpa using find?_some read
  have kept : (fun row : VcodeInfo => decide (row.uuid = uuid ∧ row.vcodeType = vcodeType)) ∘
      (fun row => if row.uuid = uuid then { row with vcodeErrorCnt } else row) = fun row =>
        decide (row.uuid = uuid ∧ row.vcodeType = vcodeType) := by
    funext row
    dsimp only [comp]
    split_ifs <;> rfl
  rw [getVcode, updateVcodeErrCnt, find?_map, kept, show find? _ vcodes = some row from
    read, Option.map_some, if_pos own.1]

private theorem checkVcode_of_limit (vcode : String) (many : 3 ≤ row.vcodeErrorCnt) :
    ∃ failure, checkVcode settings now row vcode = .error (failure, none) :=
  ⟨_, if_pos (by omega)⟩

private theorem checkVcode_counts {vcode : String} {failure : Failure} {cnt : Int}
    (counted : checkVcode settings now row vcode = .error (failure, some cnt)) : row.vcodeErrorCnt < cnt := by
  unfold checkVcode at counted
  dsimp only at counted
  split_ifs at counted <;> cases counted <;> omega

/-- No other call has yet to write. -/
def Unhurried (state : Shared ι VcodeTable VerifyPhase) (label : ι × Int) : Prop :=
  ∀ j ≠ label.1, ∀ cnt failure, state.phase j ≠ counting cnt failure

/-- The row has counted every guess, and what is yet to be written is more. -/
def Counted (calls : VerifyCalls ι) (state : Shared ι VcodeTable VerifyPhase) : Prop :=
  ∃ row, getVcode state.store.vcodes calls.uuidIn calls.vcodeType = some row ∧ state.store.guesses ≤ row.vcodeErrorCnt ∧
    ∀ i cnt failure, state.phase i = counting cnt failure → row.vcodeErrorCnt < cnt

private theorem counted_of_unhurried {label : ι × Int} (counted : Counted calls state)
    (unhurried : Unhurried state label)
    (stepped : Shared.step (calls.advance settings) state label = some next) : Counted calls next := by
  obtain ⟨row, read, guessed, more⟩ := counted
  obtain ⟨table, phase, advanced, rfl⟩ := Shared.step_eq_some.mp stepped
  cases before : state.phase label.1 with
  | waiting =>
    rw [before] at advanced
    cases advanced
    refine ⟨row, read, guessed, fun i cnt failure isCounting => ?_⟩
    by_cases own : i = label.1
    · simp only [own, update_self, read] at isCounting
      rcases checked : checkVcode settings label.2 row (calls.vcodeIn label.1) with ⟨failure, _ | cnt⟩ | _
      · simp [checked] at isCounting
      · simp only [checked, counting.injEq] at isCounting
        exact isCounting.1 ▸ checkVcode_counts checked
      · simp [checked] at isCounting
    · exact more i cnt failure ((update_of_ne own _ _).symm.trans isCounting)
  | counting cnt failure =>
    rw [before] at advanced
    cases advanced
    have written := more _ _ _ before
    refine ⟨_, getVcode_updateVcodeErrCnt read cnt, by dsimp only; omega, fun i count failure isCounting => ?_⟩
    by_cases own : i = label.1
    · simp [own] at isCounting
    · exact absurd ((update_of_ne own _ _).symm.trans isCounting) (unhurried i own count failure)
  | finished result =>
    rw [before] at advanced
    cases advanced

/-- No call accepts an old code. After three guesses, made while no other call had yet to write, every call is refused.
-/
theorem guesses_limited {labels : List (ι × Int)}
    (read : getVcode start.store.vcodes calls.uuidIn calls.vcodeType = some row)
    (counts : 0 ≤ row.vcodeErrorCnt) (new : start.store.guesses = 0) (isWaiting : ∀ i, start.phase i = waiting)
    (ran : run (Shared.step (calls.advance settings)) start labels = some state) {i : ι}
    (waits : state.phase i = waiting) (stepped : Shared.step (calls.advance settings) state (i, now) = some next) :
    (next.phase i = finished (.ok ()) → ∀ row ∈ getVcode state.store.vcodes calls.uuidIn calls.vcodeType, now ≤
      row.createtime + 5 * 60) ∧
    (Meets (Shared.step (calls.advance settings)) Unhurried start labels → 3 ≤ state.store.guesses →
      ∃ failure, next.phase i = finished (.error failure)) := by
  obtain ⟨table, phase, advanced, rfl⟩ := Shared.step_eq_some.mp stepped
  rw [waits] at advanced
  cases advanced
  dsimp only
  rw [update_self]
  constructor
  · intro accepted row isRow
    simp only [Option.mem_def.mp isRow] at accepted
    rcases checked : checkVcode settings now row (calls.vcodeIn i) with ⟨failure, _ | cnt⟩ | _
    · simp [checked] at accepted
    · simp [checked] at accepted
    · exact (checkVcode_ok_iff.mp checked).2.2.2
  · intro unhurried many
    have initially : Counted calls start := ⟨row, read, by omega, fun i cnt failure => by simp [isWaiting i]⟩
    obtain ⟨row, read, guessed, -⟩ := invariant_of_meets _ counted_of_unhurried initially unhurried ran
    obtain ⟨failure, refused⟩ : ∃ failure, checkVcode settings now row (calls.vcodeIn i) = _ :=
      checkVcode_of_limit _ (by omega)
    exact ⟨failure, by simp [read, refused]⟩

open Sample

/-- Calls without a code, but for the last one. -/
def guessers : VerifyCalls Nat := ⟨"uuid-1", .numVcode, fun i => if i = 4 then "123456" else ""⟩

def unguessed : Shared Nat VcodeTable VerifyPhase := ⟨⟨[resetCode], 0⟩, fun _ => waiting⟩

/-- Three guesses one after the other: the right code is refused. Without them it is accepted while it is young. -/
theorem guesses_limited_in_turn :
    (∃ state next, run (Shared.step (guessers.advance withoutLock)) unguessed ([0, 0, 1, 1, 2, 2].map (·, 0)) =
      some state ∧ Shared.step (guessers.advance withoutLock) state (4, 0) = some next ∧
      ∃ failure, next.phase 4 = finished (.error failure)) ∧
    ∃ next, Shared.step (guessers.advance withoutLock) unguessed (4, 10) = some next ∧
      next.phase 4 = finished (.ok ()) ∧ (10 : Int) ≤ resetCode.createtime + 5 * 60 := by
  constructor
  · refine ⟨_, _, rfl, rfl, ?_⟩
    refine (@guesses_limited _ _ withoutLock guessers unguessed _ _ resetCode 0 ([0, 0, 1, 1, 2, 2].map (·, 0))
      rfl (by decide) rfl (fun _ => rfl) rfl 4 rfl rfl).2 ?_ (by decide)
    -- whoever acts, the others have not read yet or have written already
    refine .cons ?_ rfl (.cons ?_ rfl (.cons ?_ rfl (.cons ?_ rfl (.cons ?_ rfl (.cons ?_ rfl trivial))))) <;>
      rintro (_ | _ | _ | j) other cnt failure <;> first | exact absurd rfl other | exact nofun
  · refine ⟨_, rfl, rfl, ?_⟩
    exact (@guesses_limited _ _ withoutLock guessers unguessed _ _ resetCode 10 [] rfl (by decide)
      rfl (fun _ => rfl) rfl
      4 rfl rfl).1 rfl _ rfl

/-- Four guesses that read the same number of errors, and the right code is still accepted. -/
theorem guesses_lost : ∃ state next, run (Shared.step (guessers.advance withoutLock)) unguessed
      ([0, 1, 2, 3, 0, 1, 2, 3].map (·, 0)) = some state ∧ state.store.guesses = 4 ∧
    Shared.step (guessers.advance withoutLock) state (4, 0) = some next ∧ next.phase 4 = finished (.ok ()) :=
  ⟨_, _, rfl, rfl, rfl, rfl⟩

end

/-! # What a reset code opens

The row of a code names no account. Whoever knows the code can change the password of every user whose password can be
changed at all, and the code opens at most one account exactly if there is at most one such user. It is deleted after
the password has been stored, so calls that overlap can all use it, within five minutes of its creation. If no call
verifies the code while another one works with it, and its deletion does not fail, one call at most changes a password.
No later call does.
-/

open Machine List Option ResetCall

variable (settings : Settings)

/-- Some call with the code changes the password of the user. -/
def CanChange (tables : Tables) (code : VcodeInfo) (user : DbUser) : Prop := ∃ now account oldPassword newPassword,
    ∃ row ∈ (afterwards ((modifyPassword settings now account oldPassword newPassword ⟨code.uuid, code.vcode, true⟩).run
    tables)).users,
      row.userId = user.userId ∧ (row.password ≠ user.password ∨ row.sha2Password ≠ user.sha2Password)

/-- The code has content and was not entered wrongly too often. -/
def VcodeInfo.Usable (code : VcodeInfo) : Prop := code.uuid ≠ "" ∧ code.vcode ≠ "" ∧ code.vcodeErrorCnt < 3

/-- A new password that the service accepts. -/
def Acceptable (newPassword : String) : Prop :=
  checkNotInitial settings newPassword = .ok () ∧ checkPasswordValid settings newPassword = .ok ()

/-- The password of the user can be changed while the code is valid: the user is a local one, without password control,
not locked all the time, and does not have the only password that is accepted. -/
def Resettable (code : VcodeInfo) (user : DbUser) : Prop :=
  user.authType = .localUser ∧ user.pwdControl = false ∧
    (∃ now ≤ code.createtime + 5 * 60, ¬ user.LockedAt settings now) ∧
    ∃ newPassword, Acceptable settings newPassword ∧ (user.password ≠ "" ∨
    settings.sha2Encrypt newPassword ≠ user.sha2Password)

variable {settings} {tables : Tables} {code : VcodeInfo} {user : DbUser} {now : Int} {call : ResetCall}

private theorem run_modifyPassword_of_accepts {loginName : String} (keys : UserKeys settings tables.users)
    (accepts : Accepts settings now tables call user loginName) (oldPassword : String) :
    (modifyPassword settings now call.account oldPassword call.newPassword call.option).run tables =
      .ok () (resetTables settings now tables call user loginName) := by
  obtain ⟨results, read, right⟩ := accepts.code
  have run := run_modifyMatched_of_code oldPassword keys accepts.named read right accepts.modifiable.1
    accepts.modifiable.2 (matchUser_some keys accepts.matched)
  rw [if_neg accepts.unlocked, accepts.valid] at run
  simp [modifyPassword, accepts.notInitial, accepts.matched, run]

variable {users : List DbUser}

section Stored

variable (isNum : code.vcodeType = .numVcode) (stored : code ∈ tables.vcodes)
  (single : ∀ row ∈ tables.vcodes, row.uuid = code.uuid → row = code)

include isNum stored single

private theorem getVcode_of_stored : getVcode tables.vcodes code.uuid .numVcode = some code := by
  refine find?_of_unique stored (decide_eq_true ⟨rfl, isNum⟩) fun row isRow same => ?_
  exact single row isRow (of_decide_eq_true same).1

/-- A code changes the password of a user exactly if it is usable and the password can be changed at all. -/
theorem canChange_iff (keys : UserKeys settings tables.users) (mem : user ∈ tables.users) :
    CanChange settings tables code user ↔ code.Usable ∧ Resettable settings code user := by
  have read := getVcode_of_stored isNum stored single
  constructor
  · rintro ⟨now, account, oldPassword, newPassword, row, isRow, sameId, changed⟩
    let call : ResetCall := ⟨account, newPassword, code.uuid, code.vcode⟩
    obtain ⟨phase, outcome, -⟩ : ∃ phase, ResetOutcome settings now tables call _ phase ∧ _ :=
      modifyPassword_alone keys oldPassword
    generalize result : (modifyPassword settings now call.account oldPassword call.newPassword call.option).run tables =
      ended at outcome
    change row ∈ (afterwards ((modifyPassword settings now call.account oldPassword call.newPassword call.option).run
      tables)).users at isRow
    rw [result] at isRow
    cases outcome with
    | refused failure after same =>
      obtain ⟨old, isOld, oldId, oldPassword, oldSha2⟩ := same row isRow
      obtain rfl := keys.ids old isOld user mem (oldId.trans sameId)
      exact (changed.elim (· oldPassword.symm) (· oldSha2.symm)).elim
    | @accepted found loginName accepts =>
      obtain ⟨between, isBetween, rfl⟩ := mem_map.mp isRow
      obtain ⟨old, isOld, oldId, oldName, oldPassword, oldSha2⟩ := mem_refreshLock isBetween
      split at sameId
      · rename_i named
        rw [if_pos named] at changed
        obtain rfl := keys.ids old isOld user mem (oldId.trans sameId)
        have isUser : userByLoginName settings tables.users loginName = some old :=
          keys.userByLoginName mem (by rw [oldName]; exact named)
        obtain rfl := some.inj ((matchUser_some keys accepts.matched).symm.trans isUser)
        obtain ⟨results, isRead, right⟩ := accepts.code
        obtain rfl := some.inj (read.symm.trans isRead)
        obtain ⟨few, nonempty, -, young⟩ := checkVcode_ok_iff.mp right
        refine ⟨⟨accepts.named, nonempty, few⟩, accepts.modifiable.1, accepts.modifiable.2,
          ⟨now, young, accepts.unlocked⟩, newPassword, ⟨accepts.notInitial, accepts.valid⟩, ?_⟩
        exact changed.imp (fun password isEmpty => password isEmpty.symm) id
      · rename_i otherName
        rw [if_neg otherName] at changed
        obtain rfl := keys.ids old isOld user mem (oldId.trans sameId)
        exact (changed.elim (· oldPassword.symm) (· oldSha2.symm)).elim
  · rintro ⟨⟨named, nonempty, few⟩, isLocal, free, ⟨now, young, unlocked⟩, newPassword, ⟨notInitial, valid⟩, changes⟩
    let call : ResetCall := ⟨user.loginName, newPassword, code.uuid, code.vcode⟩
    have accepts : Accepts settings now tables call user user.loginName :=
      ⟨notInitial, named, ⟨code, read, checkVcode_ok_iff.mpr ⟨few, nonempty, rfl, young⟩⟩, matchUser_loginName keys mem,
        ⟨isLocal, free⟩, unlocked, valid⟩
    obtain ⟨row, isRow, sameId, sameName⟩ : ∃ row ∈ refreshLock settings now tables.users user,
        row.userId = user.userId ∧ row.loginName = user.loginName := by
      unfold refreshLock
      split
      · refine ⟨_, mem_map.mpr ⟨user, mem, rfl⟩, ?_⟩
        split <;> exact ⟨rfl, rfl⟩
      · exact ⟨user, mem, rfl, rfl⟩
    refine ⟨now, user.loginName, "", newPassword, row.withPassword settings now newPassword, ?_, sameId, ?_⟩
    · have result := run_modifyPassword_of_accepts keys accepts ""
      change _ ∈ (afterwards ((modifyPassword settings now call.account "" call.newPassword call.option).run
        tables)).users
      rw [result]
      refine mem_map.mpr ⟨row, isRow, if_pos ?_⟩
      rw [sameName]
      exact CaseFolding.equalFold_iff.mpr rfl
    · exact changes.imp (fun password isEmpty => password isEmpty.symm) id

end Stored

/-- When the code was verified, for a call that works with it or has changed a password with it. -/
def ResetPhase.verifiedAt : ResetPhase → Option Int
  | .checking _ _ verifiedAt | .unlocking _ _ _ verifiedAt | .refusing _ _ _ verifiedAt | .updating _ verifiedAt
  | .deleting verifiedAt => some verifiedAt
  | .finished _ updated => updated
  | _ => none

/-- The call has verified the code and has not come to its end. -/
def ResetPhase.working : ResetPhase → Bool
  | .checking .. | .unlocking .. | .refusing .. | .updating .. | .deleting .. => true
  | _ => false

variable (settings : Settings) (call : ResetCall) (vcodes : List VcodeInfo) in
/-- What a step does with the codes. -/
inductive ResetMove : StatementChoice → ResetPhase → List VcodeInfo → ResetPhase → Prop
  | dropped {choice phase next} (unverified : next.verifiedAt = none) (idle : next.working = false) :
      ResetMove choice phase vcodes next
  | counted {choice phase next} (cnt : Int) (unverified : next.verifiedAt = none) (idle : next.working = false) :
      ResetMove choice phase (updateVcodeErrCnt vcodes cnt call.uuid) next
  | verified {now dbUser account row} {results : VcodeInfo} (read : getVcode vcodes call.uuid .numVcode = some results)
      (right : checkVcode settings now results call.vcode = .ok ()) :
      ResetMove (.proceed now) (.verifying dbUser account) vcodes (.checking row account now)
  | kept {choice phase next} (verifiedAt : Int) (before : phase.verifiedAt = some verifiedAt)
      (after : next.verifiedAt = some verifiedAt) (worked : phase.working = true) (works : next.working = true)
      (unchanged : next.updated = none) : ResetMove choice phase vcodes next
  | updated {choice account} (verifiedAt : Int) :
      ResetMove choice (.updating account verifiedAt) vcodes (.deleting verifiedAt)
  | deleted {choice} (verifiedAt : Int) :
      ResetMove choice (.deleting verifiedAt) (deleteVcodeInfo vcodes call.uuid) (.finished (.ok ()) (some verifiedAt))
  | failed {phase} : ResetMove .fail phase vcodes (.finished (.error .python) phase.updated)

variable {vcodes : List VcodeInfo} {choice : StatementChoice} {phase : ResetPhase} {verifiedAt : Int}

private theorem ResetMove.of_afterLock (before : phase.verifiedAt = some verifiedAt)
    (worked : phase.working = true) (row : DbUser)
    (account : String) :
    ResetMove settings call vcodes choice phase vcodes (call.afterLock settings row account verifiedAt) := by
  unfold afterLock
  split
  · exact .dropped rfl rfl
  · exact .kept verifiedAt before rfl worked rfl rfl

variable {after : Tables} {next : ResetPhase}

private theorem ResetCall.execute_cases (executed : call.execute settings now tables phase = some (after, next)) :
    ResetMove settings call tables.vcodes (.proceed now) phase after.vcodes next := by
  unfold execute at executed
  repeat' split at executed
  all_goals cases executed
  · exact .dropped rfl rfl
  · exact .dropped rfl rfl
  · exact .dropped rfl rfl
  · exact .dropped rfl rfl
  · exact .dropped rfl rfl
  · unfold afterVerify
    split
    · exact .dropped rfl rfl
    split
    · exact .dropped rfl rfl
    rename_i results read
    split
    · exact .dropped rfl rfl
    · exact .dropped rfl rfl
    rename_i right
    split
    · exact .dropped rfl rfl
    · exact .verified read right
  · exact .counted _ rfl rfl
  · unfold afterCheck
    split
    · exact .dropped rfl rfl
    split
    · exact .of_afterLock rfl rfl _ _
    split
    · exact .dropped rfl rfl
    split
    · exact .kept _ rfl rfl rfl rfl rfl
    split
    · exact .kept _ rfl rfl rfl rfl rfl
    · exact .of_afterLock rfl rfl _ _
  · exact .of_afterLock rfl rfl _ _
  · exact .dropped rfl rfl
  · exact .dropped rfl rfl
  · exact .updated _
  · exact .deleted _
  · exact .dropped rfl rfl

private theorem ResetCall.advance_cases (advanced : call.advance settings choice tables phase = some (after, next)) :
    ResetMove settings call tables.vcodes choice phase after.vcodes next := by
  unfold advance at advanced
  split at advanced
  · cases advanced
  · exact execute_cases advanced
  · cases advanced
    exact .failed

private theorem ResetMove.stored {vcodes after : List VcodeInfo} {phase next : ResetPhase}
    (move : ResetMove settings call vcodes choice phase after next) :
    ∀ row ∈ after, ∃ old ∈ vcodes, old.uuid = row.uuid ∧ old.createtime = row.createtime ∧ old.vcode = row.vcode := by
  intro row mem
  cases move with
  | counted cnt =>
    obtain ⟨old, isOld, rfl⟩ := mem_map.mp mem
    refine ⟨old, isOld, ?_⟩
    split <;> exact ⟨rfl, rfl, rfl⟩
  | deleted => exact ⟨row, (mem_filter.mp mem).1, rfl, rfl, rfl⟩
  | dropped | verified | kept | updated | failed => exact ⟨row, mem, rfl, rfl, rfl⟩

private theorem getVcode_some {uuid : String} {vcodeType : VcodeType} {row : VcodeInfo}
    (read : getVcode vcodes uuid vcodeType = some row) :
    row ∈ vcodes ∧ row.uuid = uuid := by
  have same : row.uuid = uuid ∧ row.vcodeType = vcodeType := by simpa using find?_some read
  exact ⟨mem_of_find?_eq_some read, same.1⟩

private theorem ResetPhase.updated_eq (changed : phase.updated = some verifiedAt) :
    phase.verifiedAt = some verifiedAt := by
  cases phase with
  | deleting | finished => exact changed
  | _ => cases changed

/-- How a call comes to have changed a password: by the step that stores it, and then for good. -/
theorem ResetMove.changed {after : List VcodeInfo} (move : ResetMove settings call vcodes choice phase after next)
    (changed : next.updated = some verifiedAt) :
    (∃ account, phase = .updating account verifiedAt ∧ next = .deleting verifiedAt) ∨
      (phase = .deleting verifiedAt ∧ after = deleteVcodeInfo vcodes call.uuid) ∨ choice = .fail ∧
      phase.updated = some verifiedAt := by
  cases move with
  | updated => exact .inl ⟨_, by cases changed; rfl, by cases changed; rfl⟩
  | deleted => exact .inr (.inl ⟨by cases changed; rfl, rfl⟩)
  | failed => exact .inr (.inr ⟨rfl, changed⟩)
  | dropped unverified | counted _ unverified =>
    rw [ResetPhase.updated_eq changed] at unverified
    cases unverified
  | kept _ _ _ _ _ unchanged =>
    rw [changed] at unchanged
    cases unchanged
  | verified => cases changed

section Runs

variable {ι : Type} [DecidableEq ι] {calls : ι → ResetCall}

/-- The row of a code is in the table. -/
def CodeStored (uuid : String) (tables : Tables) : Prop := ∃ row ∈ tables.vcodes, row.uuid = uuid

section

variable (calls) (uuid : String) (i : ι) (phase : ResetPhase)

/-- A call with the code works with it. -/
def WorksWithCode : Prop := (calls i).uuid = uuid ∧ phase.working = true

/-- A call with the code has changed a password. -/
def ChangedWithCode : Prop := (calls i).uuid = uuid ∧ phase.updated.isSome = true

/-- A call with the code has changed a password and returned. -/
def ResetWithCode : Prop := (calls i).uuid = uuid ∧ ∃ verifiedAt, phase = .finished (.ok ()) (some verifiedAt)

/-- A call with the code has not verified it. -/
def Unverified : Prop := (calls i).uuid = uuid → phase.verifiedAt = none

/-- A call that is about to verify its code finds no other call that works with it, and no deletion of a code fails. -/
def CodeIsFree (state : Shared ι Tables ResetPhase) (label : ι × StatementChoice) : Prop :=
  (∀ dbUser account, state.phase label.1 = .verifying dbUser account →
    ∀ j, ¬ WorksWithCode calls (calls label.1).uuid j (state.phase j)) ∧
  (label.2 = .fail → ∀ verifiedAt, state.phase label.1 ≠ .deleting verifiedAt)

end

/-- At most one call changes a password with the code, and presented it in time. -/
structure OpensOnce (settings : Settings) (calls : ι → ResetCall) (code : VcodeInfo)
    (state : Shared ι Tables ResetPhase) : Prop where
  once : ∀ i j, ChangedWithCode calls code.uuid i (state.phase i) →
    ChangedWithCode calls code.uuid j (state.phase j) → i = j
  inTime : ∀ i verifiedAt, (calls i).uuid = code.uuid → (state.phase i).updated = some verifiedAt →
    verifiedAt ≤ code.createtime + 5 * 60 ∧ settings.upper code.vcode = settings.upper (calls i).vcode

omit [DecidableEq ι] in
private theorem useStep_of_codeIsFree {uuid : String} {state : Shared ι Tables ResetPhase} {i : ι}
    (met : CodeIsFree calls state (i, choice))
    (advanced : (calls i).advance settings choice state.store (state.phase i) = some (after, next)) :
    Shared.UseStep (CodeStored uuid) (WorksWithCode calls uuid) (ChangedWithCode calls uuid) state i after next := by
  have move := advance_cases advanced
  constructor
  · rintro ⟨row, mem, same⟩
    obtain ⟨old, isOld, sameUuid, -⟩ := move.stored row mem
    exact ⟨old, isOld, sameUuid.trans same⟩
  · rintro ⟨rfl, works⟩
    generalize before : state.phase i = phase at move
    generalize after.vcodes = vcodes at move
    cases move with
    | verified read right =>
      obtain ⟨mem, same⟩ := getVcode_some read
      exact .inr ⟨⟨_, mem, same⟩, met.1 _ _ before⟩
    | kept _ _ _ worked => exact .inl ⟨rfl, worked⟩
    | updated => exact .inl ⟨rfl, rfl⟩
    | dropped _ idle | counted _ _ idle => exact absurd works (by rw [idle]; exact Bool.false_ne_true)
    | deleted | failed => cases works
  · rintro ⟨rfl, changed⟩
    obtain ⟨verifiedAt, changed⟩ := isSome_iff_exists.mp changed
    rcases move.changed changed with ⟨account, isUpdating, _⟩ | ⟨isDeleting, _⟩ | ⟨_, before⟩
    · exact .inr ⟨rfl, by rw [isUpdating]; rfl⟩
    · exact .inl ⟨rfl, by rw [isDeleting]; rfl⟩
    · exact .inl ⟨rfl, by rw [before]; rfl⟩
  · rintro ⟨rfl, changed⟩
    obtain ⟨verifiedAt, changed⟩ := isSome_iff_exists.mp changed
    rcases move.changed changed with ⟨account, _, isDeleting⟩ | ⟨_, gone⟩ | ⟨isFail, before⟩
    · exact .inl ⟨rfl, by rw [isDeleting]; rfl⟩
    · refine .inr (.inl ?_)
      rintro ⟨row, mem, same⟩
      rw [gone] at mem
      exact absurd same (by simpa using (mem_filter.mp mem).2)
    · refine .inr (.inr ⟨⟨rfl, by rw [before]; rfl⟩, fun ⟨_, works⟩ => ?_⟩)
      -- a call that works and has changed the password is about to delete the code
      generalize isPhase : state.phase i = phase at before works
      cases phase with
      | deleting => exact absurd isPhase (met.2 isFail _)
      | finished => cases works
      | _ => cases before

/-- Every row with the id of the code is the code, but for the number of errors. -/
def KeepsCode (code : VcodeInfo) (tables : Tables) : Prop :=
  ∀ row ∈ tables.vcodes, row.uuid = code.uuid → row.createtime = code.createtime ∧ row.vcode = code.vcode

/-- A call that has verified the code presented its content, in time. -/
def PresentedInTime (settings : Settings) (calls : ι → ResetCall) (code : VcodeInfo) (i : ι) (phase : ResetPhase) :
    Prop :=
  ∀ verifiedAt, (calls i).uuid = code.uuid → phase.verifiedAt = some verifiedAt →
    verifiedAt ≤ code.createtime + 5 * 60 ∧ settings.upper code.vcode = settings.upper (calls i).vcode

omit [DecidableEq ι] in
private theorem presentedInTime_step {i : ι} (keeps : KeepsCode code tables)
    (inTime : PresentedInTime settings calls code i phase)
    (advanced : (calls i).advance settings choice tables phase = some (after, next)) :
    KeepsCode code after ∧ PresentedInTime settings calls code i next := by
  have move := advance_cases advanced
  constructor
  · intro row mem same
    obtain ⟨old, isOld, sameUuid, sameTime, sameCode⟩ := move.stored row mem
    rw [← sameTime, ← sameCode]
    exact keeps old isOld (sameUuid.trans same)
  · intro verifiedAt own verified
    generalize after.vcodes = vcodes at move
    cases move with
    | verified read right =>
      cases verified
      obtain ⟨mem, same⟩ := getVcode_some read
      obtain ⟨sameTime, sameCode⟩ := keeps _ mem (same.trans own)
      obtain ⟨-, -, content, young⟩ := checkVcode_ok_iff.mp right
      exact ⟨by omega, sameCode ▸ content⟩
    | kept _ before after =>
      rw [verified] at after
      exact inTime verifiedAt own (before.trans after.symm)
    | updated | deleted => exact inTime verifiedAt own verified
    | failed => exact inTime verifiedAt own (ResetPhase.updated_eq verified)
    | dropped unverified | counted _ unverified =>
      rw [verified] at unverified
      cases unverified

/-- If nobody verifies the code while a call works with it, and it is deleted, it changes one password. -/
theorem opensOnce_of_free {schedule : List (ι × StatementChoice)} {final : Shared ι Tables ResetPhase}
    (single : ∀ row ∈ tables.vcodes, row.uuid = code.uuid → row = code)
    (free : Meets (resetStep settings calls) (CodeIsFree calls) (resetStart tables) schedule)
    (reached : run (resetStep settings calls) (resetStart tables) schedule = some final) :
    OpensOnce settings calls code final where
  once := by
    have exclusive : Shared.Exclusive (CodeStored code.uuid) (WorksWithCode calls code.uuid)
        (ChangedWithCode calls code.uuid) final :=
      Shared.exclusive_of_meets (fun met advanced => useStep_of_codeIsFree met advanced)
        (fun i ⟨_, impossible⟩ => by cases impossible) (fun i ⟨_, impossible⟩ => by cases impossible) free reached
    exact exclusive.user
  inTime := by
    have calls := (Shared.invariant_of_parties (KeepsCode code) (PresentedInTime settings calls code)
      (fun keeps inTime _ advanced => presentedInTime_step keeps inTime advanced)
      (fun row mem same => by rw [single row mem same]; exact ⟨rfl, rfl⟩)
      (fun i verifiedAt _ impossible => by cases impossible) free reached).2
    exact fun i verifiedAt own changed => calls i verifiedAt own (ResetPhase.updated_eq changed)

omit [DecidableEq ι] in
private theorem spendStep_of_reset {uuid : String} {state : Shared ι Tables ResetPhase} {i : ι}
    (advanced : (calls i).advance settings choice state.store (state.phase i) = some (after, next)) :
    Shared.SpendStep (CodeStored uuid) (Unverified calls uuid) (ResetWithCode calls uuid) state i after next := by
  have move := advance_cases advanced
  refine ⟨fun ⟨row, mem, same⟩ => ?_, fun unverified gone own => ?_, ?_⟩
  · obtain ⟨old, isOld, sameUuid, -⟩ := move.stored row mem
    exact ⟨old, isOld, sameUuid.trans same⟩
  · have before := unverified own
    generalize state.phase i = phase at move before
    generalize after.vcodes = vcodes at move
    cases move with
    | dropped none | counted _ none => exact none
    | verified read =>
      obtain ⟨mem, same⟩ := getVcode_some read
      exact absurd ⟨_, mem, same.trans own⟩ gone
    | kept _ isSome =>
      rw [before] at isSome
      cases isSome
    | updated | deleted => cases before
    | @failed phase =>
      refine (eq_none_iff_forall_ne_some.mpr fun verifiedAt changed => ?_ : phase.updated = none)
      rw [ResetPhase.updated_eq changed] at before
      cases before
  · rintro ⟨own, verifiedAt, rfl⟩ ⟨row, mem, same⟩
    generalize state.phase i = phase at move
    generalize isAfter : after.vcodes = vcodes at move mem
    cases move with
    | dropped unverified | counted _ unverified => cases unverified
    | kept _ _ _ _ works => cases works
    | deleted => exact absurd (same.trans own.symm) (by simpa using (mem_filter.mp mem).2)

/-- Once a call with the code has returned, no call that has not verified the code by then changes a password with it.
-/
theorem reset_code_spent_for_good (settings : Settings) (calls : ι → ResetCall) (tables : Tables) (uuid : String) :
    Always (resetStep settings calls) (resetStart tables) fun state =>
      (∃ i, ResetWithCode calls uuid i (state.phase i)) →
      Always (resetStep settings calls) state fun later =>
        ∀ j, (state.phase j).verifiedAt = none → ¬ ChangedWithCode calls uuid j (later.phase j) := by
  rintro labels state reached used more later onwards j unverified ⟨own, changed⟩
  obtain ⟨verifiedAt, changed⟩ := isSome_iff_exists.mp changed
  have still : Unverified calls uuid j (later.phase j) := by
    refine Shared.unfound_of_spent spendStep_of_reset ?_ labels state reached used more later onwards j fun _ =>
      unverified
    rintro i ⟨_, _, impossible⟩
    cases impossible
  exact absurd ((ResetPhase.updated_eq changed).symm.trans (still own)) nofun

end Runs

/-- The passwords of at most one user can be changed with the code. -/
def OpensOneAccount (settings : Settings) (tables : Tables) (code : VcodeInfo) : Prop :=
  ∀ user ∈ tables.users, ∀ other ∈ tables.users, CanChange settings tables code user →
    CanChange settings tables code other → user = other

/-- A code opens at most one account exactly if it is not usable or the password of at most one user can be changed at
all; and in every run in which nobody verifies it while another call works with it, and it is deleted after its use,
one call at most changes a password, with the content of the code and within five minutes. -/
theorem reset_code_opens_one_account_once (keys : UserKeys settings tables.users) (isNum : code.vcodeType = .numVcode)
    (stored : code ∈ tables.vcodes) (single : ∀ row ∈ tables.vcodes, row.uuid = code.uuid → row = code) :
    (OpensOneAccount settings tables code ↔ (code.Usable → ∀ user ∈ tables.users, ∀ other ∈ tables.users,
        Resettable settings code user → Resettable settings code other → user = other)) ∧
    ∀ (ι : Type) [DecidableEq ι] (calls : ι → ResetCall) (schedule : List (ι × StatementChoice))
    (final : Shared ι Tables ResetPhase),
      Meets (resetStep settings calls) (CodeIsFree calls) (resetStart tables) schedule →
      run (resetStep settings calls) (resetStart tables) schedule = some final →
      OpensOnce settings calls code final := by
  refine ⟨?_, fun ι _ calls schedule final free reached => opensOnce_of_free single free reached⟩
  constructor
  · intro opensOne usable user mem other isOther first second
    exact opensOne user mem other isOther ((canChange_iff isNum stored single keys mem).mpr ⟨usable, first⟩)
      ((canChange_iff isNum stored single keys isOther).mpr ⟨usable, second⟩)
  · intro condition user mem other isOther first second
    obtain ⟨usable, resettable⟩ := (canChange_iff isNum stored single keys mem).mp first
    obtain ⟨-, alsoResettable⟩ := (canChange_iff isNum stored single keys isOther).mp second
    exact condition usable user mem other isOther resettable alsoResettable

namespace Sample

/-- The tables with these users and the code. -/
def withCode (names : List String) : Tables := ⟨names.map (localUser · 0), [resetCode]⟩

/-- A call with the code, for this account. -/
def resetOf (account : String) : ResetCall := ⟨account, "secret", "uuid-1", "123456"⟩

end Sample

open Sample

private theorem userKeys_one : UserKeys withoutLock (withCode ["alice"]).users := by
  constructor
  all_goals
    intro row isRow other isOther _
    rw [mem_singleton.mp isRow, mem_singleton.mp isOther]

private theorem userKeys_two : UserKeys withoutLock (withCode ["alice", "bob"]).users := by
  constructor
  all_goals decide

/-- With one user the code opens one account, and two calls one after the other use it once. -/
theorem reset_code_opens_one_account_once_alice : OpensOneAccount withoutLock (withCode ["alice"]) resetCode ∧
    ∃ final, run (resetStep withoutLock fun _ : Bool => resetOf "alice") (resetStart (withCode ["alice"]))
        (replicate 5 (true, .proceed 0) ++ replicate 3 (false, .proceed 0)) = some final ∧
        (final.phase true).updated = some 0 ∧
      OpensOnce withoutLock (fun _ => resetOf "alice") resetCode final := by
  have both := @reset_code_opens_one_account_once withoutLock (withCode ["alice"]) resetCode userKeys_one rfl
    (mem_singleton.mpr rfl) (fun row mem _ => mem_singleton.mp mem)
  have free : Meets (resetStep withoutLock fun _ : Bool => resetOf "alice") (CodeIsFree fun _ => resetOf "alice")
      (resetStart (withCode ["alice"]))
      (replicate 5 (true, .proceed 0) ++ replicate 3 (false, .proceed 0)) := by
    refine .cons ⟨?_, nofun⟩ rfl (.cons ⟨?first, nofun⟩ rfl (.cons ⟨?_, nofun⟩ rfl (.cons ⟨?_, nofun⟩ rfl
      (.cons ⟨?_, nofun⟩ rfl (.cons ⟨?_, nofun⟩ rfl (.cons ⟨?second, nofun⟩ rfl (.cons ⟨?_, nofun⟩ rfl trivial)))))))
    case first | second => exact fun _ _ _ j ⟨_, works⟩ => by cases j <;> cases works
    all_goals exact fun _ _ impossible => nomatch impossible
  refine ⟨both.1.mpr fun _ user mem other isOther _ _ => ?_, _, rfl, rfl, both.2 Bool _ _ _ free rfl⟩
  rw [mem_singleton.mp mem, mem_singleton.mp isOther]

/-- With two users the code opens both accounts, and two calls that overlap both use it. -/
theorem reset_code_opens_two_accounts : ¬ OpensOneAccount withoutLock (withCode ["alice", "bob"]) resetCode ∧
    ∃ final, run (resetStep withoutLock fun first : Bool => resetOf (if first then "alice" else "bob"))
        (resetStart (withCode ["alice", "bob"]))
        (replicate 2 (true, .proceed 0) ++ replicate 5 (false, .proceed 0) ++ replicate 3 (true, .proceed 0)) =
          some final ∧
      ¬ OpensOnce withoutLock (fun first => resetOf (if first then "alice" else "bob")) resetCode final := by
  constructor
  · intro opensOne
    have canChange (name : String) (mem : localUser name 0 ∈ (withCode ["alice", "bob"]).users)
        (other : "secret" ≠ name) : CanChange withoutLock (withCode ["alice", "bob"]) resetCode (localUser name 0) := by
      refine (canChange_iff rfl (mem_singleton.mpr rfl)
        (fun row isCode _ => mem_singleton.mp isCode) userKeys_two mem).mpr ⟨⟨by decide, by decide, by decide⟩, rfl,
          rfl, ⟨0, by decide, ?_⟩,
          "secret", ⟨by decide, by decide⟩, .inr other⟩
      exact fun locked => Bool.false_ne_true locked.1
    exact absurd (opensOne _ (by decide) _ (by decide) (canChange "alice" (by decide) (by decide))
      (canChange "bob" (by decide) (by decide))) (by decide)
  · refine ⟨_, rfl, fun opensOnce => ?_⟩
    exact absurd (opensOnce.once true false ⟨rfl, rfl⟩ ⟨rfl, rfl⟩) (by decide)

end SecurityFabric.ShareMgnt
