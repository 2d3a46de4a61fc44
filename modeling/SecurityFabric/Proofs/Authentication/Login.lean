import SecurityFabric.ToMathlib.GoMap
import SecurityFabric.ToMathlib.Lockout
import SecurityFabric.Proofs.UserManagement.Account
import SecurityFabric.Model.Authentication.Login

/-! # What a login does to the count of wrong passwords

A login to an account changes at most the count of wrong passwords and its time, which neither the search for the
account nor the check of the password looks at. So the row of the account acts as a `Lockout.Counter`: the answer about
the account sets the counter back where its time has passed, and the login settles its attempt on it.
-/

namespace SecurityFabric.UserManagement

open Lockout List

variable {collation : Collation} {encodeDes : String → String} {users : List UserAccount} {id : String}
  {counter next : Counter} {row : UserAccount}

/-- The row with another count and time. -/
def UserAccount.withCounter (row : UserAccount) (counter : Counter) : UserAccount :=
  { row with pwdErrCnt := counter.count, pwdErrLatestTime := counter.time }

/-- What the row says about wrong passwords. -/
def UserAccount.storedCounter (row : UserAccount) : Counter := ⟨row.pwdErrCnt, row.pwdErrLatestTime⟩

/-- The users after the counter of one of them is written. -/
def setCounter (users : List UserAccount) (id : String) (counter : Counter) : List UserAccount :=
  users.map fun row => if row.id = id then row.withCounter counter else row

private theorem updatePwdErrInfo_eq_setCounter (count time : Int) :
    UserDB.updatePwdErrInfo users id count time = setCounter users id ⟨count, time⟩ := rfl

private theorem setCounter_setCounter :
    setCounter (setCounter users id counter) id next = setCounter users id next := by
  unfold setCounter
  rw [map_map]
  refine map_congr_left fun row _ => ?_
  by_cases same : row.id = id
  · simp [same, UserAccount.withCounter]
  · simp [same]

theorem setCounter_self (single : ∀ other ∈ users, other.id = row.id → other = row) :
    setCounter users row.id row.storedCounter = users := by
  refine (map_congr_left fun other mem => ?_).trans (map_id users)
  split
  · rename_i same
    rw [single other mem same]
    rfl
  · rfl

private theorem findAccount_setCounter {account : String} {enableIDCardLogin enablePrefixMatch : Bool}
    (finds : findAccount collation encodeDes users account enableIDCardLogin enablePrefixMatch = .ok (some row)) :
    findAccount collation encodeDes (setCounter users row.id counter) account enableIDCardLogin enablePrefixMatch =
      .ok (some (row.withCounter counter)) := by
  have unseen : Unseen fun other => if other.id = row.id then other.withCounter counter else other := by
    refine ⟨fun row => ?_, fun row => ?_, fun row => ?_⟩
    all_goals split <;> rfl
  have found := findAccount_map unseen finds
  rw [Option.map_some, if_pos rfl] at found
  exact found

private theorem userAuth_setCounter {folding : CaseFolding} {policy : PasswordPolicy} {now : Int}
    {checked password : String} :
    userAuth folding policy now (setCounter users id counter) checked password =
      userAuth folding policy now users checked password := by
  have keepsId (row : UserAccount) : (if row.id = id then row.withCounter counter else row).id = row.id := by
    split <;> rfl
  unfold userAuth setCounter
  rw [find?_map]
  simp only [Function.comp_def, keepsId]
  split
  · rfl
  · cases users.find? fun row => row.id = checked with
    | none => rfl
    | some row =>
      dsimp only [Option.map_some]
      split <;> rfl

theorem updatePwdErrInfo_setCounter {now count : Int} (mem : row ∈ users) (past : 0 ≤ now) (nonneg : 0 ≤ count) :
    updatePwdErrInfo now (setCounter users row.id counter) row.id count now =
      .ok (setCounter users row.id ⟨count, now⟩) := by
  have present : ¬ ((setCounter users row.id counter).all fun other => other.id ≠ row.id) = true := by
    intro absent
    have differs := all_eq_true.mp absent (row.withCounter counter) (mem_map.mpr ⟨row, mem, if_pos rfl⟩)
    exact absurd rfl (of_decide_eq_true differs)
  rw [updatePwdErrInfo, if_neg present, if_neg (by omega), if_neg (by unfold nOffsetTime; omega),
    updatePwdErrInfo_eq_setCounter, setCounter_setCounter]
  rfl

end SecurityFabric.UserManagement

namespace SecurityFabric.Authentication

open UserManagement Lockout Machine List LoginRequest

variable {services : LoginServices} {config : LoginConfig} {now : Int} {users : List UserAccount} {row : UserAccount}
  {counter : Counter} {req : LoginRequest}

/-- The rules of the settings: five minutes between wrong passwords begin a new streak. -/
def lockRules (config : LoginConfig) : Rules := ⟨config.lock.pwdErrCnt, config.lock.pwdLockTime * 60, 300⟩

def authAttempt : AuthAnswer → Attempt
  | .passed => .right
  | .failed .invalidPassword => .wrong
  | .failed _ => .other
  | .badRequest => .other

/-- Whether after so many wrong passwords the code has to be that of an image. -/
def imageAsked (config : LoginConfig) (count : Int) : Bool := config.vcodeEnable && config.vcodePwdErrCnt ≤ count

theorem imageAsked_of_disabled (noImage : config.vcodeEnable = false) (count : Int) :
    imageAsked config count = false := by
  rw [imageAsked, noImage, Bool.false_and]

section

variable (services : LoginServices) (image : Bool) (now : Int) (users : List UserAccount) (id : String)

/-- Right or wrong if it is for the password to decide. -/
def LoginRequest.attempt : LoginRequest → Attempt
  | .clientAccountAuth req =>
    if (checkVCode services id (if image then .image else req.vcodeType) req).isSome then .other
    else authAttempt (userAuth services.collation.toCaseFolding services.policy now users id req.password)
  | .pwdAuth _ password =>
    match services.decodeAndDecrypt password with
    | none => .other
    | some password => authAttempt (userAuth services.collation.toCaseFolding services.policy now users id password)

/-- The attempts that logins are while images are not asked for, with their times. -/
def attemptsOf (history : List (Int × LoginRequest)) : List (Int × Attempt) :=
  history.map fun login => (login.1, login.2.attempt services false login.1 users id)

/-- An enabled local account that wrong passwords can lock. -/
structure Lockable (config : LoginConfig) (row : UserAccount) : Prop where
  isLocal : row.authType = .localUser
  enabled : row.disableStatus = .enabled ∧ row.autoDisableStatus = .enabled
  lockOn : config.lock.enablePwdLock = true

/-- The login is to this account, which is not one of those that are kept from logging in. -/
structure LoginRequest.IsTo (config : LoginConfig) (users : List UserAccount) (row : UserAccount)
    (req : LoginRequest) : Prop where
  found : req.findAccount services config users = .ok (some row)
  shown : ∀ client, req = .clientAccountAuth client → hiddenAccount config row.id = false

end

private theorem Lockable.locks (lockable : Lockable config row) : config.lock.locks row.authType = true := by
  simp [PwdLockConfig.locks, lockable.lockOn, lockable.isLocal]

private theorem loginRequest_findAccount_setCounter (isTo : req.IsTo services config users row) :
    req.findAccount services config (setCounter users row.id counter) = .ok (some (row.withCounter counter)) := by
  obtain ⟨found, -⟩ := isTo
  cases req with
  | clientAccountAuth client => exact findAccount_setCounter found
  | pwdAuth account password =>
    dsimp only [LoginRequest.findAccount] at found ⊢
    exact findAccount_setCounter found

/-- The answer about the account, from the row that is found. -/
theorem accountMatch_eq : req.accountMatch services config now users = match req.findAccount services config users with
    | .error failure => .error failure
    | .ok none => .ok (none, users)
    | .ok (some row) =>
      .ok (some (handleUserBaseInfo (checkAccountLocked config.lock now users row).2),
        (checkAccountLocked config.lock now users row).1) := by
  cases req with
  | clientAccountAuth client =>
    unfold accountMatch LoginRequest.findAccount getUserInfoByAccount
    dsimp only
    cases UserManagement.findAccount services.collation services.encodeDes users client.account config.enableIDCardLogin
        config.domainStatus with
    | error failure => rfl
    | ok found => cases found <;> rfl
  | pwdAuth account password =>
    unfold accountMatch LoginRequest.findAccount getUserInfoByAccount
    dsimp only
    cases UserManagement.findAccount services.collation services.encodeDes users account false false with
    | error failure => rfl
    | ok found => cases found <;> rfl

/-- What a login decides on the counter it was told of. -/
def decision (rules : Rules) (now : Int) (id : String) (counter : Counter) (error : LoginError) :
    Attempt → LoginDecision
  | .right => if counter.Refuses rules then .refuse error else .accept id
  | .wrong => if counter.Refuses rules then .refuse error else .count id (counter.next rules now) error
  | .other => .refuse error

private theorem nextPwdErrCnt_withCounter :
    nextPwdErrCnt now (handleUserBaseInfo (row.withCounter counter)) = counter.next (lockRules config) now := by
  refine if_congr ?_ rfl rfl
  change (now - counter.time).tdiv 60 < 5 ↔ now - counter.time < 300
  rw [Int.tdiv_eq_ediv, show (60 : Int).sign = 1 from rfl]
  split <;> omega

private theorem validateVCode_withCounter {client : ClientLoginReq} :
    validateVCode services config (some (handleUserBaseInfo (row.withCounter counter))) client =
      checkVCode services row.id (if imageAsked config counter.count then .image else client.vcodeType) client := by
  simp only [imageAsked, Bool.and_eq_true, decide_eq_true_eq]
  rfl

private theorem carryOut_decision {error : LoginError} (mem : row ∈ users) (past : 0 ≤ now)
    (nonneg : 0 ≤ counter.count) (kind : Attempt) :
    carryOut now (setCounter users row.id counter) (decision (lockRules config) now row.id counter error kind) =
      (if kind = .right ∧ ¬ counter.Refuses (lockRules config) then .ok row.id else .error error,
        setCounter users row.id (counter.settle (lockRules config) now kind)) := by
  by_cases full : counter.Refuses (lockRules config)
  · have settled : counter.settle (lockRules config) now kind = counter := if_pos full
    rw [if_neg fun free => free.2 full, settled]
    cases kind with
    | right | wrong => rw [decision, if_pos full, carryOut]
    | other => rfl
  · unfold Counter.settle
    rw [if_neg full]
    cases kind with
    | right =>
      rw [decision, if_neg full, if_pos ⟨rfl, full⟩, carryOut, updatePwdErrInfo_setCounter mem past (le_refl 0)]
    | wrong =>
      rw [decision, if_neg full, if_neg nofun, carryOut,
        updatePwdErrInfo_setCounter mem past (Counter.next_nonneg nonneg)]
    | other => rfl

section Lockable

variable (lockable : Lockable config row)

include lockable

private theorem unlocks_withCounter :
    config.lock.unlocks (row.withCounter counter) now = decide (counter.time + (lockRules config).lockTime ≤ now) := by
  have locks : config.lock.locks (row.withCounter counter).authType = true := lockable.locks
  rw [PwdLockConfig.unlocks, locks]
  rfl

theorem checkAccountLocked_withCounter :
    checkAccountLocked config.lock now (setCounter users row.id counter) (row.withCounter counter) =
    (setCounter users row.id (counter.refresh (lockRules config) now),
      row.withCounter (counter.refresh (lockRules config) now)) := by
  rw [checkAccountLocked, unlocks_withCounter lockable, Counter.refresh]
  by_cases passed : counter.time + (lockRules config).lockTime ≤ now
  · rw [if_pos (decide_eq_true passed), if_pos passed]
    exact Prod.ext (@setCounter_setCounter users row.id counter ⟨0, now⟩) rfl
  · rw [if_neg fun due => passed (of_decide_eq_true due), if_neg passed]

theorem tooManyErrors_withCounter :
    tooManyErrors config (handleUserBaseInfo (row.withCounter counter)) =
      decide (counter.Refuses (lockRules config)) := by
  have locks : config.lock.locks (handleUserBaseInfo (row.withCounter counter)).authType = true := lockable.locks
  rw [tooManyErrors, locks]
  rfl

/-- Only a wrong password is reported as one. -/
theorem validatePassword_cases (written : Counter) (password : String) :
    let code := validatePassword services now (setCounter users row.id written)
      (some (handleUserBaseInfo (row.withCounter counter))) password
    let kind := authAttempt (userAuth services.collation.toCaseFolding services.policy now users row.id password)
    (code = none ∧ kind = .right) ∨ (code = some .invalidAccountOrPassword ∧ kind = .wrong) ∨
      ∃ other, other ≠ .invalidAccountOrPassword ∧ code = some other ∧ kind = .other := by
  have isLocal : (handleUserBaseInfo (row.withCounter counter)).authType = .localUser := lockable.isLocal
  have sameId : (handleUserBaseInfo (row.withCounter counter)).id = row.id := rfl
  simp only [validatePassword, isLocal, sameId, userAuth_setCounter]
  cases userAuth services.collation.toCaseFolding services.policy now users row.id password with
  | passed => exact .inl ⟨rfl, rfl⟩
  | badRequest => exact .inr (.inr ⟨_, by decide, rfl, rfl⟩)
  | failed reason =>
    cases reason with
    | invalidPassword => exact .inr (.inl ⟨rfl, rfl⟩)
    | _ => exact .inr (.inr ⟨_, by decide, rfl, rfl⟩)

section IsTo

variable (isTo : req.IsTo services config users row)

include isTo

private theorem decide_withCounter (written : Counter) :
    ∃ error, req.decide services config now (setCounter users row.id written)
    (some (handleUserBaseInfo (row.withCounter counter))) =
      decision (lockRules config) now row.id counter error
        (req.attempt services (imageAsked config counter.count) now users row.id) := by
  have sameId : (handleUserBaseInfo (row.withCounter counter)).id = row.id := rfl
  have enabled : (handleUserBaseInfo (row.withCounter counter)).enabled = true := decide_eq_true lockable.enabled
  have locks : config.lock.locks (handleUserBaseInfo (row.withCounter counter)).authType = true := lockable.locks
  have locked := @tooManyErrors_withCounter config row counter lockable
  have next := @nextPwdErrCnt_withCounter config now row counter
  cases req with
  | clientAccountAuth client =>
    have shown := isTo.shown client rfl
    simp only [LoginRequest.decide, clientAccountDecide, LoginRequest.attempt, Option.filter, sameId,
      shown, Bool.false_eq_true,
      not_false_eq_true, decide_true, if_true, validateVCode_withCounter]
    cases checkVCode services row.id (if imageAsked config counter.count then .image else client.vcodeType) client with
    | some code => exact ⟨_, rfl⟩
    | none =>
      rcases @validatePassword_cases services config now users row counter lockable written client.password with
        ⟨verdict, kind⟩ | ⟨verdict, kind⟩ | ⟨other, ne, verdict, kind⟩
      · rw [verdict, kind]
        by_cases full : counter.Refuses (lockRules config)
        · simp [decision, enabled, locked, full]
        · exact ⟨{ code := .internal }, by simp [decision, enabled, locked, full, sameId]⟩
      · rw [verdict, kind]
        by_cases full : counter.Refuses (lockRules config)
        · simp [decision, locked, full]
        · simp [decision, enabled, locked, full, locks, next, sameId]
      · rw [verdict, kind]
        simp [decision, ne]
  | pwdAuth account password =>
    simp only [LoginRequest.decide, pwdAuthDecide, LoginRequest.attempt]
    cases services.decodeAndDecrypt password with
    | none => exact ⟨_, rfl⟩
    | some password =>
      dsimp only
      rcases @validatePassword_cases services config now users row counter lockable written password with
        ⟨verdict, kind⟩ | ⟨verdict, kind⟩ | ⟨other, ne, verdict, kind⟩
      · rw [verdict, kind]
        by_cases full : counter.Refuses (lockRules config)
        · simp [decision, enabled, locked, full]
        · exact ⟨{ code := .internal }, by simp [decision, enabled, locked, full, sameId]⟩
      · rw [verdict, kind]
        by_cases full : counter.Refuses (lockRules config)
        · simp [decision, enabled, locked, full]
        · simp [decision, enabled, locked, full, locks, next, sameId]
      · rw [verdict, kind]
        by_cases full : counter.Refuses (lockRules config)
        · simp [decision, enabled, locked, full]
        · simp [decision, enabled, locked, full, ne]

/-- A login is an attempt on the counter of its account. -/
theorem login_setCounter (mem : row ∈ users) (past : 0 ≤ now) (nonneg : 0 ≤ counter.count) :
    let kind := req.attempt services (imageAsked config (counter.refresh (lockRules config) now).count) now users row.id
    ∃ error, req.login services config now (setCounter users row.id counter) =
      (if kind = .right ∧ ¬ (counter.refresh (lockRules config) now).Refuses (lockRules config) then .ok row.id
        else .error error,
      setCounter users row.id (counter.attempt (lockRules config) now kind)) := by
  obtain ⟨error, decides⟩ := @decide_withCounter services config now users row
    (counter.refresh (lockRules config) now) req lockable isTo (counter.refresh (lockRules config) now)
  refine ⟨error, ?_⟩
  rw [LoginRequest.login, accountMatch_eq, loginRequest_findAccount_setCounter isTo]
  dsimp only
  rw [checkAccountLocked_withCounter lockable]
  rw [decides, carryOut_decision mem past (Counter.refresh_nonneg nonneg)]
  rfl

end IsTo

/-- Logins to one account are attempts on its counter. -/
theorem logins_setCounter (noImage : config.vcodeEnable = false) (mem : row ∈ users)
    {history : List (Int × LoginRequest)}
    (isTo : ∀ login ∈ history, login.2.IsTo services config users row) (past : ∀ login ∈ history, 0 ≤ login.1)
    (nonneg : 0 ≤ counter.count) : logins services config (setCounter users row.id counter) history =
      setCounter users row.id (counter.attempts (lockRules config) (attemptsOf services users row.id history)) := by
  induction history generalizing counter with
  | nil => rfl
  | cons login rest rest_ih =>
    obtain ⟨error, first⟩ := login_setCounter lockable (isTo login List.mem_cons_self) mem
      (past login List.mem_cons_self) nonneg
    rw [logins, first, imageAsked_of_disabled noImage]
    exact rest_ih (List.forall_mem_cons.mp isTo).2 (List.forall_mem_cons.mp past).2 (Counter.attempt_nonneg nonneg _)

end Lockable

/-! # The steps of a login among others

What a call does in each of its phases when it is to a given account, whose counter others may have changed. Whether a
call has a wrong password does not depend on the counter or the time.
-/

/-- The password, if it can be decrypted. -/
def LoginRequest.password (services : LoginServices) : LoginRequest → Option String
  | .clientAccountAuth req => some req.password
  | .pwdAuth _ password => services.decodeAndDecrypt password

/-- There is a password, and it is not that of the account. -/
def LoginRequest.wrongPassword (services : LoginServices) (row : UserAccount) (req : LoginRequest) : Bool :=
  match req.password services with
  | none => false
  | some password => password ≠ "" ∧ ¬ row.hasPassword services.collation.toCaseFolding services.policy password

/-- A code sent along, or asked for, is refused. -/
def LoginRequest.codeRefused (services : LoginServices) (config : LoginConfig) (info : AccountInfo) :
    LoginRequest → Bool
  | .clientAccountAuth req => (validateVCode services config (some info) req).isSome
  | .pwdAuth _ _ => false

section OneRow

variable (mem : row ∈ users) (single : ∀ other ∈ users, other.id = row.id → other = row)

include mem single

private theorem find?_id_eq : (users.find? fun other => other.id = row.id) = some row := by
  refine find?_of_unique mem (decide_eq_true rfl) fun other isOther same => ?_
  exact single other isOther (of_decide_eq_true same)

private theorem authAttempt_eq_wrong_iff {password : String} :
    authAttempt (userAuth services.collation.toCaseFolding services.policy now users row.id password) = .wrong ↔
      password ≠ "" ∧ ¬ row.hasPassword services.collation.toCaseFolding services.policy password = true := by
  rw [userAuth, find?_id_eq mem single]
  by_cases empty : password = ""
  · rw [if_pos empty]
    exact ⟨nofun, fun given => absurd empty given.1⟩
  · rw [if_neg empty]
    dsimp only
    by_cases right : row.hasPassword services.collation.toCaseFolding services.policy password = true
    · refine ⟨fun wrong => ?_, fun given => absurd right given.2⟩
      unfold UserAccount.checkPolicy at wrong
      dsimp only at wrong
      split_ifs at wrong <;> cases wrong
    · rw [if_neg right]
      exact ⟨fun _ => ⟨empty, right⟩, fun _ => rfl⟩

/-- The attempts that count as wrong. -/
theorem attempt_eq_wrong_iff : req.attempt services (imageAsked config counter.count) now users row.id = .wrong ↔
    req.wrongPassword services row = true ∧ req.codeRefused services config
      (handleUserBaseInfo (row.withCounter counter)) = false := by
  cases req with
  | clientAccountAuth client =>
    simp only [LoginRequest.attempt, wrongPassword, LoginRequest.password, codeRefused, validateVCode_withCounter]
    cases checkVCode services row.id (if imageAsked config counter.count then .image else client.vcodeType) client with
    | some code => simp
    | none => simpa using authAttempt_eq_wrong_iff mem single
  | pwdAuth account password =>
    simp only [LoginRequest.attempt, wrongPassword, LoginRequest.password, codeRefused]
    cases services.decodeAndDecrypt password with
    | none => simp
    | some password => simpa using authAttempt_eq_wrong_iff mem single

end OneRow

section Steps

variable {ι : Type} {caller : ι} {clock : Int} {log : List (LoginEvent ι)} {read : Counter}

theorem clock_le_of_advance {store next : LoginStore ι} {phase after : LoginPhase}
    (advanced : req.advance services config caller now store phase = some (next, after)) : store.clock ≤ now := by
  unfold advance at advanced
  split at advanced
  · cases advanced
  · omega

theorem advance_waiting (lockable : Lockable config row) (isTo : req.IsTo services config users row)
    (later : clock ≤ now) :
    req.advance services config caller now ⟨setCounter users row.id counter, clock, log⟩ .waiting =
      some (⟨setCounter users row.id counter, now, .started caller now :: log⟩,
        if counter.time + (lockRules config).lockTime ≤ now then .resetting (row.withCounter counter) now
        else .matched (some (handleUserBaseInfo (row.withCounter counter)))) := by
  rw [advance, if_neg (not_lt.mpr later)]
  dsimp only
  rw [loginRequest_findAccount_setCounter isTo]
  dsimp only
  rw [unlocks_withCounter lockable]
  by_cases passed : counter.time + (lockRules config).lockTime ≤ now
  · rw [if_pos (decide_eq_true passed), if_pos passed]
  · rw [if_neg fun due => passed (of_decide_eq_true due), if_neg passed]

theorem advance_matched (lockable : Lockable config row) (isTo : req.IsTo services config users row)
    (later : clock ≤ now) :
    ∃ error, req.advance services config caller now ⟨setCounter users row.id counter, clock, log⟩
        (.matched (some (handleUserBaseInfo (row.withCounter read)))) = match decision (lockRules config)
          now row.id read error (req.attempt services (imageAsked config read.count) now users row.id) with
      | .refuse error => some (⟨setCounter users row.id counter, now, .returned caller now false :: log⟩,
        .finished (.error error)) | decision => some (⟨setCounter users row.id counter, now, log⟩,
          .decided (some (handleUserBaseInfo (row.withCounter read))) decision) := by
  obtain ⟨error, decides⟩ := @decide_withCounter services config now users row read req lockable isTo counter
  refine ⟨error, ?_⟩
  rw [advance, if_neg (not_lt.mpr later)]
  rw [decides]
  rfl

variable {userInfo : Option AccountInfo}

theorem advance_counting (mem : row ∈ users) (past : 0 ≤ now) (later : clock ≤ now) {count : Int}
    (nonneg : 0 ≤ count) {error : LoginError} :
    req.advance services config caller now ⟨setCounter users row.id counter, clock, log⟩
        (.decided userInfo (.count row.id count error)) =
      some (⟨setCounter users row.id ⟨count, now⟩, now, .returned caller now false :: log⟩,
        .finished (.error error)) := by
  rw [advance, if_neg (not_lt.mpr later)]
  dsimp only [carryOut]
  rw [updatePwdErrInfo_setCounter mem past nonneg]
  rfl

end Steps

end SecurityFabric.Authentication
