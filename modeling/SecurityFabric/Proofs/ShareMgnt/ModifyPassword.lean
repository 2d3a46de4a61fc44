import SecurityFabric.Model.ShareMgnt.UserManage
import SecurityFabric.ToMathlib.Guarantees

/-! # What a call that resets a password does

For a caller who presents a code, the call is refused and changes no password, or the code, the user and the password
passed every check and the password is stored. A call of the machine that runs alone comes to the same end.
-/

namespace SecurityFabric.ShareMgnt

open List CaseFolding EStateM ResetCall

variable {settings : Settings} {now : Int} {tables : Tables}
variable {dbUser : Option DbUser} {loginName : String} {failure : Failure} {results : VcodeInfo}

@[simp]
theorem run_raised {α : Type} (check : Except Failure α) (state : Tables) : (raised check).run state = match check with
    | .ok value => .ok value state
    | .error failure => .error failure state := by
  cases check <;> rfl

variable {vcode : String}

/-- What verifying a code leads to. -/
theorem run_verifyVcodeInfo {uuid : String} {vcodeType : VcodeType} (named : uuid ≠ "") :
    (verifyVcodeInfo settings now uuid vcode vcodeType false).run tables =
      match getVcode tables.vcodes uuid vcodeType with
      | none => .error vcodeWrong tables
      | some results =>
        match checkVcode settings now results vcode with
        | .ok _ => .ok () tables
        | .error (failure, none) => .error failure tables
        | .error (failure, some vcodeErrorCnt) =>
          .error failure { tables with vcodes := updateVcodeErrCnt tables.vcodes vcodeErrorCnt uuid } := by
  simp only [verifyVcodeInfo, named, ↓reduceIte, run_bind, run_get]
  cases getVcode tables.vcodes uuid vcodeType with
  | none => rfl
  | some results => rcases h : checkVcode settings now results vcode with ⟨failure, _ | cnt⟩ | _ <;> simp [h]

theorem checkVcode_ok_iff {done : Unit} :
    checkVcode settings now results vcode = .ok done ↔ results.vcodeErrorCnt < 3 ∧ vcode ≠ "" ∧
    settings.upper results.vcode = settings.upper vcode ∧ now ≤ results.createtime + 5 * 60 := by
  unfold checkVcode
  dsimp only
  split
  · exact ⟨nofun, fun passed => by omega⟩
  split
  · rename_i isEmpty
    exact ⟨nofun, fun passed => absurd isEmpty passed.2.1⟩
  split
  · rename_i different
    exact ⟨nofun, fun passed => absurd passed.2.2.1 different⟩
  split
  · exact ⟨nofun, fun passed => by omega⟩
  · rename_i few nonempty same young
    exact ⟨fun _ => ⟨by omega, nonempty, not_not.mp same, by omega⟩, fun _ => rfl⟩

variable {row : DbUser}

private theorem checkModifiable_ok_iff :
    checkModifiable dbUser = .ok row ↔ dbUser = some row ∧ row.authType = .localUser ∧ row.pwdControl = false := by
  unfold checkModifiable
  split
  · exact ⟨nofun, fun passed => (nomatch passed.1)⟩
  · split
    · rename_i foreign
      refine ⟨nofun, fun ⟨same, isLocal, _⟩ => ?_⟩
      cases same
      exact absurd isLocal foreign
    split
    · rename_i controlled
      refine ⟨nofun, fun ⟨same, _, free⟩ => ?_⟩
      cases same
      exact absurd controlled (by rw [free]; exact Bool.false_ne_true)
    · rename_i isLocal free
      constructor
      · intro passed
        cases passed
        exact ⟨rfl, not_not.mp isLocal, Bool.eq_false_iff.mpr free⟩
      · rintro ⟨same, _⟩
        cases same
        rfl

/-- The user is locked at a time. -/
def DbUser.LockedAt (settings : Settings) (now : Int) (row : DbUser) : Prop :=
  settings.passwordConfig.lockStatus = true ∧ secondsSince now row.pwdErrorLatestTimestamp / 60 <
    settings.passwordConfig.passwdLockTime ∧
    settings.passwordConfig.passwdErrCnt ≤ row.pwdErrorCnt

instance (row : DbUser) : Decidable (row.LockedAt settings now) := inferInstanceAs (Decidable (_ ∧ _ ∧ _))

/-- What looking at the lock leads to, for a user who is there. -/
theorem run_checkUserLocked {userId : String} (found : userById tables.users userId = some row) :
    (checkUserLocked settings now userId).run tables = if settings.passwordConfig.lockStatus =
      false then .ok false tables
      else if settings.passwordConfig.passwdLockTime ≤ secondsSince now row.pwdErrorLatestTimestamp / 60 then
        .ok false { tables with users := setPwdLockInfo tables.users userId 0 now }
      else .ok (settings.passwordConfig.passwdErrCnt ≤ row.pwdErrorCnt : Bool) tables := by
  simp only [checkUserLocked, getPwdErrorInfo, found, run_bind, run_get]
  by_cases off : settings.passwordConfig.lockStatus = false
  · simp [off]
  by_cases expired : settings.passwordConfig.passwdLockTime ≤ secondsSince now row.pwdErrorLatestTimestamp / 60
  · simp [off, expired, modifyPwdLockInfo, nextPwdErrorCnt, -bind_pure_comp]
  · have running : ¬ settings.passwordConfig.passwdLockTime - secondsSince now row.pwdErrorLatestTimestamp / 60 =
        -1 := by
      omega
    simp [off, expired, running]

/-- Ids and login names are keys of `t_user`. -/
structure UserKeys (settings : Settings) (users : List DbUser) : Prop where
  ids : ∀ row ∈ users, ∀ other ∈ users, row.userId = other.userId → row = other
  names : ∀ row ∈ users, ∀ other ∈ users, settings.collation.equalFold row.loginName other.loginName = true →
    row = other

section Keys

variable {users : List DbUser} {user : DbUser} {account : String}

variable (keys : UserKeys settings users)

include keys

private theorem UserKeys.userById (mem : user ∈ users) : userById users user.userId = some user := by
  refine find?_of_unique mem (decide_eq_true rfl) fun row isRow same => ?_
  exact keys.ids row isRow user mem (of_decide_eq_true same)

theorem UserKeys.userByLoginName (mem : user ∈ users)
    (named : settings.collation.equalFold user.loginName account = true) :
    userByLoginName settings users account = some user := by
  refine find?_of_unique mem named fun row isRow same => ?_
  rw [equalFold_iff] at same named
  exact keys.names row isRow user mem (equalFold_iff.mpr (same.trans named.symm))

theorem matchUser_some (matched : matchUser settings users account = (some row, loginName)) :
    ShareMgnt.userByLoginName settings users loginName = some row := by
  unfold matchUser at matched
  split at matched
  · rename_i found
    cases matched
    exact found
  · split at matched
    · unfold matchIdcard at matched
      dsimp only at matched
      split at matched
      · rename_i found
        cases matched
        exact keys.userByLoginName (mem_of_find?_eq_some found) (equalFold_iff.mpr rfl)
      · cases matched
    · cases matched

theorem matchUser_loginName (mem : user ∈ users) :
    matchUser settings users user.loginName = (some user, user.loginName) := by
  rw [matchUser, keys.userByLoginName mem (equalFold_iff.mpr rfl)]

end Keys

/-- Every row has the password that the user had before. -/
def SamePasswords (users after : List DbUser) : Prop :=
  ∀ row ∈ after, ∃ old ∈ users, old.userId = row.userId ∧ old.password = row.password ∧
    old.sha2Password = row.sha2Password

private theorem SamePasswords.refl (users : List DbUser) : SamePasswords users users :=
  fun row mem => ⟨row, mem, rfl, rfl, rfl⟩

/-- The users after the lock has been looked at: an expired one is taken away. -/
def refreshLock (settings : Settings) (now : Int) (users : List DbUser) (user : DbUser) : List DbUser :=
  if settings.passwordConfig.lockStatus = true ∧
      settings.passwordConfig.passwdLockTime ≤ secondsSince now user.pwdErrorLatestTimestamp / 60 then
    setPwdLockInfo users user.userId 0 now
  else users

theorem mem_refreshLock {users : List DbUser} {other row : DbUser} (mem : row ∈ refreshLock settings now users other) :
    ∃ old ∈ users, old.userId = row.userId ∧ old.loginName = row.loginName ∧ old.password = row.password ∧
      old.sha2Password = row.sha2Password := by
  unfold refreshLock at mem
  split at mem
  · obtain ⟨old, isOld, rfl⟩ := mem_map.mp mem
    refine ⟨old, isOld, ?_⟩
    split <;> exact ⟨rfl, rfl, rfl, rfl⟩
  · exact ⟨row, mem, rfl, rfl, rfl, rfl⟩

private theorem samePasswords_refreshLock (users : List DbUser) (user : DbUser) :
    SamePasswords users (refreshLock settings now users user) := by
  intro row mem
  obtain ⟨old, isOld, sameId, -, samePassword⟩ := mem_refreshLock mem
  exact ⟨old, isOld, sameId, samePassword⟩

/-- A call with a code passes every check. -/
structure Accepts (settings : Settings) (now : Int) (tables : Tables) (call : ResetCall) (user : DbUser)
    (loginName : String) : Prop where
  notInitial : checkNotInitial settings call.newPassword = .ok ()
  named : call.uuid ≠ ""
  code : ∃ results, getVcode tables.vcodes call.uuid .numVcode = some results ∧
    checkVcode settings now results call.vcode = .ok ()
  matched : matchUser settings tables.users call.account = (some user, loginName)
  modifiable : user.authType = .localUser ∧ user.pwdControl = false
  unlocked : ¬ user.LockedAt settings now
  valid : checkPasswordValid settings call.newPassword = .ok ()

/-- The tables after a call that passes every check. -/
def resetTables (settings : Settings) (now : Int) (tables : Tables) (call : ResetCall) (user : DbUser)
    (loginName : String) : Tables where
  users := updatePassword settings now (refreshLock settings now tables.users user) loginName call.newPassword
  vcodes := deleteVcodeInfo tables.vcodes call.uuid

/-- The arguments of `modify_password` for this call. -/
def ResetCall.option (call : ResetCall) : ModifyPwdOption := ⟨call.uuid, call.vcode, true⟩

variable {call : ResetCall}

/-- What is tried when code and user are right, up to the lock. -/
theorem run_modifyMatched_of_code {userInfo : DbUser} (oldPassword : String) (keys : UserKeys settings tables.users)
    (named : call.uuid ≠ "") (read : getVcode tables.vcodes call.uuid .numVcode = some results)
    (right : checkVcode settings now results call.vcode = .ok ()) (isLocal : row.authType = .localUser)
    (free : row.pwdControl = false) (found : userByLoginName settings tables.users loginName = some userInfo) :
    (modifyMatched settings now (some row) loginName oldPassword call.newPassword call.option).run tables =
      if userInfo.LockedAt settings now then
        .error (accountLocked (settings.passwordConfig.passwdLockTime - secondsSince now
          userInfo.pwdErrorLatestTimestamp / 60)) tables
      else match checkPasswordValid settings call.newPassword with
        | .error failure =>
          .error failure { tables with users := refreshLock settings now tables.users userInfo }
        | .ok _ => .ok () (resetTables settings now tables call userInfo loginName) := by
  have byId := keys.userById (mem_of_find?_eq_some found)
  have modifiable : checkModifiable (some row) = .ok row := checkModifiable_ok_iff.mpr ⟨rfl, isLocal, free⟩
  simp only [modifyMatched, option, ↓reduceIte, run_bind, run_verifyVcodeInfo named, read, right, run_raised,
    modifiable, run_get, found]
  by_cases off : settings.passwordConfig.lockStatus = false
  · cases checkPasswordValid settings call.newPassword <;> simp [off, DbUser.LockedAt, resetTables, refreshLock]
  by_cases expired : settings.passwordConfig.passwdLockTime ≤ secondsSince now userInfo.pwdErrorLatestTimestamp / 60
  · cases checkPasswordValid settings call.newPassword <;>
      simp [off, DbUser.LockedAt, resetTables, refreshLock, run_checkUserLocked byId, expired]
  by_cases many : settings.passwordConfig.passwdErrCnt ≤ userInfo.pwdErrorCnt
  · simp [off, DbUser.LockedAt, run_checkUserLocked byId, expired, many, handlePwdLockExcept, getPwdErrorInfo, byId]
  · cases checkPasswordValid settings call.newPassword <;>
      simp [off, DbUser.LockedAt, resetTables, refreshLock, run_checkUserLocked byId, expired, many]

private theorem run_handleModifyFailure {ex : Failure} (notPython : ex.expNum ≠ .pythonError)
    (unknown : ex.expNum = .checkPasswordFailed → dbUser = none) :
    (handleModifyFailure settings now dbUser loginName call.option ex).run tables =
      .error (explainFailure settings tables.users dbUser loginName ex) tables := by
  by_cases failed : ex.expNum = .checkPasswordFailed
  · simp [handleModifyFailure, option, notPython, unknown failed]
  · simp [handleModifyFailure, option, notPython, failed]

/-- One statement after the other, all at one time. -/
def Alone (settings : Settings) (call : ResetCall) (now : Int) : Tables × ResetPhase → Tables × ResetPhase → Prop :=
  Relation.ReflTransGen fun before after => call.execute settings now before.1 before.2 = some after

section

variable (settings : Settings) (now : Int) (tables : Tables) (call : ResetCall) (dbUser : Option DbUser)
  (loginName oldPassword : String)

/-- How a call ends that runs alone. -/
inductive ResetOutcome : EStateM.Result Failure Tables Unit → ResetPhase → Prop
  | refused (failure : Failure) (after : Tables) (same : SamePasswords tables.users after.users) :
      ResetOutcome (.error failure after) (.finished (.error failure) none)
  | accepted {user : DbUser} {loginName : String} (accepts : Accepts settings now tables call user loginName) :
      ResetOutcome (.ok () (resetTables settings now tables call user loginName)) (.finished (.ok ()) (some now))

/-- The call from the point where the user is known. -/
def modifyTry : Service Unit :=
  tryCatch (modifyMatched settings now dbUser loginName oldPassword call.newPassword call.option)
    (handleModifyFailure settings now dbUser loginName call.option)

/-- From the point where the user is known, the call and the machine come to the same end. -/
def EndsAlike : Prop :=
  ∃ phase, ResetOutcome settings now tables call ((modifyTry settings now call dbUser loginName oldPassword).run tables)
    phase ∧ Alone settings call now (tables, .verifying dbUser loginName)
      (afterwards ((modifyTry settings now call dbUser loginName oldPassword).run tables), phase)

end

variable {oldPassword : String}

private theorem endsAlike_of_refused {after : Tables}
    (refused : (modifyMatched settings now dbUser loginName oldPassword call.newPassword call.option).run tables =
      .error failure after)
    (notPython : failure.expNum ≠ .pythonError) (unknown : failure.expNum = .checkPasswordFailed → dbUser = none)
    (same : SamePasswords tables.users after.users)
    (reached : Alone settings call now (tables, .verifying dbUser loginName)
      (after, .explaining dbUser loginName failure)) :
    EndsAlike settings now tables call dbUser loginName oldPassword := by
  unfold EndsAlike
  rw [modifyTry, run_tryCatch, refused]
  dsimp only
  rw [run_handleModifyFailure notPython unknown]
  exact ⟨_, .refused _ after same, reached.tail rfl⟩

private theorem checkVcode_error {cnt : Option Int}
    (refused : checkVcode settings now results vcode = .error (failure, cnt)) :
    failure.expNum ≠ .pythonError ∧ failure.expNum ≠ .checkPasswordFailed := by
  unfold checkVcode at refused
  dsimp only at refused
  repeat' split at refused
  all_goals cases refused
  all_goals exact ⟨nofun, nofun⟩

private theorem checkModifiable_error (refused : checkModifiable dbUser = .error failure) :
    failure.expNum ≠ .pythonError ∧ (failure.expNum = .checkPasswordFailed → dbUser = none) := by
  unfold checkModifiable at refused
  repeat' split at refused
  all_goals cases refused
  · exact ⟨nofun, fun _ => rfl⟩
  · exact ⟨nofun, nofun⟩
  · exact ⟨nofun, nofun⟩

private theorem checkPasswordValid_error {newPassword : String}
    (refused : checkPasswordValid settings newPassword = .error failure) :
    failure.expNum ≠ .pythonError ∧ failure.expNum ≠ .checkPasswordFailed := by
  unfold checkPasswordValid at refused
  repeat' split at refused
  all_goals cases refused
  all_goals exact ⟨nofun, nofun⟩

/-- The code is refused. -/
theorem endsAlike_of_code_refused (wrong : ∀ results, getVcode tables.vcodes call.uuid .numVcode = some results →
      checkVcode settings now results call.vcode ≠ .ok ()) (named : call.uuid ≠ "") :
    EndsAlike settings now tables call dbUser loginName oldPassword := by
  cases read : getVcode tables.vcodes call.uuid .numVcode with
  | none =>
    refine endsAlike_of_refused (?_ : _ = Result.error vcodeWrong tables) nofun nofun (.refl _) (.single ?_)
    · simp [modifyMatched, option, run_verifyVcodeInfo named, read]
    · simp [execute, afterVerify, named, read]
  | some results =>
    rcases checked : checkVcode settings now results call.vcode with ⟨failure, _ | cnt⟩ | _
    · obtain ⟨notPython, notFailed⟩ := checkVcode_error checked
      refine endsAlike_of_refused (?_ : _ = Result.error failure tables) notPython (absurd · notFailed)
        (.refl _) (.single ?_)
      · simp [modifyMatched, option, run_verifyVcodeInfo named, read, checked]
      · simp [execute, afterVerify, named, read, checked]
    · -- the error is counted before the exception is raised
      obtain ⟨notPython, notFailed⟩ := checkVcode_error checked
      refine endsAlike_of_refused (?_ : _ = Result.error failure
        { tables with vcodes := updateVcodeErrCnt tables.vcodes cnt call.uuid })
        notPython (absurd · notFailed) (.refl _) (.head (?_ : _ =
          some (tables, .counting dbUser loginName cnt failure)) (.single rfl))
      · simp [modifyMatched, option, run_verifyVcodeInfo named, read, checked]
      · simp [execute, afterVerify, named, read, checked]
    · exact absurd checked (wrong results read)

/-- The code is right, but the password of the user cannot be changed. -/
theorem endsAlike_of_unmodifiable (named : call.uuid ≠ "")
    (read : getVcode tables.vcodes call.uuid .numVcode = some results)
    (right : checkVcode settings now results call.vcode = .ok ())
    (unmodifiable : checkModifiable dbUser = .error failure) :
    EndsAlike settings now tables call dbUser loginName oldPassword := by
  obtain ⟨notPython, unknown⟩ := checkModifiable_error unmodifiable
  refine endsAlike_of_refused (?_ : _ = Result.error failure tables) notPython unknown (.refl _) (.single ?_)
  · simp [modifyMatched, option, run_verifyVcodeInfo named, read, right, unmodifiable]
  · simp [execute, afterVerify, named, read, right, unmodifiable]

section Keys

variable (keys : UserKeys settings tables.users)

include keys

/-- Where the machine stands once the lock has been looked at and does not hold. -/
theorem alone_afterLock {verifiedAt : Int} (found : userByLoginName settings tables.users loginName = some row)
    (unlocked : ¬ row.LockedAt settings now) : Alone settings call now (tables, .checking row loginName verifiedAt)
      ({ tables with users := refreshLock settings now tables.users row },
        call.afterLock settings row loginName verifiedAt) := by
  have byId := keys.userById (mem_of_find?_eq_some found)
  by_cases off : settings.passwordConfig.lockStatus = false
  · exact .single (by simp [execute, afterCheck, found, off, refreshLock])
  by_cases expired : settings.passwordConfig.passwdLockTime ≤ secondsSince now row.pwdErrorLatestTimestamp / 60
  · refine .head (?_ : _ = some (tables, .unlocking row loginName row.userId verifiedAt)) (.single ?_)
    · simp [execute, afterCheck, found, off, getPwdErrorInfo, byId, expired]
    · simp [execute, off, refreshLock, expired]
  · have few : ¬ settings.passwordConfig.passwdErrCnt ≤ row.pwdErrorCnt := fun many =>
      unlocked ⟨by simpa using off, by omega, many⟩
    have running : ¬ settings.passwordConfig.passwdLockTime - secondsSince now row.pwdErrorLatestTimestamp / 60 =
        -1 := by
      omega
    exact .single (by
      simp [execute, afterCheck, found, getPwdErrorInfo, byId, expired, running, few, refreshLock])

/-- A locked user is refused. -/
theorem alone_refusing {verifiedAt : Int} (found : userByLoginName settings tables.users loginName = some row)
    (locked : row.LockedAt settings now) : Alone settings call now (tables, .checking row loginName verifiedAt)
      (tables, .explaining (some row) loginName (accountLocked (settings.passwordConfig.passwdLockTime -
        secondsSince now row.pwdErrorLatestTimestamp / 60))) := by
  have byId := keys.userById (mem_of_find?_eq_some found)
  obtain ⟨isOn, running, many⟩ := locked
  have unexpired : ¬ settings.passwordConfig.passwdLockTime ≤ secondsSince now row.pwdErrorLatestTimestamp / 60 := by
    omega
  have positive : ¬ settings.passwordConfig.passwdLockTime - secondsSince now row.pwdErrorLatestTimestamp / 60 =
      -1 := by
    omega
  refine .head (?_ : _ = some (tables, .refusing row loginName row.userId verifiedAt)) (.single ?_)
  · simp [execute, afterCheck, found, isOn, getPwdErrorInfo, byId, unexpired, positive, many]
  · simp [execute, getPwdErrorInfo, byId, unexpired]

/-- From the point where the user is known, the call and the machine come to the same end. -/
theorem endsAlike (notInitial : checkNotInitial settings call.newPassword = .ok ())
    (matched : matchUser settings tables.users call.account = (dbUser, loginName)) (oldPassword : String) :
    EndsAlike settings now tables call dbUser loginName oldPassword := by
  by_cases named : call.uuid = ""
  · refine endsAlike_of_refused (?_ : _ = Result.error vcodeNull tables) nofun nofun (.refl _) (.single ?_)
    · simp [modifyMatched, option, verifyVcodeInfo, named]
    · simp [execute, afterVerify, named]
  by_cases code : ∃ results, getVcode tables.vcodes call.uuid .numVcode = some results ∧
    checkVcode settings now results call.vcode = .ok ()
  swap
  · exact endsAlike_of_code_refused (fun results read right => code ⟨results, read, right⟩) named
  obtain ⟨results, read, right⟩ := code
  cases modifiable : checkModifiable dbUser with
  | error failure => exact endsAlike_of_unmodifiable named read right modifiable
  | ok row =>
    obtain ⟨rfl, isLocal, free⟩ := checkModifiable_ok_iff.mp modifiable
    have found := matchUser_some keys matched
    have run := run_modifyMatched_of_code oldPassword keys named read right isLocal free found
    have verified : call.execute settings now tables (.verifying (some row) loginName) =
        some (tables, .checking row loginName now) := by
      simp [execute, afterVerify, named, read, right, modifiable]
    by_cases locked : row.LockedAt settings now
    · rw [if_pos locked] at run
      exact endsAlike_of_refused run nofun nofun (.refl _) (.head verified (alone_refusing keys found locked))
    rw [if_neg locked] at run
    have unlocked : Alone settings call now (tables, .checking row loginName now) _ := alone_afterLock keys found locked
    unfold afterLock at unlocked
    cases valid : checkPasswordValid settings call.newPassword with
    | error failure =>
      obtain ⟨notPython, notFailed⟩ := checkPasswordValid_error valid
      rw [valid] at run unlocked
      exact endsAlike_of_refused run notPython (absurd · notFailed) (samePasswords_refreshLock _ _)
        (.head verified unlocked)
    | ok done =>
      rw [valid] at run unlocked
      have result : (modifyTry settings now call (some row) loginName oldPassword).run tables =
          .ok () (resetTables settings now tables call row loginName) := by
        rw [modifyTry, run_tryCatch, run]
      refine ⟨.finished (.ok ()) (some now), ?_, ?_⟩
      · rw [result]
        exact .accepted ⟨notInitial, named, ⟨results, read, right⟩, matched, ⟨isLocal, free⟩, locked, valid⟩
      · rw [result]
        exact .head verified (unlocked.trans (.head rfl (.single rfl)))

/-- A call that runs alone ends as `modifyPassword` does, with the same tables: it is refused and changes no password,
or it passes every check and stores the new one. -/
theorem modifyPassword_alone (oldPassword : String) : ∃ phase, ResetOutcome settings now tables call
      ((modifyPassword settings now call.account oldPassword call.newPassword call.option).run tables) phase ∧
    Alone settings call now (tables, .waiting)
      (afterwards ((modifyPassword settings now call.account oldPassword call.newPassword call.option).run tables),
        phase) := by
  cases initial : checkNotInitial settings call.newPassword with
  | error failure =>
    have refused : (modifyPassword settings now call.account oldPassword call.newPassword call.option).run tables =
        .error failure tables := by
      simp [modifyPassword, initial]
    rw [refused]
    exact ⟨_, .refused failure tables (.refl _), .single (by simp [execute, initial, afterwards])⟩
  | ok done =>
    rcases matched : matchUser settings tables.users call.account with ⟨dbUser, loginName⟩
    have result : (modifyPassword settings now call.account oldPassword call.newPassword call.option).run tables =
        (modifyTry settings now call dbUser loginName oldPassword).run tables := by
      simp [modifyPassword, initial, matched, modifyTry]
    obtain ⟨phase, outcome, alone⟩ := endsAlike keys initial matched oldPassword
    rw [result]
    refine ⟨phase, outcome, .trans ?_ alone⟩
    unfold matchUser at matched
    split at matched
    · rename_i found
      cases matched
      exact .single (by simp [execute, initial, found])
    · rename_i missing
      split at matched
      · rename_i byIdcard
        refine .head (?_ : _ = some (tables, .matching)) (.single ?_)
        · simp [execute, initial, missing, byIdcard]
        · simp [execute, matched]
      · rename_i notByIdcard
        cases matched
        exact .single (by simp [execute, initial, missing, notByIdcard])

end Keys

end SecurityFabric.ShareMgnt
