import SecurityFabric.Proofs.ShareMgnt.ModifyPassword

/-! # What a login tells about the password of a locked user

For a locked user a wrong password is refused as such, and a right one because of the lock, so whoever tries passwords
learns the right one. The answers are the same for all passwords exactly if a code is refused before, or if the
passwords do not differ in what the check makes of them.
-/

namespace SecurityFabric.ShareMgnt

open EStateM

variable (settings : Settings) (services : LoginServices)

/-- What a login finds out about a password. -/
inductive Verdict where
  | undecipherable
  | forbidden
  | wrong
  | right
deriving DecidableEq, Repr

def verdict (authenType : AuthenType) (option : UserLoginOption) (b2048 : Bool) (row : DbUser) (password : String) :
    Verdict :=
  match presentedPassword services authenType option b2048 password with
  | none => .undecipherable
  | some presented =>
    match passwordCheck settings services row.authType with
    | none => .forbidden
    | some func => if func row presented then .right else .wrong

/-- What the caller sees: the user, or the number and the details of the exception. -/
def outcome {α : Type} : EStateM.Result Failure Tables α → Except (ErrorCode × Detail) α
  | .ok value _ => .ok value
  | .error failure _ => .error (failure.expNum, failure.errDetail)

variable {settings services} {now : Int} {tables : Tables}

/-- Whatever the program does, the users stay as they are. -/
def KeepsUsers {α : Type} (program : Service α) : Prop :=
  ∀ tables, (afterwards (program.run tables)).users = tables.users

namespace KeepsUsers

variable {α β : Type}

private theorem pure (value : α) : KeepsUsers (pure value) := fun _ => rfl

private theorem throw (failure : Failure) : KeepsUsers (throw failure : Service α) := fun _ => rfl

private theorem raised (check : Except Failure α) : KeepsUsers (raised check) := by
  cases check <;> exact fun _ => rfl

private theorem vcodes (change : Tables → List VcodeInfo) :
    KeepsUsers (modify fun tables => { tables with vcodes := change tables }) := fun _ => rfl

private theorem bind {program : Service α} {next : α → Service β} (first : KeepsUsers program)
    (second : ∀ value, KeepsUsers (next value)) :
    KeepsUsers (program >>= next) := by
  intro tables
  have kept := first tables
  rw [run_bind]
  cases result : program.run tables with
  | ok value after =>
    rw [result] at kept
    exact (second value after).trans kept
  | error failure after =>
    rw [result] at kept
    exact kept

end KeepsUsers

private theorem keepsUsers_verifyVcodeInfo (uuid vcode : String) (vcodeType : VcodeType) (deleteAfterCheck : Bool) :
    KeepsUsers (verifyVcodeInfo settings now uuid vcode vcodeType deleteAfterCheck) := by
  unfold verifyVcodeInfo
  dsimp only
  split
  · exact fun _ => rfl
  refine .bind (fun _ => rfl) fun tables => ?_
  split
  · exact .throw _
  · -- whether the code is deleted first makes no difference
    split
    on_goal 1 => refine .bind (.vcodes _) fun _ => ?_
    all_goals
      split
      · exact .pure ()
      · exact .throw _
      · exact .bind (.vcodes _) fun _ => .throw _

private theorem keepsUsers_checkSms (dbUser : Option DbUser) (option : UserLoginOption) :
    KeepsUsers (checkSms settings services now dbUser option) := by
  unfold checkSms smsValidate
  split
  · split
    · refine .bind ?_ fun _ => .pure _
      split
      · exact .raised _
      · exact .bind (keepsUsers_verifyVcodeInfo _ _ _ _) fun _ => .vcodes _
    · exact .throw _
  · exact .pure _

private theorem keepsUsers_checkCodes (dbUser : Option DbUser) (option : UserLoginOption) :
    KeepsUsers (checkCodes settings services now dbUser option) := by
  refine .bind (keepsUsers_checkSms dbUser option) fun uuid => .bind ?_ fun _ => ?_
  · unfold checkOtp
    split
    · split
      · exact .raised _
      · exact .throw _
    · exact .pure ()
  · unfold checkImage
    split
    · exact keepsUsers_verifyVcodeInfo _ _ _ _
    · exact .pure ()

private theorem exists_of_locked {userId : String} {after : Tables}
    (locked : (checkUserLocked settings now userId).run tables = .ok true after) :
    ∃ row, userById tables.users userId = some row ∧ row.LockedAt settings now := by
  cases found : userById tables.users userId with
  | none =>
    simp [checkUserLocked, getPwdErrorInfo, found] at locked
    cases locked
  | some row =>
    rw [run_checkUserLocked found] at locked
    refine ⟨row, rfl, ?_⟩
    split at locked
    · cases locked
    rename_i isOn
    split at locked
    · cases locked
    simp only [EStateM.Result.ok.injEq, decide_eq_true_eq] at locked
    exact ⟨by simpa using isOn, by omega, locked.1⟩

/-- The minutes for which the user stays locked. -/
def remainMinutes (settings : Settings) (now : Int) (row : DbUser) : Int :=
  settings.passwordConfig.passwdLockTime - secondsSince now row.pwdErrorLatestTimestamp / 60

/-- The exception for each verdict about the password of a locked user. -/
def refusal (remain : Int) : Verdict → Failure
  | .undecipherable => ⟨.invalidParamter, "invalid paramter", {}⟩
  | .forbidden => ⟨.forbiddenLogin, "forbidden login", {}⟩
  | .wrong => invalidAccountOrPassword
  | .right => accountLocked remain

/-- The tables afterwards: a wrong password is counted. -/
def tablesAfter (now : Int) (tables : Tables) (userId : String) : Verdict → Tables
  | .wrong => { tables with
      users := setPwdLockInfo tables.users userId (nextPwdErrorCnt now tables.users userId false) now }
  | _ => tables

variable {row : DbUser}

/-- A locked user is refused, in a way that depends on the verdict. -/
theorem run_loginAt_of_locked {stored : DbUser} (locks : locksUser settings row.authType = true)
    (found : userById tables.users row.userId = some stored) (locked : stored.LockedAt settings now)
    (authenType : AuthenType) (option : UserLoginOption) (b2048 : Bool) (password : String) :
    (loginAt settings services now authenType option b2048 row password).run tables =
      .error (refusal (remainMinutes settings now stored)
        (verdict settings services authenType option b2048 row password))
        (tablesAfter now tables row.userId (verdict settings services authenType option b2048 row password)) := by
  obtain ⟨isOn, running, many⟩ := locked
  have unexpired : ¬ settings.passwordConfig.passwdLockTime ≤ secondsSince now stored.pwdErrorLatestTimestamp / 60 := by
    omega
  have isLocked : (checkUserLocked settings now row.userId).run tables = .ok true tables := by
    rw [run_checkUserLocked found, if_neg (by simp [isOn]), if_neg unexpired, decide_eq_true many]
  unfold loginAt verdict
  cases presentedPassword services authenType option b2048 password with
  | none => rfl
  | some presented =>
    unfold switchLogin
    cases passwordCheck settings services row.authType with
    | none => rfl
    | some func =>
      by_cases accepted : func row presented = true
      · simp [checkUserLoginPassword, accepted, locks, isLocked, handlePwdLockExcept, getPwdErrorInfo, found, refusal,
          tablesAfter, remainMinutes, unexpired]
      · simp [checkUserLoginPassword, accepted, locks, refusal, tablesAfter, modifyPwdLockInfo]

/-- The detail that the outer handler adds. -/
def withShowStatus (settings : Settings) (services : LoginServices) (userName : String) (tables : Tables)
    (detail : Detail) : Detail :=
  { detail with
    isShowStatus := some (isUserNeedDisplayVcode settings (matchAccount settings services tables.users userName none)) }

variable {userName : String}

/-- The outcome of a login of a locked user whose codes pass. -/
theorem outcome_login_of_locked {stored : DbUser} {authenType : AuthenType} {option : UserLoginOption} {after : Tables}
    (matched : matchAccount settings services tables.users userName (some authenType) = some row)
    (locks : locksUser settings row.authType = true) (found : userById tables.users row.userId = some stored)
    (locked : stored.LockedAt settings now)
    (passed : (checkCodes settings services now (some row) option).run tables = .ok () after) (b2048 : Bool)
    (password : String) : outcome ((login settings services now userName password authenType option b2048).run tables) =
      .error ((refusal (remainMinutes settings now stored)
        (verdict settings services authenType option b2048 row password)).expNum,
        withShowStatus settings services userName
          (tablesAfter now after row.userId (verdict settings services authenType option b2048 row password))
          (refusal (remainMinutes settings now stored)
            (verdict settings services authenType option b2048 row password)).errDetail) := by
  have sameUsers : after.users = tables.users := by
    have kept : (afterwards ((checkCodes settings services now (some row) option).run tables)).users = _ :=
      keepsUsers_checkCodes (some row) option tables
    rwa [passed] at kept
  rw [← sameUsers] at found
  have refused : (loginAt settings services now authenType option b2048 row password).run after = _ :=
    run_loginAt_of_locked locks found locked authenType option b2048 password
  simp only [login, run_bind, run_get, matched, run_tryCatch, loginMatched, passed, refused]
  have notPython : (refusal (remainMinutes settings now stored)
    (verdict settings services authenType option b2048 row password)).expNum ≠
      .pythonError := by
    cases verdict settings services authenType option b2048 row password <;> exact nofun
  simp [handleLoginFailure, notPython, (Bool.and_eq_true_iff.mp locks).1, outcome, withShowStatus]
  rfl

private theorem refusal_injective {remain : Int} {first second : Verdict}
    (same : (refusal remain first).expNum = (refusal remain second).expNum) :
    first = second := by
  cases first <;> cases second <;> first | rfl | cases same

/-- For a locked user the outcome is the same for all passwords exactly if a code is refused before, or all passwords
get the same verdict. -/
theorem locked_login_same_outcome_iff {row : DbUser} {userName : String} {authenType : AuthenType}
    (matched : matchAccount settings services tables.users userName (some authenType) = some row)
    (locks : locksUser settings row.authType = true) {unlocked : Tables}
    (locked : (checkUserLocked settings now row.userId).run tables = .ok true unlocked)
    (option : UserLoginOption) (b2048 : Bool) :
    (∀ password other, outcome ((login settings services now userName password authenType option b2048).run tables) =
        outcome ((login settings services now userName other authenType option b2048).run tables)) ↔
      (∃ failure after, (checkCodes settings services now (some row) option).run tables = .error failure after) ∨
      ∀ password other, verdict settings services authenType option b2048 row password =
        verdict settings services authenType option b2048 row other := by
  obtain ⟨stored, found, isLocked⟩ := exists_of_locked locked
  cases codes : (checkCodes settings services now (some row) option).run tables with
  | error failure after =>
    simp [login, matched, loginMatched, codes]
  | ok done after =>
    have outcomes := outcome_login_of_locked matched locks found isLocked codes b2048
    constructor
    · intro same
      refine .inr fun password other => ?_
      have equal := same password other
      rw [outcomes, outcomes, Except.error.injEq, Prod.mk.injEq] at equal
      exact refusal_injective equal.1
    · rintro (⟨failure, failed, refused⟩ | same) password other
      · cases refused
      · rw [outcomes, outcomes, same password other]

namespace Sample

/-- Three wrong passwords lock a user for ten minutes. -/
def withLock : Settings := plainSettings ⟨-1, false, 8, true, 3, 10⟩

/-- No plugins and no other servers. -/
def plainServices : LoginServices where
  domainEnabled := false
  softanywhereEnabled := false
  secretModeStatus := false
  systemInitStatus := true
  trisystemStatus := false
  smsActivateStatus := false
  rsaDecrypt := fun _ => none
  rsa2048Decrypt := fun _ => none
  domainUserLogin := fun _ _ => false
  thirdAuthLogin := fun _ _ => false
  smsValidatePlugin := none
  otpValidatePlugin := fun _ _ => .ok ()

/-- A user who is locked since the beginning of time. -/
def lockedAlice : Tables := ⟨[localUser "alice" 3], []⟩

/-- A login of this user one minute later. -/
def loginAlice (option : UserLoginOption) (password : String) : Service String :=
  login withLock plainServices 60 "alice" password .normal option false

end Sample

open Sample

/-- A wrong code of an image is refused for the right password and for another one. -/
theorem locked_login_same_outcome_image :
    outcome ((loginAlice { uuid := "image", vcode := "wrong" } "alice").run lockedAlice) =
      outcome ((loginAlice { uuid := "image", vcode := "wrong" } "guess").run lockedAlice) := by
  have matched : matchAccount withLock plainServices lockedAlice.users "alice" (some .normal) =
    some (localUser "alice" 3) := by decide
  have locked : (checkUserLocked withLock 60 (localUser "alice" 3).userId).run lockedAlice = .ok true lockedAlice := rfl
  exact (locked_login_same_outcome_iff matched rfl locked { uuid := "image", vcode := "wrong" } false).mpr
    (.inl ⟨_, _, rfl⟩) "alice" "guess"

/-- The right password of a locked user is refused because of the lock, any other one as wrong. -/
theorem locked_login_tells_password : (checkUserLocked withLock 60 "alice").run lockedAlice = .ok true lockedAlice ∧
    outcome ((loginAlice {} "alice").run lockedAlice) =
      .error (.accountLocked, { remainlockTime := some 9, isShowStatus := some false }) ∧
      outcome ((loginAlice {} "guess").run lockedAlice) =
        .error (.invalidAccountOrPassword, { isShowStatus := some false }) :=
  ⟨rfl, rfl, rfl⟩

end SecurityFabric.ShareMgnt
