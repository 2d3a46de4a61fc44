import SecurityFabric.Model.ShareMgnt.Common

/-! # Codes, locked accounts and changing a password

With `isForgetPwd` the caller of `modify_password` presents a numeric code that was sent somewhere else; otherwise the
old password, and an image code after too many wrong passwords. The row of a code does not say for whom it was created.
A code is checked by one function and deleted by another.

The lock is computed from a counter of wrong passwords and the time of its last change, of which only the part within a
day counts.
-/

namespace SecurityFabric.ShareMgnt

section

variable (settings : Settings) (now : Int)
variable (users : List DbUser) (dbUser : Option DbUser) (account : String)

def vcodeNull : Failure := ⟨.checkVcodeIsNull, "IDS_VCODE_NULL", {}⟩
def vcodeWrong : Failure := ⟨.checkVcodeIsWrong, "IDS_VCODE_ERROR", {}⟩

def getVcode (vcodes : List VcodeInfo) (uuid : String) (vcodeType : VcodeType) : Option VcodeInfo :=
  vcodes.find? fun row => row.uuid = uuid ∧ row.vcodeType = vcodeType

def updateVcodeErrCnt (vcodes : List VcodeInfo) (vcodeErrorCnt : Int) (uuid : String) : List VcodeInfo :=
  vcodes.map fun row => if row.uuid = uuid then { row with vcodeErrorCnt := vcodeErrorCnt } else row

def deleteVcodeInfo (vcodes : List VcodeInfo) (uuid : String) : List VcodeInfo :=
  vcodes.filter fun row => row.uuid ≠ uuid

/-- What `verify_vcode_info` finds wrong with the code once the row is read, with the number of errors to be stored. -/
def checkVcode (results : VcodeInfo) (vcodeIn : String) : Except (Failure × Option Int) Unit :=
  let vcodeErrorCnt := results.vcodeErrorCnt + 1
  if vcodeErrorCnt > 3 then throw (⟨.checkVcodeMoreThanTheLimit, "IDS_VCODE_MORE_THAN_THE_LIMIT", {}⟩, none)
  else if vcodeIn = "" then throw (vcodeNull, some vcodeErrorCnt)
  else if settings.upper results.vcode ≠ settings.upper vcodeIn then throw (vcodeWrong, some vcodeErrorCnt)
  else if results.createtime < now - 5 * 60 then throw (⟨.checkVcodeIsTimeout, "IDS_VCODE_TIMEOUT", {}⟩, none)
  else pure ()

def verifyVcodeInfo (uuidIn vcodeIn : String) (vcodeType : VcodeType) (deleteAfterCheck : Bool) : Service Unit := do
  if uuidIn = "" then throw vcodeNull
  match getVcode (← get).vcodes uuidIn vcodeType with
  | none => throw vcodeWrong
  | some results =>
    if deleteAfterCheck then modify fun tables => { tables with vcodes := deleteVcodeInfo tables.vcodes uuidIn }
    match checkVcode settings now results vcodeIn with
    | .ok _ => pure ()
    | .error (failure, none) => throw failure
    | .error (failure, some vcodeErrorCnt) =>
      modify fun tables => { tables with vcodes := updateVcodeErrCnt tables.vcodes vcodeErrorCnt uuidIn }
      throw failure

def isUserNeedCheckVcode : Bool :=
  settings.vcodeConfig.isEnable && dbUser.any fun row => settings.vcodeConfig.passwdErrCnt ≤ row.pwdErrorCnt

/-- Whether a code is shown next time; it is if the user is not known. -/
def isUserNeedDisplayVcode : Bool :=
  settings.vcodeConfig.isEnable && dbUser.all fun row => settings.vcodeConfig.passwdErrCnt ≤ row.pwdErrorCnt

/-- The seconds between two times; whole days are left out. -/
def secondsSince (now last : Int) : Int := (now - last) % (24 * 60 * 60)

section

variable (newPassword : String) (userId : String) (bSucess : Bool)

def setPwdLockInfo (cnt now : Int) : List DbUser :=
  users.map fun row =>
    if row.userId = userId then { row with pwdErrorCnt := cnt, pwdErrorLatestTimestamp := now } else row

/-- The new number of wrong passwords. -/
def nextPwdErrorCnt : Int :=
  if bSucess then 0
  else match userById users userId with
    | none => 0
    | some row =>
      if secondsSince now row.pwdErrorLatestTimestamp < 5 * 60 ∧ row.pwdErrorCnt ≠ 0 then row.pwdErrorCnt + 1 else 1

def modifyPwdLockInfo : Service Unit :=
  modify fun tables =>
    { tables with users := setPwdLockInfo tables.users userId (nextPwdErrorCnt now tables.users userId bSucess) now }

/-- The number of wrong passwords, and the minutes for which the user stays locked or `-1`. -/
def getPwdErrorInfo : Option (Int × Int) :=
  (userById users userId).map fun row =>
    let minutes := secondsSince now row.pwdErrorLatestTimestamp / 60
    let lockTime := settings.passwordConfig.passwdLockTime
    (row.pwdErrorCnt, if minutes ≥ lockTime then -1 else lockTime - minutes)

def accountLocked (remainMinutes : Int) : Failure :=
  ⟨.accountLocked, "account has been locked", { remainlockTime := some remainMinutes }⟩

/-- The exception for a locked account. -/
def handlePwdLockExcept {α : Type} (userId : String) : Service α := do
  match getPwdErrorInfo settings now (← get).users userId with
  | none => throw .python
  | some (_, remainMinutes) => throw (accountLocked remainMinutes)

/-- The exception for a wrong password. -/
def handlePwdErrExcept {α : Type} (userId : String) : Service α := do
  match getPwdErrorInfo settings now (← get).users userId with
  | none => throw .python
  | some (errCnt, remainMinutes) =>
    if errCnt < settings.passwordConfig.passwdErrCnt then
      throw ⟨.invalidAccountOrPassword, "invalid account or password", {}⟩
    throw { accountLocked remainMinutes with expNum := .pwdThirdFailed }

def checkUserLocked : Service Bool := do
  match getPwdErrorInfo settings now (← get).users userId with
  | none => throw .python
  | some (errCnt, minutes) =>
    if ¬ settings.passwordConfig.lockStatus then return false
    if minutes = -1 then
      modifyPwdLockInfo now userId true
      return false
    return settings.passwordConfig.passwdErrCnt ≤ errCnt

/-- Six to a hundred visible letters of ASCII. The end of a text is also found before a line break. -/
def checkIsValidPassword (pwd : String) : Bool :=
  let visible (text : List Char) : Bool :=
    6 ≤ text.length ∧ text.length ≤ 100 ∧ text.all fun letter => 0x20 ≤ letter.toNat ∧ letter.toNat ≤ 0x7e
  visible pwd.toList || (pwd.toList.getLast? == some '\n' && visible pwd.toList.dropLast)

def checkIsStrongPassword (pwd : String) : Bool :=
  let between (low high : Nat) (letter : Char) : Bool := low ≤ letter.toNat ∧ letter.toNat ≤ high
  let special (letter : Char) : Bool :=
    between 0x20 0x2f letter || between 0x3a 0x40 letter || between 0x5b 0x60 letter || between 0x7b 0x7e letter
  settings.passwordConfig.strongPwdLength ≤ pwd.length ∧ pwd.length ≤ 100 ∧
    pwd.toList.any (between 0x61 0x7a) ∧ pwd.toList.any (between 0x41 0x5a) ∧ pwd.toList.any (between 0x30 0x39) ∧
    pwd.toList.any special ∧ checkIsValidPassword pwd

def checkPasswordValid : Except Failure Unit :=
  if ¬ settings.passwordConfig.strongStatus then
    if checkIsValidPassword newPassword then pure () else throw ⟨.invalidPassword, "invalid password", {}⟩
  else
    if checkIsStrongPassword settings newPassword then pure ()
    else throw ⟨.invalidStrongPassword, "invalid strong password", {}⟩

/-- `ncTUserModifyPwdOption`; what is missing is empty. -/
structure ModifyPwdOption where
  uuid : String := ""
  vcode : String := ""
  isForgetPwd : Bool := false
deriving DecidableEq, Repr

/-- What is raised before anything else if the new password is that of new users. -/
def checkNotInitial : Except Failure Unit :=
  if settings.sha2Encrypt newPassword = settings.userDefaultPassword.sha2Pwd then
    throw ⟨.passwordIsInitial, "password is initial", {}⟩
  else pure ()

end

/-- What an account stands for if it is nobody's login name: the owner of an identity number, with the login name. -/
def matchIdcard : Option DbUser × String :=
  let encrypted := desEncryptWithPadzero settings.library account
  match userByIdcard settings users encrypted with
  | some row => (some row, row.loginName)
  | none => (none, encrypted)

/-- Whose password is to be changed. -/
def matchUser : Option DbUser × String :=
  match userByLoginName settings users account with
  | some row => (some row, account)
  | none => if settings.idCardLoginStatus then matchIdcard settings users account else (none, account)

/-- The password of this user may be changed. -/
def checkModifiable : Except Failure DbUser :=
  match dbUser with
  | none => throw ⟨.checkPasswordFailed, "invalid account or password", {}⟩
  | some row =>
    if row.authType ≠ .localUser then
      throw ⟨.cannotModifyNonlocalUserPassword, "IDS_CANT_MODIFY_NON_LOCAL_USER_PASSWORD", {}⟩
    else if row.pwdControl then throw ⟨.cannotModifyControlPassword, "IDS_CANNOT_MODIFY_CONTROL_PASSWORD", {}⟩
    else pure row

/-- The old password is the one that is stored. -/
def oldPasswordRight (row : DbUser) (oldPassword : String) : Bool :=
  ¬ ((row.password ≠ "" ∧ settings.encryptPwd oldPassword ≠ settings.lower row.password) ∨
    (row.sha2Password ≠ "" ∧ settings.sha2Encrypt oldPassword ≠ row.sha2Password))

/-- A wrong old password is counted and raised, a right one starts the count anew. -/
def checkOldPassword (row : DbUser) (userId oldPassword : String) : Service Unit := do
  if oldPasswordRight settings row oldPassword then modifyPwdLockInfo now userId true
  else if settings.passwordConfig.lockStatus then
    modifyPwdLockInfo now userId false
    try handlePwdErrExcept settings now userId
    catch ex =>
      if ex.expNum = .invalidAccountOrPassword then throw ⟨.checkPasswordFailed, "invalid account or password", {}⟩
      throw ex
  else throw ⟨.checkPasswordFailed, "invalid account or password", {}⟩

/-- The row with a new password. -/
def DbUser.withPassword (row : DbUser) (newPassword : String) : DbUser :=
  { row with
    password := "", sha2Password := settings.sha2Encrypt newPassword, ntlmPassword := settings.ntlmMd4 newPassword,
    desPassword := if settings.enableDesPassword then settings.desEncrypt newPassword else "", pwdTimestamp := now }

def updatePassword (account newPassword : String) : List DbUser :=
  users.map fun row =>
    if settings.collation.equalFold row.loginName account then row.withPassword settings now newPassword else row

/-- The exception the caller of `modify_password` sees; the user is read again. -/
def explainFailure (ex : Failure) : Failure :=
  let again := if dbUser.isSome then userByLoginName settings users account else none
  { ex with errDetail := { ex.errDetail with isShowStatus := some (isUserNeedDisplayVcode settings again) } }

/-- What `modify_password` tries once it knows whose password is meant. -/
def modifyMatched (account oldPassword newPassword : String) (option : ModifyPwdOption) : Service Unit := do
  if option.isForgetPwd then verifyVcodeInfo settings now option.uuid option.vcode .numVcode false
  else if option.uuid ≠ "" ∨ isUserNeedCheckVcode settings dbUser then
    verifyVcodeInfo settings now option.uuid option.vcode .imageVcode false
  let row ← raised (checkModifiable dbUser)
  match userByLoginName settings (← get).users account with
  | none => throw .python
  | some userInfo =>
    if settings.passwordConfig.lockStatus then
      if ← checkUserLocked settings now userInfo.userId then handlePwdLockExcept settings now userInfo.userId
    if ¬ option.isForgetPwd then checkOldPassword settings now row userInfo.userId oldPassword
    raised (checkPasswordValid settings newPassword)
    modify fun tables => { tables with users := updatePassword settings now tables.users account newPassword }
    if option.isForgetPwd then modify fun tables => { tables with vcodes := deleteVcodeInfo tables.vcodes option.uuid }

/-- What it does with an exception. -/
def handleModifyFailure (option : ModifyPwdOption) (ex : Failure) : Service Unit := do
  if ex.expNum = .pythonError then throw ex
  if option.uuid ≠ "" ∧ ¬ option.isForgetPwd then
    modify fun tables => { tables with vcodes := deleteVcodeInfo tables.vcodes option.uuid }
  if ex.expNum = .checkPasswordFailed ∧ settings.vcodeConfig.isEnable ∧ ¬ settings.passwordConfig.lockStatus then
    match dbUser with
    | some row => modifyPwdLockInfo now row.userId false
    | none => pure ()
  throw (explainFailure settings (← get).users dbUser account ex)

def modifyPassword (account oldPassword newPassword : String) (option : ModifyPwdOption) : Service Unit := do
  raised (checkNotInitial settings newPassword)
  let (dbUser, account) := matchUser settings (← get).users account
  tryCatch (modifyMatched settings now dbUser account oldPassword newPassword option)
    (handleModifyFailure settings now dbUser account option)

/-! # Calls that reset a password, side by side

Any number of calls of `modify_password` with `isForgetPwd` at the same time, with a step for every statement; the
decisions in between are those of `modifyPassword`. The statement that reads a user by the login name is taken together
with the one that reads the state of the lock, since no call changes names or ids. A statement may fail, and the call
with it.
-/

open Machine

/-- The arguments of a call. -/
structure ResetCall where
  (account newPassword uuid vcode : String)
deriving DecidableEq, Repr

/-- How far a call has got: what it does next, and when it has verified the code. A call that has come to its end
remembers when it changed the password, if it did. -/
inductive ResetPhase where
  | waiting
  | matching
  | verifying (dbUser : Option DbUser) (account : String)
  | counting (dbUser : Option DbUser) (account : String) (vcodeErrorCnt : Int) (failure : Failure)
  | checking (row : DbUser) (account : String) (verifiedAt : Int)
  | unlocking (row : DbUser) (account : String) (userId : String) (verifiedAt : Int)
  | refusing (row : DbUser) (account : String) (userId : String) (verifiedAt : Int)
  | updating (account : String) (verifiedAt : Int)
  | deleting (verifiedAt : Int)
  | explaining (dbUser : Option DbUser) (account : String) (failure : Failure)
  | finished (result : Except Failure Unit) (updated : Option Int)

/-- When the code was verified with which the call has changed the password, if it has. -/
def ResetPhase.updated : ResetPhase → Option Int
  | .deleting verifiedAt => some verifiedAt
  | .finished _ updated => updated
  | _ => none

namespace ResetCall

variable (call : ResetCall)

/-- After the row of the code is read. -/
def afterVerify (now : Int) (dbUser : Option DbUser) (account : String) (vcodes : List VcodeInfo) : ResetPhase :=
  if call.uuid = "" then .explaining dbUser account vcodeNull
  else match getVcode vcodes call.uuid .numVcode with
    | none => .explaining dbUser account vcodeWrong
    | some results =>
      match checkVcode settings now results call.vcode with
      | .error (failure, none) => .explaining dbUser account failure
      | .error (failure, some vcodeErrorCnt) => .counting dbUser account vcodeErrorCnt failure
      | .ok _ =>
        match checkModifiable dbUser with
        | .error failure => .explaining dbUser account failure
        | .ok row => .checking row account now

/-- After the lock has been looked at. -/
def afterLock (row : DbUser) (account : String) (verifiedAt : Int) : ResetPhase :=
  match checkPasswordValid settings call.newPassword with
  | .error failure => .explaining (some row) account failure
  | .ok _ => .updating account verifiedAt

/-- After the state of the lock is read. -/
def afterCheck (now : Int) (row : DbUser) (account : String) (verifiedAt : Int) (users : List DbUser) : ResetPhase :=
  match userByLoginName settings users account with
  | none => .finished (.error .python) none
  | some userInfo =>
    if ¬ settings.passwordConfig.lockStatus then call.afterLock settings row account verifiedAt
    else match getPwdErrorInfo settings now users userInfo.userId with
      | none => .finished (.error .python) none
      | some (errCnt, minutes) =>
        if minutes = -1 then .unlocking row account userInfo.userId verifiedAt
        else if settings.passwordConfig.passwdErrCnt ≤ errCnt then .refusing row account userInfo.userId verifiedAt
        else call.afterLock settings row account verifiedAt

/-- A statement of the call. -/
def execute (now : Int) (tables : Tables) (phase : ResetPhase) : Option (Tables × ResetPhase) :=
  match phase with
  | .waiting =>
    match checkNotInitial settings call.newPassword with
    | .error failure => some (tables, .finished (.error failure) none)
    | .ok _ =>
      match userByLoginName settings tables.users call.account with
      | some row => some (tables, .verifying (some row) call.account)
      | none => some (tables, if settings.idCardLoginStatus then .matching else .verifying none call.account)
  | .matching =>
    let (dbUser, account) := matchIdcard settings tables.users call.account
    some (tables, .verifying dbUser account)
  | .verifying dbUser account => some (tables, call.afterVerify settings now dbUser account tables.vcodes)
  | .counting dbUser account vcodeErrorCnt failure =>
    some ({ tables with vcodes := updateVcodeErrCnt tables.vcodes vcodeErrorCnt call.uuid },
      .explaining dbUser account failure)
  | .checking row account verifiedAt => some (tables, call.afterCheck settings now row account verifiedAt tables.users)
  | .unlocking row account userId verifiedAt =>
    some ({ tables with users := setPwdLockInfo tables.users userId 0 now },
      call.afterLock settings row account verifiedAt)
  | .refusing row account userId _ =>
    match getPwdErrorInfo settings now tables.users userId with
    | none => some (tables, .finished (.error .python) none)
    | some (_, remainMinutes) => some (tables, .explaining (some row) account (accountLocked remainMinutes))
  | .updating account verifiedAt =>
    some ({ tables with users := updatePassword settings now tables.users account call.newPassword },
      .deleting verifiedAt)
  | .deleting verifiedAt =>
    some ({ tables with vcodes := deleteVcodeInfo tables.vcodes call.uuid }, .finished (.ok ()) (some verifiedAt))
  | .explaining dbUser account failure =>
    some (tables, .finished (.error (explainFailure settings tables.users dbUser account failure)) none)
  | .finished _ _ => none

/-- A step of the call: its next statement is executed or fails. -/
def advance (choice : StatementChoice) (tables : Tables) (phase : ResetPhase) : Option (Tables × ResetPhase) :=
  match choice, phase with
  | _, .finished _ _ => none
  | .proceed now, phase => call.execute settings now tables phase
  | .fail, phase => some (tables, .finished (.error .python) phase.updated)

end ResetCall

/-- Calls at work on the tables. -/
def resetStep {ι : Type} [DecidableEq ι] (settings : Settings) (calls : ι → ResetCall) :
    Shared ι Tables ResetPhase → ι × StatementChoice → Option (Shared ι Tables ResetPhase) :=
  Shared.step fun i => (calls i).advance settings

def resetStart {ι : Type} (tables : Tables) : Shared ι Tables ResetPhase := ⟨tables, fun _ => .waiting⟩

/-- A call of `verify_vcode_info` by itself: before it reads the row, before it writes the errors it has counted, and at
its end. -/
inductive VerifyPhase where
  | waiting
  | counting (vcodeErrorCnt : Int) (failure : Failure)
  | finished (result : Except Failure Unit)

/-- The codes, and how many calls have come back with a wrong or an empty code. -/
structure VcodeTable where
  vcodes : List VcodeInfo
  guesses : Nat

/-- Calls on one code with `delete_after_check=False`. -/
structure VerifyCalls (ι : Type) where
  uuidIn : String
  vcodeType : VcodeType
  vcodeIn : ι → String

/-- The next statement of `verify_vcode_info`. -/
def VerifyCalls.advance {ι : Type} (calls : VerifyCalls ι) (settings : Settings) (i : ι) (now : Int)
    (table : VcodeTable) : VerifyPhase → Option (VcodeTable × VerifyPhase)
  | .waiting => some (table,
    match getVcode table.vcodes calls.uuidIn calls.vcodeType with
    | none => .finished (.error vcodeWrong)
    | some results =>
      match checkVcode settings now results (calls.vcodeIn i) with
      | .ok _ => .finished (.ok ())
      | .error (failure, none) => .finished (.error failure)
      | .error (failure, some vcodeErrorCnt) => .counting vcodeErrorCnt failure)
  | .counting vcodeErrorCnt failure =>
    some (⟨updateVcodeErrCnt table.vcodes vcodeErrorCnt calls.uuidIn, table.guesses + 1⟩, .finished (.error failure))
  | .finished _ => none

end

/-! # Logging in

`login` finds the user an account stands for, checks the codes that were sent along, and then the password. A wrong
password is counted and refused; only for a right one the lock is looked at. Every exception tells whether a code is
shown next time, for which the user is read again. Passwords of users of domains and third parties are checked by other
servers, which may accept any.
-/

/-- `ncTUsrmAuthenType`. -/
inductive AuthenType where
  | manager
  | normal
  | third
deriving DecidableEq, Repr

/-- `ncTUserLoginOption`; what is missing is empty. -/
structure UserLoginOption where
  uuid : String := ""
  vcode : String := ""
  isModify : Bool := false
  isPlainPwd : Bool := false
  isDaulAuthVcode : Bool := false
  otp : String := ""
deriving DecidableEq, Repr

/-- What logging in depends on besides the settings: configuration, plugins and other servers. A plugin without
validation of messages is `none`. -/
structure LoginServices where
  (domainEnabled softanywhereEnabled secretModeStatus systemInitStatus trisystemStatus : Bool)
  smsActivateStatus : Bool
  (rsaDecrypt rsa2048Decrypt : String → Option String)
  (domainUserLogin thirdAuthLogin : DbUser → String → Bool)
  smsValidatePlugin : Option (DbUser → String → Except Failure Unit)
  otpValidatePlugin : DbUser → String → Except Failure Unit

def remainAccounts : List String := ["admin", "audit", "system", "security"]

def invalidAccountOrPassword : Failure := ⟨.invalidAccountOrPassword, "invalid account or password", {}⟩
def passwordInitial : Failure := ⟨.passwordIsInitial, "password is initial", {}⟩

variable (settings : Settings) (services : LoginServices) (now : Int)

/-- The part of a name before its last `@`. -/
def beforeLastAt (name : String) : String :=
  match GoStrings.lastIndex '@' name.toList with
  | none => name
  | some index => String.ofList (name.toList.take index)

/-- The search among users of domains, and the test of the one row it takes. -/
def matchDomainUser (users : List DbUser) (userName : String) : Option DbUser :=
  let rows := users.filter fun row =>
    settings.collation.likeFold (userName.toList ++ ['@', '%', '%']) row.loginName.toList ∧ row.authType = .domain
  let first := rows.find? fun row => rows.all fun other => settings.collation.le row.loginName other.loginName
  first.filter fun row => settings.upper userName = settings.upper (beforeLastAt row.loginName)

def matchAccount (users : List DbUser) (userName : String) (authenType : Option AuthenType) : Option DbUser :=
  let byName := userByLoginName settings users userName
  let byCard := if byName.isNone ∧ authenType.isSome ∧ authenType ≠ some .manager ∧ settings.idCardLoginStatus then
      userByIdcard settings users (desEncryptWithPadzero settings.library userName)
    else byName
  if byCard.isSome then byCard
  else if services.softanywhereEnabled then
    users.find? fun row => settings.collation.equalFold row.displayName userName ∧ row.authType = .third
  else if services.domainEnabled then matchDomainUser settings users userName
  else none

/-- The code of a message; without a plugin it is one of the service's own. -/
def smsValidate (row : DbUser) (vcode : String) : Service Unit := do
  match services.smsValidatePlugin with
  | some validate => raised (validate row (strip vcode))
  | none =>
    verifyVcodeInfo settings now row.userId (strip vcode) .daulAuthVcode false
    modify fun tables => { tables with vcodes := deleteVcodeInfo tables.vcodes row.userId }

section

variable (authType : UserType) (dbUser : Option DbUser) (password : String) (authenType : AuthenType)
  (option : UserLoginOption) (b2048 : Bool)

/-- The code of a message, if there is one. The id of the user then stands for the id of the image. -/
def checkSms : Service String :=
  if option.isDaulAuthVcode then
    match dbUser with
    | some row => do
      smsValidate settings services now row option.vcode
      return row.userId
    | none => throw vcodeWrong
  else pure option.uuid

/-- The one-time password, if there is one. -/
def checkOtp : Service Unit :=
  if option.otp ≠ "" then
    match dbUser with
    | some row => raised (services.otpValidatePlugin row (strip option.otp))
    | none => throw ⟨.otpWrong, "IDS_OTP_WRONG", {}⟩
  else pure ()

/-- The code of the image, where it is asked for. -/
def checkImage (uuid : String) : Service Unit :=
  if (uuid ≠ "" ∨ isUserNeedCheckVcode settings dbUser) ∧ ¬ option.isModify then
    verifyVcodeInfo settings now uuid option.vcode .imageVcode true
  else pure ()

/-- The checks before the password. -/
def checkCodes : Service Unit := do
  let uuid ← checkSms settings services now dbUser option
  checkOtp services dbUser option
  checkImage settings now dbUser option uuid

def checkLocalPassword (row : DbUser) (password : String) : Bool :=
  if settings.lower row.password = "" then row.sha2Password = settings.sha2Encrypt password
  else settings.lower row.password = settings.encryptPwd password

/-- How the password of a user is checked; other users cannot log in. -/
def passwordCheck : Option (DbUser → String → Bool) :=
  match authType with
  | .localUser => some (checkLocalPassword settings)
  | .domain => some services.domainUserLogin
  | .third => some services.thirdAuthLogin
  | .other => none

/-- Locks are on for this type of user. -/
def locksUser : Bool :=
  settings.passwordConfig.lockStatus && (authType == .localUser || settings.enableThirdPwdLock)

/-- The password that was given is the one of new administrators, or new users. -/
def isInitialPassword (row : DbUser) (password md5Pwd sha2Pwd : String) : Bool :=
  (row.password ≠ "" ∧ settings.encryptPwd password = md5Pwd) ∨
    (row.sha2Password ≠ "" ∧ settings.sha2Encrypt password = sha2Pwd)

/-- The age of a password in hours is compared with days. -/
def checkPasswordExpire (users : List DbUser) (userId : String) : Bool :=
  settings.passwordConfig.expireTime ≠ -1 ∧ (userById users userId).any fun row =>
    (now - row.pwdTimestamp).tdiv 3600 ≥ 24 * settings.passwordConfig.expireTime

/-- What a right password has to satisfy besides. -/
def checkPasswordPolicy (row : DbUser) (password : String) : Service Unit := do
  if row.userId ∈ [userAdmin, userAudit, userSystem, userSecurit] ∧
      isInitialPassword settings row password (settings.encryptPwd settings.adminDefaultPasswd)
        (settings.sha2Encrypt settings.adminDefaultPasswd) then
    throw passwordInitial
  if row.authType = .localUser then
    if isInitialPassword settings row password settings.userDefaultPassword.md5Pwd
      settings.userDefaultPassword.sha2Pwd then
      throw passwordInitial
    if settings.passwordConfig.strongStatus ∧ ¬ checkIsStrongPassword settings password then
      throw ⟨.passwordNotSafe, "password not safe", {}⟩
    if checkPasswordExpire settings now (← get).users row.userId then
      if row.pwdControl then throw ⟨.controledPasswordExpire, "IDS_CONTROLED_PASSWORD_EXPIRED", {}⟩
      throw ⟨.passwordExpire, "password expire", {}⟩

/-- `__check_user_login_password`. -/
def checkUserLoginPassword (row : DbUser) (password : String) (func : DbUser → String → Bool) : Service String := do
  if ¬ func row password then
    if locksUser settings row.authType then modifyPwdLockInfo now row.userId false
    throw invalidAccountOrPassword
  if locksUser settings row.authType then
    if ← checkUserLocked settings now row.userId then handlePwdLockExcept settings now row.userId
  modifyPwdLockInfo now row.userId true
  checkPasswordPolicy settings now row password
  return row.userId

def switchLogin (row : DbUser) (password : String) : Service String :=
  match passwordCheck settings services row.authType with
  | some func => checkUserLoginPassword settings now row password func
  | none => throw ⟨.forbiddenLogin, "forbidden login", {}⟩

/-- The names of the administrators by their ids, and the names that are kept for them by themselves. -/
def getAllAdminAccount (users : List DbUser) : List (String × String) :=
  let admins := (users.filter fun row => row.userId ∈ [userAdmin, userAudit, userSystem, userSecurit]).map
    fun row => (row.userId, settings.lower row.loginName)
  remainAccounts.foldl (fun accounts remain =>
    if remain ∈ accounts.map (·.2) then accounts else accounts ++ [(remain, remain)]) admins

def checkUserDisable (row : DbUser) : Bool := ¬ (row.enabled ∧ row.autoDisableStatus = 0)

def checkLoginConsole (row : DbUser) (accounts : List (String × String)) : Except Failure Unit := do
  let account (id : String) : Except Failure String :=
    match accounts.lookup id with
    | some name => pure name
    | none => throw .python
  let userName := settings.lower row.loginName
  if userName ≠ (← account userAdmin) ∧ services.secretModeStatus ∧ ¬ services.systemInitStatus then
    throw ⟨.accountCannotLoginInSecretNode, "IDS_ACCOUNT_CANNOT_LOGIN_IN_SECRET_NODE", {}⟩
  if userName = (← account userSystem) then throw invalidAccountOrPassword
  if userName ∈ [← account userAudit, ← account userSecurit] ∧ ¬ services.trisystemStatus then
    throw invalidAccountOrPassword
  if userName ∉ accounts.map (·.2) ∧ checkUserDisable row then throw ⟨.userDisabled, "user is disabled", {}⟩

def checkLoginClient (row : DbUser) : Except Failure Unit :=
  if checkUserDisable row then
    if services.smsActivateStatus ∧ ¬ row.isActivate then throw ⟨.userNotActivate, "IDS_USER_NOT_ACTIVATE", {}⟩
    else throw ⟨.userDisabled, "user is disabled", {}⟩
  else pure ()

/-- The password as it is checked: at the console it comes encrypted. -/
def presentedPassword (password : String) : Option String :=
  if authenType = .manager ∧ ¬ option.isPlainPwd then
    if b2048 then services.rsa2048Decrypt password else services.rsaDecrypt password
  else some password

/-- `login_console` or `login_client`. -/
def loginAt (row : DbUser) (password : String) : Service String := do
  let accounts := getAllAdminAccount settings (← get).users
  match presentedPassword services authenType option b2048 password with
  | none => throw ⟨.invalidParamter, "invalid paramter", {}⟩
  | some password =>
    let userId ← switchLogin settings services now row password
    if authenType = .manager then raised (checkLoginConsole settings services row accounts)
    else raised (checkLoginClient services row)
    return userId

/-- What `login` tries once it knows the user. -/
def loginMatched : Service String := do
  checkCodes settings services now dbUser option
  match dbUser with
  | none => throw invalidAccountOrPassword
  | some row => loginAt settings services now authenType option b2048 row password

/-- What it does with an exception. -/
def handleLoginFailure (userName : String) (ex : Failure) : Service String := do
  if ex.expNum = .pythonError then throw ex
  if ex.expNum = .invalidAccountOrPassword ∧ settings.vcodeConfig.isEnable ∧ ¬ settings.passwordConfig.lockStatus then
    match dbUser with
    | some row => modifyPwdLockInfo now row.userId false
    | none => pure ()
  let users := (← get).users
  let again := if dbUser.isSome then matchAccount settings services users userName none else none
  throw { ex with errDetail := { ex.errDetail with isShowStatus := some (isUserNeedDisplayVcode settings again) } }

end

def login (userName password : String) (authenType : AuthenType) (option : UserLoginOption) (b2048 : Bool) :
    Service String := do
  let dbUser := matchAccount settings services (← get).users userName (some authenType)
  tryCatch (loginMatched settings services now dbUser password authenType option b2048)
    (handleLoginFailure settings services now dbUser userName)

end SecurityFabric.ShareMgnt
