import SecurityFabric.ToMathlib.SqlLike
import SecurityFabric.ToMathlib.GoStrings
import SecurityFabric.Machine.Run

/-! # Finding the account somebody logs in to

An account is looked for by its login name, then by the identity number stored with it in encrypted form, and then, for
users of a domain, by the part of the login name before the last `@`: the first login name that begins with what was
typed in and an `@` is taken. If the lock time has passed since the count of wrong passwords was changed, the count is
set back before the row is reported.

Names are compared as the collation of the database does. An empty id stands for no row.
-/

namespace SecurityFabric.UserManagement

inductive AuthType where
  | localUser
  | domain
  | third
deriving DecidableEq, Repr

inductive DisableType where
  | enabled
  | disabled
  | deleted
deriving DecidableEq, Repr

inductive AutoDisableType where
  | enabled
  | disabled
  | expireDisabled
deriving DecidableEq, Repr

inductive LDAPServerType where
  | windowAD
  | otherLDAP
deriving DecidableEq, Repr

/-- A row of `t_user`, as far as logging in reads it. -/
structure UserAccount where
  (id account idCardNumber : String)
  authType : AuthType
  disableStatus : DisableType
  autoDisableStatus : AutoDisableType
  /-- The MD5 checksum of the password, empty if the other one is used. -/
  (password sha2Password : String)
  pwdControl : Bool
  (pwdTimeStamp pwdErrCnt pwdErrLatestTime : Int)
  ldapType : LDAPServerType
  domainPath : String
  id_ne_empty : id ≠ ""
deriving DecidableEq

/-- What is reported about an account. -/
structure AccountInfo where
  (id account : String)
  authType : AuthType
  (pwdErrCnt pwdErrLastTime : Int)
  enabled : Bool
  ldapType : LDAPServerType
  domainPath : String
deriving DecidableEq, Repr

/-- The settings of password locks; the lock time is in minutes. -/
structure PwdLockConfig where
  (enablePwdLock enableThirdPwdLock : Bool)
  (pwdErrCnt pwdLockTime : Int)
deriving DecidableEq, Repr

/-- A slice of a string whose end is negative. -/
inductive AccountFailure where
  | sliceBounds
deriving DecidableEq, Repr

namespace UserDB

variable (collation : Collation) (users : List UserAccount)

def getUserInfoByAccount (account : String) : Option UserAccount :=
  if account = "" then none
  else (users.filter fun row => collation.equalFold row.account account).getLast?

/-- The first row in the order of login names. -/
def orderByLoginName (rows : List UserAccount) : Option UserAccount :=
  rows.find? fun row => rows.all fun other => collation.le row.account other.account

def getDomainUserInfoByAccount (account : String) : Option UserAccount :=
  if account = "" then none
  else orderByLoginName collation (users.filter fun row =>
    collation.likeFold (account.toList ++ ['@', '%', '%']) row.account.toList ∧ row.authType = .domain)

def getUserInfoByIDCard (id : String) : Option UserAccount :=
  if id = "" then none
  else (users.filter fun row => collation.equalFold row.idCardNumber id).getLast?

def updatePwdErrInfo (id : String) (pwdErrCnt pwdErrLastTime : Int) : List UserAccount :=
  users.map fun row =>
    if row.id = id then { row with pwdErrCnt := pwdErrCnt, pwdErrLatestTime := pwdErrLastTime } else row

end UserDB

def handleUserBaseInfo (row : UserAccount) : AccountInfo where
  id := row.id
  account := row.account
  authType := row.authType
  pwdErrCnt := row.pwdErrCnt
  pwdErrLastTime := row.pwdErrLatestTime
  enabled := row.disableStatus = .enabled ∧ row.autoDisableStatus = .enabled
  ldapType := row.ldapType
  domainPath := row.domainPath

section Search

variable (collation : Collation) (encodeDes : String → String) (users : List UserAccount) (account : String)

/-- The search among users of domains, and the test of the one row it takes. -/
def prefixMatchAccount : Except AccountFailure (Option UserAccount) :=
  match UserDB.getDomainUserInfoByAccount collation users account with
  | none => pure none
  | some row => match GoStrings.lastIndex '@' row.account.toList with
    | none => throw .sliceBounds
    | some index =>
      if collation.equalFold account (String.ofList (row.account.toList.take index)) then pure (some row) else pure none

/-- The row of an account: by login name, by identity number, by the name in a domain. -/
def findAccount (enableIDCardLogin enablePrefixMatch : Bool) : Except AccountFailure (Option UserAccount) :=
  match UserDB.getUserInfoByAccount collation users account with
  | some row => pure (some row)
  | none =>
    match if enableIDCardLogin then UserDB.getUserInfoByIDCard collation users (encodeDes account) else none with
    | some row => pure (some row)
    | none => if enablePrefixMatch then prefixMatchAccount collation users account else pure none

end Search

section

variable (collation : Collation) (encodeDes : String → String) (config : PwdLockConfig) (curTimeStamp : Int)
  (users : List UserAccount) (account : String) (authType : AuthType)

/-- Whether wrong passwords lock accounts of a type. -/
def PwdLockConfig.locks : Bool :=
  config.enablePwdLock && (authType = .localUser || config.enableThirdPwdLock)

/-- Whether the lock time has passed since the count was last written. -/
def PwdLockConfig.unlocks (row : UserAccount) (curTimeStamp : Int) : Bool :=
  config.locks row.authType && row.pwdErrLatestTime + config.pwdLockTime * 60 ≤ curTimeStamp

/-- Set the count back if its time has passed, in the table and in the row that was read. -/
def checkAccountLocked (row : UserAccount) : List UserAccount × UserAccount :=
  if config.unlocks row curTimeStamp then
    (UserDB.updatePwdErrInfo users row.id 0 curTimeStamp, { row with pwdErrCnt := 0, pwdErrLatestTime := curTimeStamp })
  else (users, row)

/-- The answer, if an account is found, and the table afterwards. -/
def getUserInfoByAccount (enableIDCardLogin enablePrefixMatch : Bool) :
    Except AccountFailure (Option AccountInfo × List UserAccount) := do
  match ← findAccount collation encodeDes users account enableIDCardLogin enablePrefixMatch with
  | none => pure (none, users)
  | some row =>
    let (users, row) := checkAccountLocked config curTimeStamp users row
    pure (some (handleUserBaseInfo row), users)

end

/-! # Checking the password of a local account

`UserAuth` compares the checksum of a password with the stored one and then applies the policy for passwords. Its
handler refuses a request without a password. `UpdatePwdErrInfo` stores how many wrong passwords there were and when, a
time that the caller sends.
-/

/-- Why a password is not accepted; `unspecified` if there is no such user. -/
inductive AuthFailedReason where
  | unspecified
  | invalidPassword
  | initialPassword
  | passwordNotSafe
  | underControlPasswordExpire
  | passwordExpire
deriving DecidableEq, Repr

/-- The policy for passwords, and the checksums of libraries. -/
structure PasswordPolicy where
  strongPwdStatus : Bool
  strongPwdLength : Nat
  pwdExpireTime : Int
  (userDefaultMd5PWD userDefaultSha2PWD : String)
  (encodeMD5 encodeSha2 : String → String)

/-- What a request to check a password is answered with. -/
inductive AuthAnswer where
  | badRequest
  | passed
  | failed (reason : AuthFailedReason)
deriving DecidableEq, Repr

def checkIsValidPassword (pwd : String) : Bool :=
  6 ≤ pwd.length ∧ pwd.length ≤ 100 ∧ pwd.toList.all fun letter => 0x20 ≤ letter.toNat ∧ letter.toNat ≤ 0x7e

def checkIsStrongPassword (pwd : String) (strongLen : Nat) : Bool :=
  let between (low high : Nat) (letter : Char) : Bool := low ≤ letter.toNat ∧ letter.toNat ≤ high
  let special (letter : Char) : Bool :=
    between 0x20 0x2f letter || between 0x3a 0x40 letter || between 0x5b 0x60 letter || between 0x7b 0x7e letter
  checkIsValidPassword pwd ∧ strongLen ≤ pwd.utf8ByteSize ∧ pwd.toList.any (between 0x30 0x39) ∧
    pwd.toList.any (between 0x61 0x7a) ∧ pwd.toList.any (between 0x41 0x5a) ∧ pwd.toList.any special

section UserAuth

variable (folding : CaseFolding) (policy : PasswordPolicy) (now : Int)

section

variable (row : UserAccount) (plainPassword : String)

/-- The checksum of a password, by the function with which the stored one was made. -/
def UserAccount.encrypted : String :=
  if row.password = "" then policy.encodeSha2 plainPassword else policy.encodeMD5 plainPassword

/-- The password is the one of the account. -/
def UserAccount.hasPassword : Bool :=
  folding.equalFold (row.encrypted policy plainPassword) (if row.password = "" then row.sha2Password else row.password)

/-- What the policy has against the right password. -/
def UserAccount.checkPolicy : AuthAnswer :=
  let encryptedPassword := row.encrypted policy plainPassword
  if encryptedPassword = policy.userDefaultSha2PWD ∨ encryptedPassword = policy.userDefaultMd5PWD then
    .failed .initialPassword
  else if policy.strongPwdStatus ∧ ¬ checkIsStrongPassword plainPassword policy.strongPwdLength then
    .failed .passwordNotSafe
  else if policy.pwdExpireTime ≠ -1 ∧ (now - row.pwdTimeStamp).tdiv (60 * 60 * 24) ≥ policy.pwdExpireTime then
    if row.pwdControl then .failed .underControlPasswordExpire else .failed .passwordExpire
  else .passed

end

def userAuth (users : List UserAccount) (id plainPassword : String) : AuthAnswer :=
  if plainPassword = "" then .badRequest
  else match users.find? fun row => row.id = id with
    | none => .failed .unspecified
    | some row =>
      if row.hasPassword folding policy plainPassword then row.checkPolicy policy now plainPassword
      else .failed .invalidPassword

end UserAuth

inductive UpdateFailure where
  | userID
  | pwdErrCnt
  | pwdErrLastTime
deriving DecidableEq, Repr

/-- How many seconds a time may lie ahead. -/
def nOffsetTime : Int := 5

def updatePwdErrInfo (now : Int) (users : List UserAccount) (id : String) (pwdErrCnt pwdErrLastTime : Int) :
    Except UpdateFailure (List UserAccount) :=
  if users.all fun row => row.id ≠ id then throw .userID
  else if pwdErrCnt < 0 then throw .pwdErrCnt
  else if pwdErrLastTime < 0 ∨ pwdErrLastTime > now + nOffsetTime then throw .pwdErrLastTime
  else pure (UserDB.updatePwdErrInfo users id pwdErrCnt pwdErrLastTime)

/-! # Anonymous accounts

An anonymous account has a password and may have a time at which it expires and a limit on how often it is used; -1
stands for none. `Authentication` reads the account, checks what it read, and counts the visit in a transaction that
also queues a message if the account has a type, with the number of visits that was read, plus one. Either step can
fail, which leaves the tables.
-/

open Machine

/-- A row of `t_anonymity`. -/
structure AnonymousInfo where
  (id password : String)
  /-- Nanoseconds; zero if the account does not expire. -/
  (expiresAtStamp limitedTimes accessedTimes : Int)
  type : String
deriving DecidableEq, Repr

/-- The message about a visit. -/
structure AnonymityAuthMsg where
  (id type : String)
  accessedTimes : Int
  referrer : String
deriving DecidableEq, Repr

structure AnonymityStore where
  accounts : List AnonymousInfo
  outbox : List AnonymityAuthMsg
deriving DecidableEq, Repr

inductive AnonymityErrorCode where
  | anonymityNotFound
  | anonymityWrongPassword
  | anonymityReachLimitTimes
  | internal
deriving DecidableEq, Repr

structure AnonymityError where
  code : AnonymityErrorCode
  description : String
deriving DecidableEq, Repr

/-- What a query without rows leaves in the result. -/
def AnonymousInfo.zero : AnonymousInfo := ⟨"", "", 0, 0, 0, ""⟩

/-- The account, unless it has expired; a later row overwrites an earlier one. -/
def getAccount (accounts : List AnonymousInfo) (id : String) (curTimeStamp : Int) : AnonymousInfo :=
  (accounts.filter fun info => info.id = id ∧ (curTimeStamp < info.expiresAtStamp ∨ info.expiresAtStamp = 0)
    ).getLast?.getD .zero

def addAccessTimes (accounts : List AnonymousInfo) (id : String) : List AnonymousInfo :=
  accounts.map fun info => if info.id = id then { info with accessedTimes := info.accessedTimes + 1 } else info

structure AuthenticationCall where
  (id password referrer : String)
deriving DecidableEq, Repr

/-- What a call asks of the account it read. -/
def AuthenticationCall.check (call : AuthenticationCall) (info : AnonymousInfo) : Except AnonymityError Unit :=
  if info.id ≠ call.id then throw ⟨.anonymityNotFound, "record not exist"⟩
  else if call.password ≠ info.password then throw ⟨.anonymityWrongPassword, "wrong password"⟩
  else if info.limitedTimes ≠ -1 ∧ info.accessedTimes ≥ info.limitedTimes then
    throw ⟨.anonymityReachLimitTimes, "the visits has reached the limit"⟩
  else pure ()

/-- The transaction: the visit is counted in the table, the message is about the account as it was read. -/
def AuthenticationCall.write (call : AuthenticationCall) (info : AnonymousInfo) (store : AnonymityStore) :
    AnonymityStore where
  accounts := addAccessTimes store.accounts call.id
  outbox := store.outbox ++ if info.type ≠ "" then [⟨call.id, info.type, info.accessedTimes + 1, call.referrer⟩] else []

inductive AuthenticationPhase where
  | waiting
  | writing (info : AnonymousInfo)
  | finished (result : Except AnonymityError Unit)

/-- A query happens at some time. -/
inductive AuthenticationChoice where
  | proceed (curTimeStamp : Int)
  | fail
deriving DecidableEq, Repr

def AuthenticationCall.advance (call : AuthenticationCall) (choice : AuthenticationChoice) (store : AnonymityStore)
    (phase : AuthenticationPhase) : Option (AnonymityStore × AuthenticationPhase) :=
  match choice, phase with
  | _, .finished _ => none
  | .fail, _ => some (store, .finished (.error ⟨.internal, ""⟩))
  | .proceed curTimeStamp, .waiting =>
    let info := getAccount store.accounts call.id curTimeStamp
    match call.check info with
    | .ok () => some (store, .writing info)
    | .error failure => some (store, .finished (.error failure))
  | .proceed _, .writing info => some (call.write info store, .finished (.ok ()))

/-- Calls at work on the accounts. -/
def authenticationStep {ι : Type} [DecidableEq ι] (calls : ι → AuthenticationCall) :
    Shared ι AnonymityStore AuthenticationPhase → ι × AuthenticationChoice →
    Option (Shared ι AnonymityStore AuthenticationPhase) :=
  Shared.step fun i => (calls i).advance

def authenticationStart {ι : Type} (accounts : List AnonymousInfo) :
    Shared ι AnonymityStore AuthenticationPhase := ⟨⟨accounts, []⟩, fun _ => .waiting⟩

end SecurityFabric.UserManagement
