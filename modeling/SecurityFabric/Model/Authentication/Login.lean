import SecurityFabric.Model.UserManagement.Account

/-! # Logging in with a password

`ClientAccountAuth` is for clients and `PwdAuth` for applications. Both ask user management for the account, which sets
the count of wrong passwords back when the lock time has passed, decide on what they were told, and have the count
written: one more after a wrong password, or anew if the last one is five minutes old, and zero after a right one.
`ClientAccountAuth` checks the password of a locked account all the same and tells of the lock only if it is right.

Times are in seconds, and both services have the same clock.
-/

namespace SecurityFabric.Authentication

open UserManagement

inductive LoginErrorCode where
  | badRequest
  | unauthorized
  | internal
  | invalidAccountOrPassword
  | passwordIsInitial
  | passwordNotSafe
  | controledPasswordExpire
  | passwordExpire
  | userDisabled
  | accountLocked
  | pwdThirdFailed
  | imageVCodeIsWrong
  | otpWrong
  | unspecified
  | thirdParty (errID : Nat)
  | updateRefused (failure : UpdateFailure)
deriving DecidableEq, Repr

/-- The error of a login, with the details that `ClientAccountAuth` adds. -/
structure LoginError where
  code : LoginErrorCode
  isShowStatus : Option Bool := none
  remainlockTime : Option Int := none
deriving DecidableEq, Repr

/-- The settings of logging in. -/
structure LoginConfig where
  enableIDCardLogin : Bool
  lock : PwdLockConfig
  vcodeEnable : Bool
  vcodePwdErrCnt : Int
  triSystemStatus : Bool
  /-- Whether a domain is enabled, so that names in domains are looked for. -/
  domainStatus : Bool
deriving DecidableEq, Repr

inductive VCodeType where
  | none
  | image
  | dualAuthSMS
  | dualAuthOTP
deriving DecidableEq, Repr

/-- `ClientLoginReq`. -/
structure ClientLoginReq where
  (account password : String)
  uuid : String := ""
  vcode : String := ""
  vcodeType : VCodeType := .none
deriving DecidableEq, Repr

/-- What other services and libraries answer. -/
structure LoginServices where
  collation : Collation
  encodeDes : String → String
  policy : PasswordPolicy
  (imageCodeValidate smsValidate otpValidate : String → String → Option LoginErrorCode)
  (domainAuth thirdAuth : AccountInfo → String → Except LoginErrorCode Bool)
  decodeAndDecrypt : String → Option String

def securityAdminID : String := "4bb41612-a040-11e6-887d-005056920bea"
def auditAdminID : String := "94752844-BDD0-4B9E-8927-1CA8D427E699"
def systemAdminID : String := "234562BE-88FF-4440-9BFF-447F139871A2"

variable (services : LoginServices) (config : LoginConfig) (now : Int)

/-- Accounts that cannot log in: of the administrators, depending on how their duties are separated. -/
def hiddenAccount (id : String) : Bool :=
  (¬ config.triSystemStatus ∧ id ∈ [securityAdminID, auditAdminID, systemAdminID]) ∨
    (config.triSystemStatus ∧ id = systemAdminID)

/-- `authFailedMap`. -/
def authFailedCode : AuthFailedReason → LoginErrorCode
  | .unspecified => .unspecified
  | .invalidPassword => .invalidAccountOrPassword
  | .initialPassword => .passwordIsInitial
  | .passwordNotSafe => .passwordNotSafe
  | .underControlPasswordExpire => .controledPasswordExpire
  | .passwordExpire => .passwordExpire

section

variable (users : List UserAccount) (matched : Option AccountInfo)

/-- The error of a password, if it is not accepted. -/
def validatePassword (userInfo : Option AccountInfo) (password : String) : Option LoginErrorCode :=
  match userInfo with
  | none => some .invalidAccountOrPassword
  | some info =>
    let remote (answer : Except LoginErrorCode Bool) : Option LoginErrorCode :=
      match answer with
      | .error code => some code
      | .ok false => some .invalidAccountOrPassword
      | .ok true => none
    match info.authType with
    | .localUser =>
      match userAuth services.collation.toCaseFolding services.policy now users info.id password with
      | .badRequest => some .badRequest
      | .failed reason => some (authFailedCode reason)
      | .passed => none
    | .domain => remote (services.domainAuth info password)
    | .third => remote (services.thirdAuth info password)

/-- The error of a code, if it is not accepted. -/
def checkVCode (id : String) (vcodeType : VCodeType) (req : ClientLoginReq) : Option LoginErrorCode :=
  match vcodeType with
  | .none => none
  | .image => services.imageCodeValidate req.uuid req.vcode
  | .dualAuthSMS => services.smsValidate id req.vcode
  | .dualAuthOTP => services.otpValidate id req.vcode

/-- After too many wrong passwords the code has to be that of an image. -/
def validateVCode (userInfo : Option AccountInfo) (req : ClientLoginReq) : Option LoginErrorCode :=
  let pwdErrCnt := (userInfo.map (·.pwdErrCnt)).getD 0
  let id := (userInfo.map (·.id)).getD ""
  checkVCode services id (if config.vcodeEnable ∧ pwdErrCnt ≥ config.vcodePwdErrCnt then .image else req.vcodeType) req

/-- The count after a wrong password: one more, or one if the last is five minutes old. -/
def nextPwdErrCnt (info : AccountInfo) : Int :=
  if (now - info.pwdErrLastTime).tdiv 60 < 5 then info.pwdErrCnt + 1 else 1

/-- Too many wrong passwords, for an account that they lock. -/
def tooManyErrors (info : AccountInfo) : Bool :=
  config.lock.locks info.authType && config.lock.pwdErrCnt ≤ info.pwdErrCnt

/-- What a login has decided to do: fail, have the count written and fail, or have it set back and succeed. -/
inductive LoginDecision where
  | refuse (error : LoginError)
  | count (userID : String) (pwdErrCnt : Int) (error : LoginError)
  | accept (userID : String)
deriving DecidableEq, Repr

/-- `ClientAccountAuth` from the point where the account is known. -/
def clientAccountDecide (req : ClientLoginReq) : LoginDecision :=
  let userInfo := matched.filter fun info => ¬ hiddenAccount config info.id
  if userInfo.isNone ∧ req.vcodeType = .dualAuthSMS then
    .refuse { code := .imageVCodeIsWrong, isShowStatus := config.vcodeEnable }
  else if userInfo.isNone ∧ req.vcodeType = .dualAuthOTP then
    .refuse { code := .otpWrong, isShowStatus := config.vcodeEnable }
  else
    let isShowStatus := (userInfo.isNone && config.vcodeEnable) ||
      (config.vcodeEnable && config.vcodePwdErrCnt ≤ (userInfo.map (·.pwdErrCnt)).getD 0)
    match validateVCode services config userInfo req with
    | some code => .refuse { code, isShowStatus }
    | none =>
      match userInfo, validatePassword services now users userInfo req.password with
      | none, code => .refuse { code := code.getD .invalidAccountOrPassword, isShowStatus }
      | some info, some code =>
        let locked := tooManyErrors config info
        if ¬ info.enabled ∨ locked then .refuse { code, isShowStatus }
        else if ¬ config.lock.locks info.authType ∧ ¬ config.vcodeEnable then .refuse { code, isShowStatus }
        else if code ≠ .invalidAccountOrPassword then .refuse { code, isShowStatus }
        else
          let pwdErrCnt := nextPwdErrCnt now info
          .count info.id pwdErrCnt { code, isShowStatus := isShowStatus ||
            (config.vcodeEnable && config.vcodePwdErrCnt ≤ pwdErrCnt) }
      | some info, none =>
        if ¬ info.enabled then .refuse { code := .userDisabled, isShowStatus }
        else if tooManyErrors config info then
          let remainlockTime := config.lock.pwdLockTime - (now - info.pwdErrLastTime).tdiv 60
          .refuse { code := .accountLocked, isShowStatus, remainlockTime }
        else .accept info.id

/-- `PwdAuth` from the point where the account is known; the password comes encrypted. -/
def pwdAuthDecide (password : String) : LoginDecision :=
  match matched with
  | none => .refuse { code := .invalidAccountOrPassword }
  | some info =>
    match services.decodeAndDecrypt password with
    | none => .refuse { code := .badRequest }
    | some password =>
      if ¬ info.enabled then .refuse { code := .userDisabled }
      else if tooManyErrors config info then .refuse { code := .unauthorized }
      else match validatePassword services now users (some info) password with
        | none => .accept info.id
        | some code =>
          if ¬ config.lock.locks info.authType ∨ code ≠ .invalidAccountOrPassword then .refuse { code }
          else
            let pwdErrCnt := nextPwdErrCnt now info
            .count info.id pwdErrCnt { code := if config.lock.pwdErrCnt ≤ pwdErrCnt then .pwdThirdFailed else code }

end

/-- A login with a password. -/
inductive LoginRequest where
  | clientAccountAuth (req : ClientLoginReq)
  | pwdAuth (account password : String)
deriving DecidableEq, Repr

namespace LoginRequest

/-- The row of the account that is meant. -/
def findAccount (users : List UserAccount) : LoginRequest → Except AccountFailure (Option UserAccount)
  | .clientAccountAuth req =>
    UserManagement.findAccount services.collation services.encodeDes users req.account
      config.enableIDCardLogin config.domainStatus
  | .pwdAuth account _ => UserManagement.findAccount services.collation services.encodeDes users account false false

/-- The answer about the account, and the users afterwards. -/
def accountMatch (users : List UserAccount) :
    LoginRequest → Except AccountFailure (Option AccountInfo × List UserAccount)
  | .clientAccountAuth req =>
    getUserInfoByAccount services.collation services.encodeDes config.lock now users req.account
      config.enableIDCardLogin config.domainStatus
  | .pwdAuth account _ =>
    getUserInfoByAccount services.collation services.encodeDes config.lock now users account false false

def decide (users : List UserAccount) (matched : Option AccountInfo) : LoginRequest → LoginDecision
  | .clientAccountAuth req => clientAccountDecide services config now users matched req
  | .pwdAuth _ password => pwdAuthDecide services config now users matched password

end LoginRequest

/-- The decision is carried out; the result is the user for whom the login succeeds. -/
def carryOut (users : List UserAccount) : LoginDecision → Except LoginError String × List UserAccount
  | .refuse error => (.error error, users)
  | .count userID pwdErrCnt error =>
    match updatePwdErrInfo now users userID pwdErrCnt now with
    | .error failure => (.error { code := .updateRefused failure }, users)
    | .ok after => (.error error, after)
  | .accept userID =>
    match updatePwdErrInfo now users userID 0 now with
    | .error failure => (.error { code := .updateRefused failure }, users)
    | .ok after => (.ok userID, after)

/-- A whole login, at one time: its result and the users afterwards. -/
def LoginRequest.login (users : List UserAccount) (req : LoginRequest) : Except LoginError String × List UserAccount :=
  match req.accountMatch services config now users with
  | .error _ => (.error { code := .internal }, users)
  | .ok (matched, users) => carryOut now users (req.decide services config now users matched)

/-- The users after logins one after another, each at its time. -/
def logins : List UserAccount → List (Int × LoginRequest) → List UserAccount
  | users, [] => users
  | users, (now, req) :: rest => logins (req.login services config now users).2 rest

/-! # Logins that overlap

The same logins, one step for each statement. A call reads the row of its account. If the lock time has passed since the
count was written, a statement sets it back, to the time at which the row was read. The call decides on what it was
told; a last statement writes the count computed before, whatever the row says by then.

Times do not go back. The log records when calls start and return and whether they are accepted, newest first.
-/

open Machine

inductive LoginEvent (ι : Type) where
  | started (caller : ι) (time : Int)
  | returned (caller : ι) (time : Int) (accepted : Bool)
deriving DecidableEq, Repr

structure LoginStore (ι : Type) where
  users : List UserAccount
  clock : Int
  log : List (LoginEvent ι)

/-- How far a call has got. -/
inductive LoginPhase where
  | waiting
  /-- The count is to be set back. -/
  | resetting (row : UserAccount) (curTimeStamp : Int)
  | matched (userInfo : Option AccountInfo)
  /-- The decision has to be carried out. -/
  | decided (userInfo : Option AccountInfo) (decision : LoginDecision)
  | finished (result : Except LoginError String)

variable {ι : Type}

/-- The store and the phase when a call returns. -/
def LoginStore.finish (store : LoginStore ι) (caller : ι) (now : Int) (users : List UserAccount)
    (result : Except LoginError String) : LoginStore ι × LoginPhase :=
  (⟨users, now, .returned caller now result.isOk :: store.log⟩, .finished result)

/-- The next step of a call at a time. -/
def LoginRequest.advance (req : LoginRequest) (caller : ι) (now : Int) (store : LoginStore ι) (phase : LoginPhase) :
    Option (LoginStore ι × LoginPhase) :=
  if now < store.clock then none
  else match phase with
    | .waiting =>
      let store : LoginStore ι := ⟨store.users, now, .started caller now :: store.log⟩
      match req.findAccount services config store.users with
      | .error _ => some (store.finish caller now store.users (.error { code := .internal }))
      | .ok none => some (store, .matched none)
      | .ok (some row) =>
        if config.lock.unlocks row now then some (store, .resetting row now)
        else some (store, .matched (some (handleUserBaseInfo row)))
    | .resetting row curTimeStamp =>
      let (users, row) := checkAccountLocked config.lock curTimeStamp store.users row
      some (⟨users, now, store.log⟩, .matched (some (handleUserBaseInfo row)))
    | .matched userInfo =>
      match req.decide services config now store.users userInfo with
      | .refuse error => some (store.finish caller now store.users (.error error))
      | decision => some (⟨store.users, now, store.log⟩, .decided userInfo decision)
    | .decided _ decision =>
      let (result, users) := carryOut now store.users decision
      some (store.finish caller now users result)
    | .finished _ => none

/-- Calls on one table of users. -/
def loginStep [DecidableEq ι] (calls : ι → LoginRequest) :
    Shared ι (LoginStore ι) LoginPhase → ι × Int → Option (Shared ι (LoginStore ι) LoginPhase) :=
  Shared.step fun i now store phase => (calls i).advance services config i now store phase

/-- Nobody has started. -/
def loginStart (users : List UserAccount) (clock : Int) : Shared ι (LoginStore ι) LoginPhase :=
  ⟨⟨users, clock, []⟩, fun _ => .waiting⟩

/-! # An account for examples

A local account whose password is its name, services that store passwords as they are and accept every code, and a lock
of ten minutes.
-/

namespace Sample

def plainServices : LoginServices where
  collation := .ascii
  encodeDes := id
  policy := ⟨false, 8, -1, "", "", id, id⟩
  imageCodeValidate := fun _ _ => none
  smsValidate := fun _ _ => none
  otpValidate := fun _ _ => none
  domainAuth := fun _ _ => .ok false
  thirdAuth := fun _ _ => .ok false
  decodeAndDecrypt := some

/-- So many wrong passwords lock an account. -/
def lockAfter (pwdErrCnt : Int) : LoginConfig := ⟨false, ⟨true, false, pwdErrCnt, 10⟩, false, 3, false, false⟩

def alice : UserAccount :=
  ⟨"user-1", "alice", "", .localUser, .enabled, .enabled, "", "alice", false, 0, 0, 0, .windowAD, "", by decide⟩

/-- A login of a client to the account. -/
def loginAs (password : String) : LoginRequest := .clientAccountAuth { account := "alice", password }

end Sample

end SecurityFabric.Authentication
