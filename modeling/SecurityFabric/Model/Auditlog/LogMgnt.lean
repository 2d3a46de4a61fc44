import SecurityFabric.Machine.Run
import SecurityFabric.Model.Auditlog.Condition
import SecurityFabric.ToMathlib.Float64

/-! # Receiving logs

The handler of a message looks for its business id in Redis. If it is not there, it asks user management for what the
message does not say of the user, inserts the log into the table of its type, which has no column for the business id,
and writes the business id to Redis for 300 seconds. When any of this fails, the message goes to the outbox and is
published again. Each call is a step. Texts that are written as they come are left out.
-/

namespace SecurityFabric.Auditlog

open Machine

inductive UserType where
  | authenticatedUser
  | anonymousUser
  | app
  | internalService
deriving DecidableEq, Repr

/-- What the service reads of a log that it receives. -/
structure ReceivedLog where
  (outBizID userID : String)
  userType : UserType
  (userName deptPaths additionalInfo : String)
  date : Int
deriving DecidableEq, Repr

/-- `models.User`, with the names on the way to each department. -/
structure UserInfo where
  name : String
  parentDeps : List (List String)
  roles : List String
deriving DecidableEq, Repr

/-- What the user management service answers to a handler, and nothing if the call fails. -/
structure UserMgntAnswers where
  getUserInfoByID : Option (List UserInfo)
  getAppInfoByID : Option (String × Nat)
deriving DecidableEq, Repr

/-- The texts of the configured language. -/
structure LogTexts where
  (undistributedGroup anonymousUser : String)

/-- The functions that receive logs. -/
inductive Receiver where
  | receiveLog
  | receiveAuditLog
deriving DecidableEq, Repr

section

variable (digits : Int → Int) (value : Int) (receiver : Receiver) (texts : LogTexts)
  (answers : UserMgntAnswers) (log : ReceivedLog)

/-- The departments of a user, as the log names them. -/
def UserInfo.deptPaths (user : UserInfo) : String :=
  let deptPaths := String.intercalate ", " (user.parentDeps.map (GoStrings.join · '/'))
  if GoStrings.contains (GoStrings.join user.roles ',') "normal_user" ∧
    deptPaths = "" then texts.undistributedGroup else deptPaths

def ReceivedLog.fill : List UserInfo → ReceivedLog
  | [] => log
  | user :: _ => { log with
      userName := if log.userName = "" then user.name else log.userName
      deptPaths := if log.deptPaths = "" then user.deptPaths texts else log.deptPaths }

/-- What the log says of the user. Nothing is stored for an app account that the service does not return. -/
def ReceivedLog.describe : Except Unit (Option ReceivedLog) :=
  match log.userType with
  | .authenticatedUser =>
    if log.userName = "" ∨ log.deptPaths = "" ∨ receiver = .receiveLog ∧ log.additionalInfo = "" then
      match answers.getUserInfoByID with
      | none => .error ()
      | some users => .ok (some (log.fill texts users))
    else .ok (some log)
  | .app =>
    match answers.getAppInfoByID with
    | none => .error ()
    | some (name, statusCode) =>
      if statusCode ≠ 200 then .ok none
      else .ok (some { log with userName := if log.userName = "" then name else log.userName })
  | .anonymousUser =>
    if receiver = .receiveAuditLog ∧ log.userName = "" then .ok (some { log with userName := texts.anonymousUser })
      else .ok (some log)
  | .internalService => .ok (some log)

/-- The schema of the messages for `ReceiveLog`. -/
def ReceivedLog.validPost : Bool :=
  log.userID.length ≤ 40 ∧ log.userName.length ≤ 128 ∧ 1 ≤ log.outBizID.length ∧ log.outBizID.length ≤ 128

/-- The schema of the messages for `ReceiveAuditLog`, which do not have the departments. -/
def ReceivedLog.validAudit : Bool :=
  log.userID.length ≤ 40 ∧ log.userName.length ≤ 128 ∧ log.outBizID.length ≤ 128 ∧ log.deptPaths = ""

def ReceivedLog.withName : ReceivedLog :=
  if log.userName = "" then { log with userName := log.userID } else log

/-- What becomes of a number on its way through the outbox: it is read as a float, written with some digits for that,
and read as an integer. -/
def republished : Option Int :=
  if isInt64 (digits (float64 value)) then some (digits (float64 value)) else none

end

/-- A row that was inserted, and when. -/
structure StoredLog where
  logType : LogType
  log : ReceivedLog
  storedAt : Int
deriving DecidableEq, Repr

/-- What handlers share. The cache has the time at which an entry expires. -/
structure LogStore where
  clock : Int
  cache : String → Option Int
  rows : List StoredLog
  outbox : List (LogType × ReceivedLog)

section

variable (delivery : Delivery) (choice : StatementChoice) (store : LogStore) (phase : LogPhase) (uniqueCacheID : String)

def LogStore.cached : Bool :=
  (store.cache uniqueCacheID).any fun expiry => store.clock < expiry

def cacheTimeout : Int := 300

/-- How far a handler has got: the call that it makes next, and the log as it has described it. -/
inductive LogPhase where
  | waiting
  | storing
  | caching (log : ReceivedLog)
  | retrying (log : ReceivedLog)
  | finished
deriving DecidableEq, Repr

/-- A delivery of a message, with what its handler is answered. -/
structure Delivery where
  receiver : Receiver
  logType : LogType
  log : ReceivedLog
  texts : LogTexts
  answers : UserMgntAnswers

/-- The log after the user has been described, as far as that succeeds. -/
def Delivery.described : ReceivedLog :=
  match delivery.log.describe delivery.receiver delivery.texts delivery.answers with
  | .ok (some log) => log.withName
  | _ => delivery.log

/-- The call that a handler makes next succeeds. -/
def Delivery.proceed : LogPhase → Option (LogStore × LogPhase)
  | .waiting => if store.cached delivery.log.outBizID then some (store, .finished) else some (store, .storing)
  | .storing =>
    match delivery.log.describe delivery.receiver delivery.texts delivery.answers with
    | .error _ => some (store, .retrying delivery.log)
    | .ok none => some (store, .finished)
    | .ok (some log) =>
      if delivery.logType = .other then some (store, .finished)
      else some ({ store with rows := store.rows ++ [⟨delivery.logType, log.withName, store.clock⟩] },
        .caching log.withName)
  | .caching _ => some ({ store with
      cache := Function.update store.cache delivery.log.outBizID (some (store.clock + cacheTimeout)) }, .finished)
  | .retrying log => some ({ store with outbox := store.outbox ++ [(delivery.logType, log)] }, .finished)
  | .finished => none

/-- The call fails. The message goes to the outbox, unless that is what fails. -/
def Delivery.failed : LogPhase → Option LogPhase
  | .waiting => some (.retrying delivery.log)
  | .storing => some (.retrying delivery.described)
  | .caching log => some (.retrying log)
  | .retrying _ => some .finished
  | .finished => none

/-- A handler makes its next call, at a time or in vain. -/
def Delivery.advance : Option (LogStore × LogPhase) :=
  match choice with
  | .proceed now => if now < store.clock then none else delivery.proceed { store with clock := now } phase
  | .fail => (delivery.failed phase).map fun next => (store, next)

end

/-- Which calls of a handler succeed, apart from those of user management. -/
structure HandlerCalls where
  (get insert set beginTx addOutboxInfo commit : Bool)
deriving DecidableEq, Repr

variable (delivery : Delivery) (calls : HandlerCalls) (store : LogStore)

/-- One call after the other, up to a log that is left for the outbox. -/
def Delivery.receive : LogStore × LogPhase :=
  if !calls.get then (store, .retrying delivery.log)
  else if store.cached delivery.log.outBizID then (store, .finished)
  else match delivery.proceed store .storing with
    | some (stored, .caching log) =>
      if !calls.insert then (store, .retrying log)
      else if !calls.set then (stored, .retrying log)
      else (delivery.proceed stored (.caching log)).getD (stored, .finished)
    | after => after.getD (store, .finished)

/-- The handler of a valid message: whether it returns no error, and what it leaves. What `AddOutboxInfo` returns is
overwritten before the deferred function sees it, which then commits. -/
def Delivery.handle : Bool × LogStore :=
  match delivery.receive calls store with
  | (store, .retrying log) =>
    if !calls.beginTx then (false, store)
    else if calls.commit && calls.addOutboxInfo && delivery.logType ≠ .other then
      (true, { store with outbox := store.outbox ++ [(delivery.logType, log)] })
    else (calls.commit, store)
  | (store, _) => (true, store)

end SecurityFabric.Auditlog
