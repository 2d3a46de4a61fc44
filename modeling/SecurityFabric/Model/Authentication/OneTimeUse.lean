import SecurityFabric.Machine.Run
import SecurityFabric.ToMathlib.SqlLike

/-! # Errors and times of the authentication service

Times of the clock are in nanoseconds, stored times in seconds.
-/

namespace SecurityFabric.Authentication

section

inductive ErrorCode where
  | badRequest
  | unauthorized
  | internal
deriving DecidableEq, Repr

structure Failure where
  code : ErrorCode
  description : String
deriving DecidableEq, Repr

inductive Language where
  | simplifiedChinese
  | traditionalChinese
  | americanEnglish
deriving DecidableEq, Repr

/-- What is returned when a statement fails. -/
def Failure.database : Failure := ⟨.internal, ""⟩

/-- A second, in nanoseconds. -/
def second : Int := 1000000000

/-! # Tickets for single sign-on

A ticket stands for a user and may be used by one client within five minutes. `Validate` reads the row of the ticket,
checks it and deletes it, however many rows that are. The cleaner reads the ids of a batch of expired tickets and
deletes them. Both are parties on the shared table.
-/

open Machine

variable (tickets : List TicketInfo)

/-- A row of `t_ticket`. -/
structure TicketInfo where
  (id userID clientID : String)
  createTime : Int
deriving DecidableEq, Repr

def ticketExpiration : Int := 5 * 60 * second

/-- The number of tickets the cleaner takes at once. -/
def ticketBatchNumber : Nat := 100

namespace DBTicket

def getTicketByID (id : String) : Except Failure TicketInfo :=
  match tickets.find? fun info => info.id = id with
  | some info => pure info
  | none => throw ⟨.unauthorized, "invalid ticket"⟩

def getExpiredRecords (now : Int) : List String :=
  ((tickets.filter fun info => info.createTime < (now - ticketExpiration) / second).take ticketBatchNumber).map (·.id)

def deleteByIDs (ids : List String) : List TicketInfo := tickets.filter fun info => info.id ∉ ids

end DBTicket

/-- What `Validate` asks of the ticket before it deletes it: the user it stands for. -/
def checkTicket (ticketID clientID : String) (now : Int) : Except Failure String := do
  let info ← DBTicket.getTicketByID tickets ticketID
  if info.clientID ≠ clientID then throw ⟨.badRequest, "Invalid clientID"⟩
  if now - info.createTime * second > ticketExpiration then throw ⟨.badRequest, "Ticket expired"⟩
  pure info.userID

/-- A call of `Validate`, or a cleaner. -/
inductive TicketParty where
  | validate (ticketID clientID : String)
  | cronDelete
deriving DecidableEq, Repr

/-- How far a party has got; a call remembers when it read the ticket. -/
inductive TicketPhase where
  | waiting
  | deleting (userID : String) (readAt : Int)
  | cleaning (ids : List String)
  | finished (result : Except Failure String) (readAt : Int)

def TicketParty.advance (party : TicketParty) (choice : StatementChoice) (tickets : List TicketInfo)
    (phase : TicketPhase) : Option (List TicketInfo × TicketPhase) :=
  match party, phase, choice with
  | .validate ticketID clientID, .waiting, .proceed now =>
    match checkTicket tickets ticketID clientID now with
    | .ok userID => some (tickets, .deleting userID now)
    | .error failure => some (tickets, .finished (.error failure) now)
  | .validate _ _, .waiting, .fail => some (tickets, .finished (.error .database) 0)
  | .validate ticketID _, .deleting userID readAt, .proceed _ =>
    some (DBTicket.deleteByIDs tickets [ticketID], .finished (.ok userID) readAt)
  | .validate _ _, .deleting _ readAt, .fail => some (tickets, .finished (.error .database) readAt)
  | .cronDelete, .waiting, .proceed now =>
    match DBTicket.getExpiredRecords tickets now with
    | [] => some (tickets, .waiting)
    | ids => some (tickets, .cleaning ids)
  | .cronDelete, .waiting, .fail => some (tickets, .waiting)
  | .cronDelete, .cleaning ids, .proceed _ => some (DBTicket.deleteByIDs tickets ids, .waiting)
  | .cronDelete, .cleaning _, .fail => some (tickets, .waiting)
  | _, _, _ => none

/-- Parties at work on the tickets. -/
def ticketStep {ι : Type} [DecidableEq ι] (parties : ι → TicketParty) :
    Shared ι (List TicketInfo) TicketPhase → ι × StatementChoice → Option (Shared ι (List TicketInfo) TicketPhase) :=
  Shared.step fun i => (parties i).advance

def ticketStart {ι : Type} : Shared ι (List TicketInfo) TicketPhase := ⟨tickets, fun _ => .waiting⟩

end

/-! # Codes sent to the phones of anonymous visitors

A visitor of an anonymous account asks for a code, which is stored with a fresh id, the phone number and the account and
sent to the phone. Codes for the same phone and account that are still valid are deleted before. A login to an account
that asks for a phone presents the id and the content of a code. `Validate` checks that the row has not expired and that
the content is right; it does not look at the account. The row is deleted after the token has been issued. A cleaner
deletes expired codes, and the time until a code expires can be changed.

All are parties on the shared store, with a step for each statement and each call. The list of all codes ever created is
not in the program.
-/

/-- A row of `t_anonymous_sms_vcode`, with the phone number decrypted. -/
structure AnonymousSMSInfo where
  (id phoneNumber anonymityID content : String)
  createTime : Int
deriving DecidableEq, Repr

/-- The codes, how long they are valid in nanoseconds, and all codes ever created. -/
structure SMSStore where
  vcodes : List AnonymousSMSInfo
  smsExpiration : Int
  created : List AnonymousSMSInfo
deriving DecidableEq, Repr

/-- The texts of errors that are translated. -/
inductive SMSText where
  | vcodeExpired
  | verificationFailed
  | invalidPhoneNumber
  | vcodeNotSend
  | vcodeInfoRequired
deriving DecidableEq, Repr

def SMSText.load : SMSText → Language → String
  | .vcodeExpired, .simplifiedChinese => "验证码已过期"
  | .vcodeExpired, .traditionalChinese => "驗證碼已過期"
  | .vcodeExpired, .americanEnglish => "The verification code has expired"
  | .verificationFailed, .simplifiedChinese => "验证码校验失败"
  | .verificationFailed, .traditionalChinese => "驗證碼校驗失敗"
  | .verificationFailed, .americanEnglish => "The CAPTCHA verification failed. Please try again"
  | .invalidPhoneNumber, .simplifiedChinese => "手机号不合法"
  | .invalidPhoneNumber, .traditionalChinese => "手機號不合法"
  | .invalidPhoneNumber, .americanEnglish => "Invalid tel number"
  | .vcodeNotSend, .simplifiedChinese => "无效的输入，请先获取验证码"
  | .vcodeNotSend, .traditionalChinese => "無效的輸入，請先取得驗證碼"
  | .vcodeNotSend, .americanEnglish => "Invalid input, please obtain verification code first"
  | .vcodeInfoRequired, .simplifiedChinese => "请输入验证码"
  | .vcodeInfoRequired, .traditionalChinese => "請輸入驗證碼訊息"
  | .vcodeInfoRequired, .americanEnglish => "Please enter verification code information"

namespace DBAnonymousSMS

variable (vcodes : List AnonymousSMSInfo)

def getInfoByID (id : String) : Option AnonymousSMSInfo := vcodes.find? fun info => info.id = id

/-- The number of codes the cleaner takes at once. -/
def batchNumber : Nat := 10

def getExpiredRecords (aSMSExpiration now : Int) : List String :=
  ((vcodes.filter fun info => info.createTime < (now - aSMSExpiration) / second).take batchNumber).map (·.id)

def deleteByIDs (ids : List String) : List AnonymousSMSInfo := vcodes.filter fun info => info.id ∉ ids

def deleteRecordWithinValidityPeriod (phoneNumber anonymityID : String) (aSMSExpiration now : Int) :
    List AnonymousSMSInfo :=
  vcodes.filter fun info => ¬ (info.phoneNumber = phoneNumber ∧ info.anonymityID = anonymityID ∧
    info.createTime ≥ (now - aSMSExpiration) / second)

end DBAnonymousSMS

/-- A request for a code, its phone number in plain or encrypted. -/
structure VCodeRequest where
  (phoneNumber anonymityID : String)
  language : Language
deriving DecidableEq, Repr

structure AnonymousLoginInfo2 where
  (clientID account vcodeID vcodeContent visitorName : String)
  language : Language
deriving DecidableEq, Repr

/-- The claims a token carries. -/
structure AnonymousToken where
  (clientID account phoneNumber visitorName : String)
deriving DecidableEq, Repr

/-- The pattern of phone numbers: `^1[3456789]\d{9}$`. -/
def matchesPhoneNumber (phoneNumber : String) : Bool :=
  match phoneNumber.toList with
  | '1' :: kind :: rest => kind ∈ "3456789".toList && rest.length == 9 && rest.all Char.isDigit
  | _ => false

/-- The phone number of a request, decrypted if it is not one in plain. -/
def VCodeRequest.phone (decrypt : String → Except Failure String) (req : VCodeRequest) : Except Failure String :=
  if matchesPhoneNumber req.phoneNumber then pure req.phoneNumber
  else do
    let phoneNumber ← decrypt req.phoneNumber
    if ¬ matchesPhoneNumber phoneNumber then
      throw ⟨.badRequest, SMSText.invalidPhoneNumber.load req.language⟩
    pure phoneNumber

/-- What a login has to present for an account that asks for a phone. -/
def AnonymousLoginInfo2.checkVCode (req : AnonymousLoginInfo2) : Except Failure Unit :=
  if req.vcodeID = "" ∧ req.vcodeContent ≠ "" then throw ⟨.badRequest, SMSText.vcodeNotSend.load req.language⟩
  else if req.vcodeID = "" ∨ req.vcodeContent = "" then
    throw ⟨.badRequest, SMSText.vcodeInfoRequired.load req.language⟩
  else if req.visitorName = "" then throw ⟨.badRequest, "visitor_name required"⟩
  else pure ()

/-- A code that was found valid, and when. -/
structure Validation where
  info : AnonymousSMSInfo
  (readAt smsExpiration : Int)
deriving DecidableEq, Repr

/-- `Validate`; the account it is given plays no part. -/
def SMSStore.validate (store : SMSStore) (folding : CaseFolding) (language : Language)
    (vcodeID vcode _anonymityID : String)
    (now : Int) : Except Failure Validation :=
  match DBAnonymousSMS.getInfoByID store.vcodes vcodeID with
  | none => throw ⟨.badRequest, SMSText.verificationFailed.load language⟩
  | some info =>
    if now > info.createTime * second + store.smsExpiration then
      throw ⟨.badRequest, SMSText.vcodeExpired.load language⟩
    else if ¬ folding.equalFold vcode info.content then
      throw ⟨.badRequest, SMSText.verificationFailed.load language⟩
    else pure ⟨info, now, store.smsExpiration⟩

/-- The phone number with four digits hidden. -/
def hidePhoneNumber (phoneNumber : String) : String :=
  String.ofList (phoneNumber.toList.take 3 ++ "****".toList ++ phoneNumber.toList.drop 7)

def AnonymousLoginInfo2.token (req : AnonymousLoginInfo2) (validation : Option Validation) : AnonymousToken where
  clientID := req.clientID
  account := req.account
  phoneNumber := validation.elim "" fun validation => hidePhoneNumber validation.info.phoneNumber
  visitorName := req.visitorName

inductive SMSParty where
  | createAndSendVCode (req : VCodeRequest)
  | updateSMSExpiration (expiration : Int)
  | cronDelete
  | anonymous2 (req : AnonymousLoginInfo2)
deriving DecidableEq, Repr

/-- How far a party has got. -/
inductive SMSPhase where
  | waiting
  -- a request for a code
  | creating (phoneNumber : String)
  | sending (info : AnonymousSMSInfo)
  | sent (result : Except Failure String)
  | updated
  -- the cleaner
  | selecting (smsExpiration : Int)
  | cleaning (smsExpiration : Int) (ids : List String)
  -- a login
  | validating
  | authenticating (validation : Option Validation)
  | asserting (validation : Option Validation)
  | deleting (validation : Validation) (token : AnonymousToken)
  | finished (validation : Option Validation) (issued : Bool) (result : Except Failure AnonymousToken)

/-- A statement is executed at some time, a code is made up, or something fails. -/
inductive SMSChoice where
  | proceed (now : Int)
  | create (id content : String) (now : Int)
  | fail
deriving DecidableEq, Repr

/-- What the service knows of the others: which accounts ask for a phone, and how phone numbers are decrypted. -/
structure SMSServices where
  folding : CaseFolding
  needVerifyMobile : String → Bool
  decrypt : String → Except Failure String

section Advance

variable (services : SMSServices)

/-- A request for a code: valid codes are deleted, a new one is stored under a fresh id and sent. -/
def VCodeRequest.advance (req : VCodeRequest) (choice : SMSChoice) (store : SMSStore) (phase : SMSPhase) :
    Option (SMSStore × SMSPhase) :=
  match phase, choice with
  | .waiting, .proceed now => match req.phone services.decrypt with
    | .error failure => some (store, .sent (.error failure))
    | .ok phoneNumber =>
      let vcodes := DBAnonymousSMS.deleteRecordWithinValidityPeriod store.vcodes phoneNumber req.anonymityID
        store.smsExpiration now
      some ({ store with vcodes := vcodes }, .creating phoneNumber)
  | .creating phoneNumber, .create id content now =>
    if id ∈ store.created.map (·.id) then none
    else
      let info : AnonymousSMSInfo := ⟨id, phoneNumber, req.anonymityID, content, now / second⟩
      some ({ store with vcodes := store.vcodes ++ [info], created := store.created ++ [info] }, .sending info)
  | .sending info, .proceed _ => some (store, .sent (.ok info.id))
  | .waiting, .fail | .creating _, .fail | .sending _, .fail => some (store, .sent (.error .database))
  | _, _ => none

/-- One night of the cleaner: batch after batch, until none is left or something fails. -/
def cronDeleteSMS (choice : SMSChoice) (store : SMSStore) (phase : SMSPhase) : Option (SMSStore × SMSPhase) :=
  match phase, choice with
  | .waiting, .proceed _ => some (store, .selecting store.smsExpiration)
  | .selecting smsExpiration, .proceed now =>
    match DBAnonymousSMS.getExpiredRecords store.vcodes smsExpiration now with
    | [] => some (store, .waiting)
    | ids => some (store, .cleaning smsExpiration ids)
  | .cleaning smsExpiration ids, .proceed _ =>
    some ({ store with vcodes := DBAnonymousSMS.deleteByIDs store.vcodes ids }, .selecting smsExpiration)
  | .selecting _, .fail | .cleaning _ _, .fail => some (store, .waiting)
  | _, _ => none

/-- A login: the code is validated, the account authenticated, the token issued and the code deleted. -/
def AnonymousLoginInfo2.advance (req : AnonymousLoginInfo2) (choice : SMSChoice) (store : SMSStore) (phase : SMSPhase) :
    Option (SMSStore × SMSPhase) :=
  match phase, choice with
  | .waiting, .proceed _ =>
    if services.needVerifyMobile req.account then match req.checkVCode with
      | .error failure => some (store, .finished none false (.error failure))
      | .ok () => some (store, .validating)
    else some (store, .authenticating none)
  | .validating, .proceed now =>
    match store.validate services.folding req.language req.vcodeID req.vcodeContent req.account now with
    | .error failure => some (store, .finished none false (.error failure))
    | .ok validation => some (store, .authenticating (some validation))
  | .authenticating validation, .proceed _ => some (store, .asserting validation)
  | .asserting none, .proceed _ => some (store, .finished none true (.ok (req.token none)))
  | .asserting (some validation), .proceed _ => some (store, .deleting validation (req.token (some validation)))
  | .deleting validation token, .proceed _ =>
    some ({ store with vcodes := DBAnonymousSMS.deleteByIDs store.vcodes [req.vcodeID] },
      .finished (some validation) true (.ok token))
  | .waiting, .fail | .validating, .fail => some (store, .finished none false (.error .database))
  | .authenticating validation, .fail | .asserting validation, .fail =>
    some (store, .finished validation false (.error .database))
  | .deleting validation _, .fail => some (store, .finished (some validation) true (.error .database))
  | _, _ => none

def SMSParty.advance (party : SMSParty) (choice : SMSChoice) (store : SMSStore) (phase : SMSPhase) :
    Option (SMSStore × SMSPhase) :=
  match party with
  | .createAndSendVCode req => req.advance services choice store phase
  | .updateSMSExpiration expiration => match phase, choice with
    | .waiting, .proceed _ => some ({ store with smsExpiration := expiration * 60 * second }, .updated)
    | _, _ => none
  | .cronDelete => cronDeleteSMS choice store phase
  | .anonymous2 req => req.advance services choice store phase

end Advance

/-- Requests, logins and cleaners at work. -/
def smsStep {ι : Type} [DecidableEq ι] (services : SMSServices) (parties : ι → SMSParty) :
    Machine.Shared ι SMSStore SMSPhase → ι × SMSChoice → Option (Machine.Shared ι SMSStore SMSPhase) :=
  Machine.Shared.step fun i => (parties i).advance services

/-- At the start, the codes in the table are all that are known to have been created. -/
def smsStart {ι : Type} (vcodes : List AnonymousSMSInfo) (smsExpiration : Int) : Machine.Shared ι SMSStore SMSPhase :=
  ⟨⟨vcodes, smsExpiration, vcodes⟩, fun _ => .waiting⟩

end SecurityFabric.Authentication
