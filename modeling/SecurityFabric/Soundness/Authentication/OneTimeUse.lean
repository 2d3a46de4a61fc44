import SecurityFabric.Model.Authentication.OneTimeUse
import SecurityFabric.ToMathlib.Guarantees

/-! # Tickets are used once

Whatever the schedule, a call that returns a user has named the client of the ticket and has read it within five minutes
of its creation. That only one call returns the user needs more: each deletion has to find the ticket, which the code
does not check.
-/

namespace SecurityFabric.Authentication

section

open Machine List

variable {ι : Type} [DecidableEq ι] {parties : ι → TicketParty} {ticket : TicketInfo}
variable {choice : StatementChoice} {tickets : List TicketInfo}

/-- What a party can do in a step. -/
inductive TicketMove (tickets : List TicketInfo) :
    TicketParty → StatementChoice → TicketPhase → List TicketInfo → TicketPhase → Prop
  | refused {party choice phase} (failure : Failure) (readAt : Int) :
      TicketMove tickets party choice phase tickets (.finished (.error failure) readAt)
  | checked {ticketID clientID userID now} (ok : checkTicket tickets ticketID clientID now = .ok userID) :
      TicketMove tickets (.validate ticketID clientID) (.proceed now) .waiting tickets (.deleting userID now)
  | deleted {ticketID clientID userID readAt now} :
      TicketMove tickets (.validate ticketID clientID) (.proceed now) (.deleting userID readAt)
        (DBTicket.deleteByIDs tickets [ticketID]) (.finished (.ok userID) readAt)
  | swept {choice phase} (ids : List String) :
    TicketMove tickets .cronDelete choice phase (DBTicket.deleteByIDs tickets ids) .waiting
  | rested {choice phase} : TicketMove tickets .cronDelete choice phase tickets .waiting
  | listed {choice phase} (ids : List String) : TicketMove tickets .cronDelete choice phase tickets (.cleaning ids)

variable {after : List TicketInfo} {phase next : TicketPhase} {party : TicketParty}

private theorem TicketParty.advance_cases (advanced : party.advance choice tickets phase = some (after, next)) :
    TicketMove tickets party choice phase after next := by
  unfold TicketParty.advance at advanced
  repeat' split at advanced
  all_goals cases advanced
  · rename_i ok
    exact .checked ok
  · exact .refused _ _
  · exact .refused _ _
  · exact .deleted
  · exact .refused _ _
  · exact .rested
  · exact .listed _
  · exact .rested
  · exact .swept _
  · exact .rested

private theorem mem_deleteByIDs {ids : List String} {info : TicketInfo} :
    info ∈ DBTicket.deleteByIDs tickets ids ↔ info ∈ tickets ∧ info.id ∉ ids := by
  simp [DBTicket.deleteByIDs]

private theorem TicketMove.subset (move : TicketMove tickets party choice phase after next) :
    ∀ info ∈ after, info ∈ tickets := by
  cases move with
  | deleted | swept ids => exact fun info mem => (mem_deleteByIDs.mp mem).1
  | refused | checked | rested | listed => exact fun info mem => mem

variable {ticketID : String}

private theorem checkTicket_ok {clientID userID : String} {now : Int}
    (ok : checkTicket tickets ticketID clientID now = .ok userID) :
    ∃ info ∈ tickets, info.id = ticketID ∧ info.clientID = clientID ∧ info.userID = userID ∧
      now ≤ info.createTime * second + ticketExpiration := by
  obtain ⟨info, read, ok⟩ := bind_ok ok
  obtain ⟨own, ok⟩ := guard_ok ok
  obtain ⟨inTime, ok⟩ := guard_ok ok
  cases ok
  unfold DBTicket.getTicketByID at read
  split at read
  · rename_i found
    cases read
    refine ⟨info, mem_of_find?_eq_some found, by simpa using find?_some found, not_not.mp own, rfl, ?_⟩
    omega
  · cases read

section

variable (parties ticket ticketID) (i : ι) (phase : TicketPhase)

/-- A call on the ticket that returned a user without an error. -/
def ReturnedUser : Prop :=
  ∃ clientID userID readAt, parties i = .validate ticketID clientID ∧ phase = .finished (.ok userID) readAt

/-- A call on the ticket has not passed the check. -/
def Unchecked : Prop := ∀ clientID userID readAt,
  parties i = .validate ticketID clientID → phase ≠ .deleting userID readAt ∧ phase ≠ .finished (.ok userID) readAt

/-- A call on the ticket that has passed the check was made by its client, in time. -/
def Rightful : Prop := ∀ clientID userID readAt, parties i = .validate ticket.id clientID →
    phase = .deleting userID readAt ∨ phase = .finished (.ok userID) readAt →
    clientID = ticket.clientID ∧ userID = ticket.userID ∧ readAt ≤ ticket.createTime * second + ticketExpiration

def Stored (tickets : List TicketInfo) : Prop := ∃ info ∈ tickets, info.id = ticketID

/-- If the step is the deletion of the ticket by a call, the ticket is still in the table. -/
def DeletionFindsTicket (state : Shared ι (List TicketInfo) TicketPhase) (label : ι × StatementChoice) : Prop :=
  ∀ clientID userID readAt now, parties label.1 = .validate ticketID clientID → label.2 = .proceed now →
    state.phase label.1 = .deleting userID readAt → Stored ticketID state.store

/-- At most one call returns the user of the ticket, for its client and in time. -/
structure UsedOnce (state : Shared ι (List TicketInfo) TicketPhase) : Prop where
  once : ∀ i j, ReturnedUser parties ticket.id i (state.phase i) →
    ReturnedUser parties ticket.id j (state.phase j) → i = j
  rightful : ∀ i clientID userID readAt, parties i = .validate ticket.id clientID →
    state.phase i = .finished (.ok userID) readAt →
    clientID = ticket.clientID ∧ userID = ticket.userID ∧ readAt ≤ ticket.createTime * second + ticketExpiration

end

omit [DecidableEq ι] in
private theorem takeStep_of_deletionFindsTicket {state : Shared ι (List TicketInfo) TicketPhase} {i : ι}
    (finds : DeletionFindsTicket parties ticketID state (i, choice))
    (advanced : (parties i).advance choice state.store (state.phase i) = some (tickets, phase)) :
    Shared.TakeStep (Stored ticketID) (ReturnedUser parties ticketID) state i tickets phase := by
  have move := TicketParty.advance_cases advanced
  constructor
  · rintro ⟨info, mem, same⟩
    exact ⟨info, move.subset info mem, same⟩
  · rintro ⟨clientID, userID, readAt, isCall, rfl⟩
    rw [isCall] at move
    generalize before : state.phase i = phase at move
    cases move with
    | deleted =>
      refine .inr ⟨finds clientID userID readAt _ isCall rfl before, ?_⟩
      rintro ⟨info, mem, same⟩
      exact (mem_deleteByIDs.mp mem).2 (mem_singleton.mpr same)

omit [DecidableEq ι] in
private theorem rightful_step {i : ι} (key : ∀ info ∈ tickets, info.id = ticket.id → info = ticket)
    (rightful : Rightful parties ticket i phase)
    (advanced : (parties i).advance choice tickets phase = some (after, next)) : Rightful parties ticket i next := by
  have move := TicketParty.advance_cases advanced
  intro clientID userID readAt isCall passed
  rw [isCall] at move
  cases move with
  | refused => simp at passed
  | checked ok =>
    obtain ⟨rfl, rfl⟩ : _ = userID ∧ _ = readAt := by simpa using passed
    obtain ⟨info, mem, same, ownClient, ownUser, inTime⟩ := checkTicket_ok ok
    obtain rfl := key info mem same
    exact ⟨ownClient.symm, ownUser.symm, inTime⟩
  | deleted =>
    obtain ⟨rfl, rfl⟩ : _ = userID ∧ _ = readAt := by simpa using passed
    exact rightful clientID _ _ isCall (.inl rfl)

/-- If every deletion of the ticket finds it in the table, at most one call returns its user; every call that does
was made for its client in time. -/
theorem ticket_used_once {tickets : List TicketInfo} (key : ∀ info ∈ tickets, info.id = ticket.id → info = ticket)
    {schedule : List (ι × StatementChoice)} {final : Shared ι (List TicketInfo) TicketPhase}
    (finds : Meets (ticketStep parties) (DeletionFindsTicket parties ticket.id) (ticketStart tickets) schedule)
    (reached : run (ticketStep parties) (ticketStart tickets) schedule = some final) :
    UsedOnce parties ticket final where
  once := by
    refine Shared.used_once_of_take (fun met advanced => takeStep_of_deletionFindsTicket met advanced) ?_ finds reached
    rintro i ⟨_, _, _, _, impossible⟩
    cases impossible
  rightful := by
    have calls := (Shared.invariant_of_parties (fun tickets => ∀ info ∈ tickets, info.id = ticket.id → info = ticket)
      (Rightful parties ticket) ?_ key ?_ finds reached).2
    · exact fun i clientID userID readAt isCall returned => calls i clientID userID readAt isCall (.inr returned)
    · intro state i choice after phase unique rightful _ advanced
      have kept := (TicketParty.advance_cases advanced).subset
      exact ⟨fun info mem => unique info (kept info mem), rightful_step unique rightful advanced⟩
    · intro i clientID userID readAt _ passed
      exact absurd passed (by rintro (impossible | impossible) <;> cases impossible)

omit [DecidableEq ι] in
private theorem spendStep_of_advance {state : Shared ι (List TicketInfo) TicketPhase} {i : ι}
    (advanced : (parties i).advance choice state.store (state.phase i) = some (after, next)) :
    Shared.SpendStep (Stored ticketID) (Unchecked parties ticketID) (ReturnedUser parties ticketID)
      state i after next := by
  have move := TicketParty.advance_cases advanced
  generalize before : state.phase i = phase at move
  refine ⟨fun ⟨info, mem, same⟩ => ⟨info, move.subset info mem, same⟩, ?_, ?_⟩
  · intro unchecked gone clientID userID readAt isCall
    rw [isCall] at move
    cases move with
    | refused => exact ⟨nofun, nofun⟩
    | checked ok =>
      obtain ⟨info, mem, same, -⟩ := checkTicket_ok ok
      exact absurd ⟨info, mem, same⟩ gone
    | deleted => exact absurd before (unchecked clientID _ _ isCall).1
  · rintro ⟨clientID, userID, readAt, isCall, rfl⟩ ⟨info, mem, same⟩
    rw [isCall] at move
    cases move with
    | deleted => exact (mem_deleteByIDs.mp mem).2 (mem_singleton.mpr same)

/-- Once a call has returned the user, no call that begins later does. -/
theorem ticket_spent_for_good (parties : ι → TicketParty) (tickets : List TicketInfo) (ticketID : String) :
    Always (ticketStep parties) (ticketStart tickets) fun state =>
      (∃ i, ReturnedUser parties ticketID i (state.phase i)) →
      Always (ticketStep parties) state fun later => ∀ j, state.phase j = .waiting →
      ¬ ReturnedUser parties ticketID j (later.phase j) := by
  rintro labels state reached used more later onwards j waits ⟨clientID, userID, readAt, isCall, returned⟩
  have unchecked : Unchecked parties ticketID j (later.phase j) := by
    refine Shared.unfound_of_spent spendStep_of_advance ?_ labels state reached used more later onwards j fun _ _ _ _ =>
      ?_
    · rintro i ⟨_, _, _, _, impossible⟩
      cases impossible
    · rw [waits]
      exact ⟨nofun, nofun⟩
  exact (unchecked clientID userID readAt isCall).2 returned

namespace Sample

/-- A ticket of a user for one client. -/
def signOn : TicketInfo := ⟨"ticket", "user-1", "client-1", 0⟩

/-- Two calls by this client. -/
def signOnCalls : Bool → TicketParty := fun _ => .validate "ticket" "client-1"

end Sample

open Sample

/-- One call after the other: the second one fails. -/
theorem ticket_used_once_in_turn : ∃ final, run (ticketStep signOnCalls) (ticketStart [signOn])
      [(true, .proceed 1), (true, .proceed 2), (false, .proceed 3)] = some final ∧
    final.phase true = .finished (.ok "user-1") 1 ∧ UsedOnce signOnCalls signOn final := by
  have finds : Meets (ticketStep signOnCalls) (DeletionFindsTicket signOnCalls signOn.id) (ticketStart [signOn])
      [(true, .proceed 1), (true, .proceed 2), (false, .proceed 3)] := by
    refine .cons ?_ rfl (.cons ?_ rfl (.cons ?_ rfl trivial))
    · exact fun _ _ _ _ _ _ deletes => nomatch deletes
    · exact fun _ _ _ _ _ _ _ => ⟨signOn, mem_singleton.mpr rfl, rfl⟩
    · exact fun _ _ _ _ _ _ deletes => nomatch deletes
  exact ⟨_, rfl, rfl, ticket_used_once (fun info mem _ => mem_singleton.mp mem) finds rfl⟩

/-- Both calls read the ticket before either deletes it: both return the user. -/
theorem overlapping_calls_share_ticket : ∃ final, run (ticketStep signOnCalls) (ticketStart [signOn])
      [(true, .proceed 1), (false, .proceed 1), (true, .proceed 2), (false, .proceed 2)] = some final ∧
    final.phase true = .finished (.ok "user-1") 1 ∧ final.phase false = .finished (.ok "user-1") 1 ∧
    ¬ UsedOnce signOnCalls signOn final := by
  refine ⟨_, rfl, rfl, rfl, fun usedOnce => ?_⟩
  exact absurd (usedOnce.once true false ⟨_, _, _, rfl, rfl⟩ ⟨_, _, _, rfl, rfl⟩) (by decide)

end

/-! # What requests and logins do to the codes

A step deletes codes or adds one with an id that was never used. A login works with a code from the step in which it
validates it to the step in which it deletes it, and a token is issued in between.
-/

section

open List

namespace SMSPhase

/-- The code a login has validated. -/
def validation : SMSPhase → Option Validation
  | .authenticating validation | .asserting validation | .finished validation _ _ => validation
  | .deleting validation _ => some validation
  | _ => none

/-- A login has validated a code and is not finished. -/
def busy : SMSPhase → Bool
  | .authenticating (some _) | .asserting (some _) | .deleting _ _ => true
  | _ => false

/-- A login has been issued a token. -/
def issued : SMSPhase → Bool
  | .deleting _ _ => true
  | .finished _ issued _ => issued
  | _ => false

end SMSPhase

/-- What a step does to the codes. -/
inductive StoreMove (store : SMSStore) : SMSStore → Prop
  | deleted {after : SMSStore} (kept : ∀ info ∈ after.vcodes, info ∈ store.vcodes)
    (same : after.created = store.created) :
      StoreMove store after
  | created (info : AnonymousSMSInfo) (fresh : info.id ∉ store.created.map (·.id)) :
      StoreMove store { store with vcodes := store.vcodes ++ [info], created := store.created ++ [info] }

variable (services : SMSServices) (req : AnonymousLoginInfo2) (store : SMSStore) in
/-- What a login does in a step. -/
inductive LoginMove : SMSChoice → SMSPhase → SMSStore → SMSPhase → Prop
  | refused {choice phase} (validation : Option Validation) (old : validation = none ∨ phase.validation = validation)
      (failure : Failure) : LoginMove choice phase store (.finished validation false (.error failure))
  | asked {choice} : LoginMove choice .waiting store .validating
  | unasked {choice} (free : services.needVerifyMobile req.account = false) :
      LoginMove choice .waiting store (.authenticating none)
  | validated {now} (validation : Validation)
      (ok : store.validate services.folding req.language req.vcodeID req.vcodeContent req.account now =
        .ok validation) :
      LoginMove (.proceed now) .validating store (.authenticating (some validation))
  | authenticated {choice validation} :
      LoginMove choice (.authenticating validation) store (.asserting validation)
  | issuedPlain {choice} (token : AnonymousToken) :
      LoginMove choice (.asserting none) store (.finished none true (.ok token))
  | issued {choice} (validation : Validation) (token : AnonymousToken) :
      LoginMove choice (.asserting (some validation)) store (.deleting validation token)
  | used {now} (validation : Validation) (token : AnonymousToken) :
      LoginMove (.proceed now) (.deleting validation token)
        { store with vcodes := DBAnonymousSMS.deleteByIDs store.vcodes [req.vcodeID] }
        (.finished (some validation) true (.ok token))
  | undeleted (validation : Validation) (token : AnonymousToken) (failure : Failure) :
      LoginMove .fail (.deleting validation token) store (.finished (some validation) true (.error failure))

variable {services : SMSServices} {req : AnonymousLoginInfo2} {store after : SMSStore} {choice : SMSChoice}
  {phase next : SMSPhase}

private theorem AnonymousLoginInfo2.advance_cases (advanced : req.advance services choice store phase =
    some (after, next)) : LoginMove services req store choice phase after next := by
  unfold AnonymousLoginInfo2.advance at advanced
  repeat' split at advanced
  all_goals cases advanced
  · exact .refused none (.inl rfl) _
  · exact .asked
  · rename_i free
    exact .unasked (Bool.eq_false_iff.mpr free)
  · exact .refused none (.inl rfl) _
  · rename_i ok
    exact .validated _ ok
  · exact .authenticated
  · exact .issuedPlain _
  · exact .issued _ _
  · exact .used _ _
  · exact .refused none (.inl rfl) _
  · exact .refused none (.inl rfl) _
  · exact .refused _ (.inr rfl) _
  · exact .refused _ (.inr rfl) _
  · exact .undeleted _ _ _

private theorem mem_deleteByIDs_sms {vcodes : List AnonymousSMSInfo} {ids : List String} {info : AnonymousSMSInfo} :
    info ∈ DBAnonymousSMS.deleteByIDs vcodes ids ↔ info ∈ vcodes ∧ info.id ∉ ids := by
  simp [DBAnonymousSMS.deleteByIDs]

private theorem LoginMove.storeMove (move : LoginMove services req store choice phase after next) :
    StoreMove store after := by
  cases move with
  | used => exact .deleted (fun info mem => (mem_deleteByIDs_sms.mp mem).1) rfl
  | refused | asked | unasked | validated | authenticated | issuedPlain | issued | undeleted =>
    exact .deleted (fun info mem => mem) rfl

private theorem VCodeRequest.storeMove {request : VCodeRequest}
    (advanced : request.advance services choice store phase = some (after, next)) :
    StoreMove store after := by
  have untouched : StoreMove store store := .deleted (fun info mem => mem) rfl
  unfold VCodeRequest.advance at advanced
  split at advanced
  · split at advanced
    · cases advanced
      exact untouched
    · cases advanced
      exact .deleted (fun info mem => mem_of_mem_filter mem) rfl
  · split at advanced
    · cases advanced
    · rename_i fresh
      cases advanced
      exact .created _ fresh
  all_goals cases advanced
  all_goals exact untouched

private theorem cronDeleteSMS_storeMove (advanced : cronDeleteSMS choice store phase = some (after, next)) :
    StoreMove store after := by
  have untouched : StoreMove store store := .deleted (fun info mem => mem) rfl
  unfold cronDeleteSMS at advanced
  split at advanced
  · cases advanced
    exact untouched
  · split at advanced
    all_goals cases advanced
    all_goals exact untouched
  · cases advanced
    exact .deleted (fun info mem => (mem_deleteByIDs_sms.mp mem).1) rfl
  all_goals cases advanced
  all_goals exact untouched

private theorem SMSParty.storeMove {party : SMSParty}
    (advanced : party.advance services choice store phase = some (after, next)) :
    StoreMove store after := by
  cases party with
  | createAndSendVCode request => exact VCodeRequest.storeMove advanced
  | updateSMSExpiration expiration =>
    unfold SMSParty.advance at advanced
    dsimp only at advanced
    split at advanced
    · cases advanced
      exact .deleted (fun info mem => mem) rfl
    · cases advanced
  | cronDelete => exact cronDeleteSMS_storeMove advanced
  | anonymous2 login => exact (AnonymousLoginInfo2.advance_cases advanced).storeMove

private theorem SMSStore.validate_ok {validation : Validation} {now : Int}
    (ok : store.validate services.folding req.language req.vcodeID req.vcodeContent req.account now = .ok validation) :
    validation.info ∈ store.vcodes ∧ validation.info.id = req.vcodeID ∧
      services.folding.equalFold req.vcodeContent validation.info.content = true ∧
      validation.readAt ≤ validation.info.createTime * second + validation.smsExpiration := by
  unfold SMSStore.validate at ok
  split at ok
  · cases ok
  · rename_i info found
    split at ok
    · cases ok
    · rename_i inTime
      split at ok
      · cases ok
      · rename_i same
        cases ok
        exact ⟨mem_of_find?_eq_some found, by simpa using find?_some found, not_not.mp same, not_lt.mp inTime⟩

end

/-! # A code opens one account once

A login to an account that asks for a phone is issued a token only after it has validated a code. The program leaves
open whether the code was made for this account, and whether another login works with it at the time. If every
validation finds a code of its own account that no other login is working with, and no deletion fails, each token
belongs to a code of its account and each code to at most one token.
-/

open Machine List Option

variable {ι : Type} [DecidableEq ι] (services : SMSServices) (parties : ι → SMSParty)
variable {created more : List AnonymousSMSInfo} {vcodeID : String}

/-- If the step is a validation, the code is one of the account of the login, and no other login works with it;
and the step is not a deletion that fails. -/
def CodeIsOwnAndFree (state : Shared ι SMSStore SMSPhase) (label : ι × SMSChoice) : Prop :=
  (∀ req now, parties label.1 = .anonymous2 req → label.2 = .proceed now → state.phase label.1 = .validating →
    (∀ info ∈ state.store.vcodes, info.id = req.vcodeID → info.anonymityID = req.account) ∧
      ∀ j other, parties j = .anonymous2 other → other.vcodeID = req.vcodeID → ¬ (state.phase j).busy = true) ∧
  ∀ validation token, state.phase label.1 = .deleting validation token → label.2 ≠ .fail

/-- A code that was created for the account of a login, with the content it presents, and valid when it was read. -/
structure OwnCode (req : AnonymousLoginInfo2) (created : List AnonymousSMSInfo) (validation : Validation) : Prop where
  created : validation.info ∈ created
  id : validation.info.id = req.vcodeID
  account : validation.info.anonymityID = req.account
  content : services.folding.equalFold req.vcodeContent validation.info.content = true
  unexpired : validation.readAt ≤ validation.info.createTime * second + validation.smsExpiration

/-- Every token for an account that asks for a phone belongs to a code of the account, and no two to the same code. -/
structure CodesUsedOnce (state : Shared ι SMSStore SMSPhase) : Prop where
  own : ∀ i req, parties i = .anonymous2 req → services.needVerifyMobile req.account = true →
    (state.phase i).issued = true → ∃ validation ∈ (state.phase i).validation,
    OwnCode services req state.store.created validation
  once : ∀ i j req other, parties i = .anonymous2 req → parties j = .anonymous2 other →
    services.needVerifyMobile req.account = true → services.needVerifyMobile other.account = true →
    (state.phase i).issued = true → (state.phase j).issued = true → req.vcodeID = other.vcodeID → i = j

variable {services parties}

variable (services parties) in
/-- The code of a login is its own; without one it only goes on if the account does not ask for a phone. -/
structure Honest (created : List AnonymousSMSInfo) (i : ι) (phase : SMSPhase) : Prop where
  own : ∀ req, parties i = .anonymous2 req → ∀ validation ∈ phase.validation, OwnCode services req created validation
  asked : ∀ req, parties i = .anonymous2 req → services.needVerifyMobile req.account = true →
    phase ≠ .authenticating none ∧ phase ≠ .asserting none ∧ (phase.issued = true → phase.validation ≠ none)

private theorem OwnCode.mono {req : AnonymousLoginInfo2} {validation : Validation}
    (own : OwnCode services req created validation)
    (grown : created ⊆ more) : OwnCode services req more validation :=
  { own with created := grown own.created }

omit [DecidableEq ι] in
private theorem Honest.mono {i : ι} {phase : SMSPhase} (honest : Honest services parties created i phase)
    (grown : created ⊆ more) : Honest services parties more i phase where
  own := fun req isLogin validation validated => (honest.own req isLogin validation validated).mono grown
  asked := honest.asked

variable {state : Shared ι SMSStore SMSPhase} {i : ι} {choice : SMSChoice} {store : SMSStore} {phase : SMSPhase}

private theorem StoreMove.grown {before after : SMSStore} (move : StoreMove before after) :
    before.created ⊆ after.created := by
  cases move with
  | deleted _ same => exact same ▸ fun _ mem => mem
  | created info _ => exact subset_append_left _ _

omit [DecidableEq ι] in
/-- A step of a login keeps what it has done honest. -/
theorem Honest.step (honest : Honest services parties state.store.created i (state.phase i))
    (rows : ∀ info ∈ state.store.vcodes, info ∈ state.store.created) (met : CodeIsOwnAndFree parties state (i, choice))
    (advanced : (parties i).advance services choice state.store (state.phase i) = some (store, phase)) :
    Honest services parties state.store.created i phase := by
  by_cases isLogin : ∃ req, parties i = .anonymous2 req
  swap
  · exact ⟨fun req login => absurd ⟨req, login⟩ isLogin, fun req login => absurd ⟨req, login⟩ isLogin⟩
  obtain ⟨req, isLogin⟩ := isLogin
  have same {other : AnonymousLoginInfo2} (login : parties i = .anonymous2 other) : req = other :=
    SMSParty.anonymous2.inj (isLogin.symm.trans login)
  have own := honest.own req isLogin
  have asked := honest.asked req isLogin
  rw [isLogin] at advanced
  have move := AnonymousLoginInfo2.advance_cases advanced
  suffices (∀ validation ∈ phase.validation, OwnCode services req state.store.created validation) ∧
      (services.needVerifyMobile req.account = true → phase ≠ .authenticating none ∧ phase ≠ .asserting none ∧
        (phase.issued = true → phase.validation ≠ none)) from
    ⟨fun other login => same login ▸ this.1, fun other login => same login ▸ this.2⟩
  generalize before : state.phase i = previous at move own asked
  cases move with
  | refused validation old failure =>
    refine ⟨fun known isKnown => ?_, fun _ => ⟨nofun, nofun, nofun⟩⟩
    rcases old with rfl | old
    · cases isKnown
    · exact own known (old.trans isKnown)
  | asked => exact ⟨nofun, fun _ => ⟨nofun, nofun, nofun⟩⟩
  | unasked free =>
    refine ⟨nofun, fun needed => ?_⟩
    rw [free] at needed
    cases needed
  | validated validation ok =>
    refine ⟨fun known isKnown => ?_, fun _ => ⟨nofun, nofun, nofun⟩⟩
    obtain rfl : validation = known := some.inj isKnown
    obtain ⟨mem, ownID, content, unexpired⟩ := SMSStore.validate_ok ok
    exact ⟨rows _ mem, ownID, (met.1 req _ isLogin rfl before).1 _ mem ownID, content, unexpired⟩
  | authenticated => exact ⟨own, fun needed => ⟨nofun, fun none => (asked needed).1 (by cases none; rfl), nofun⟩⟩
  | issuedPlain token => exact ⟨nofun, fun needed => absurd rfl (asked needed).2.1⟩
  | issued validation token | used validation token | undeleted validation token failure =>
      exact ⟨own, fun _ => ⟨nofun, nofun, nofun⟩⟩

variable (services parties) in
/-- The table holds codes that were created, and every login is honest. -/
structure Sound (state : Shared ι SMSStore SMSPhase) : Prop where
  rows : ∀ info ∈ state.store.vcodes, info ∈ state.store.created
  logins : ∀ i, Honest services parties state.store.created i (state.phase i)

private theorem Sound.step {next : Shared ι SMSStore SMSPhase} {label : ι × SMSChoice}
    (sound : Sound services parties state)
    (met : CodeIsOwnAndFree parties state label) (stepped : smsStep services parties state label = some next) :
    Sound services parties next := by
  obtain ⟨i, choice⟩ := label
  obtain ⟨store, phase, advanced, rfl⟩ := Shared.step_eq_some.mp stepped
  have move := SMSParty.storeMove advanced
  constructor
  · cases move with
    | deleted kept same =>
      intro info mem
      rw [same]
      exact sound.rows info (kept info mem)
    | created new fresh =>
      intro info mem
      exact (mem_append.mp mem).elim (fun old => mem_append_left _ (sound.rows info old)) (mem_append_right _)
  · refine Shared.forall_update _ (fun j => (sound.logins j).mono move.grown) ?_
    exact ((sound.logins i).step sound.rows met advanced).mono move.grown

section

variable (parties : ι → SMSParty) (vcodeID : String) (i : ι) (phase : SMSPhase) (store : SMSStore)

/-- The code can still be found, or has not been created. -/
def Available : Prop :=
  vcodeID ∉ store.created.map (·.id) ∨ ∃ info ∈ store.vcodes, info.id = vcodeID

/-- A login works with the code. -/
def WorksWith : Prop :=
  ∃ req, parties i = .anonymous2 req ∧ req.vcodeID = vcodeID ∧ phase.busy = true

/-- A login was issued a token for the code. -/
def IssuedFor : Prop :=
  ∃ req, parties i = .anonymous2 req ∧ req.vcodeID = vcodeID ∧ phase.issued = true ∧ phase.validation ≠ none

end

private theorem StoreMove.available {before after : SMSStore} (move : StoreMove before after)
    (available : Available vcodeID after) :
    Available vcodeID before := by
  cases move with
  | deleted kept same =>
    rcases available with unknown | ⟨info, mem, own⟩
    · exact .inl (same ▸ unknown)
    · exact .inr ⟨info, kept info mem, own⟩
  | created new fresh =>
    rcases available with unknown | ⟨info, mem, rfl⟩
    · exact .inl fun known => unknown (by rw [map_append]; exact mem_append_left _ known)
    · rcases mem_append.mp mem with old | isNew
      · exact .inr ⟨info, old, rfl⟩
      · rw [mem_singleton.mp isNew]
        exact .inl fresh

omit [DecidableEq ι] in
/-- The steps of logins with one code, when every validation finds it free and deletions do not fail. -/
theorem useStep_of_free (sound : Sound services parties state) (met : CodeIsOwnAndFree parties state (i, choice))
    (advanced : (parties i).advance services choice state.store (state.phase i) = some (store, phase)) :
    Shared.UseStep (Available vcodeID) (WorksWith parties vcodeID) (IssuedFor parties vcodeID) state i store phase := by
  have login {req : AnonymousLoginInfo2} (isLogin : parties i = .anonymous2 req) :
      LoginMove services req state.store choice (state.phase i) store phase := by
    rw [isLogin] at advanced
    exact AnonymousLoginInfo2.advance_cases advanced
  refine ⟨(SMSParty.storeMove advanced).available, ?_, ?_, ?_⟩
  · rintro ⟨req, isLogin, own, isBusy⟩
    have move := login isLogin
    generalize before : state.phase i = previous at move
    cases move with
    | validated validation ok =>
      obtain ⟨mem, ownID, _⟩ := SMSStore.validate_ok ok
      refine .inr ⟨.inr ⟨_, mem, ownID.trans own⟩, ?_⟩
      rintro j ⟨other, isOther, same, otherBusy⟩
      exact (met.1 req _ isLogin rfl before).2 j other isOther (same.trans own.symm) otherBusy
    | @authenticated _ validation =>
      cases validation with
      | none => cases isBusy
      | some validation => exact .inl ⟨req, isLogin, own, rfl⟩
    | issued validation token => exact .inl ⟨req, isLogin, own, rfl⟩
    | refused | asked | unasked | issuedPlain | used | undeleted => cases isBusy
  · rintro ⟨req, isLogin, own, isIssued, known⟩
    have move := login isLogin
    generalize before : state.phase i = previous at move
    cases move with
    | issuedPlain token => exact absurd rfl known
    | issued validation token => exact .inr ⟨req, isLogin, own, rfl⟩
    | used validation token | undeleted validation token failure => exact .inl ⟨req, isLogin, own, rfl, nofun⟩
    | refused | asked | unasked | validated | authenticated => cases isIssued
  · rintro ⟨req, isLogin, own, isIssued, known⟩
    have move := login isLogin
    have honest := (sound.logins i).own req isLogin
    generalize before : state.phase i = previous at move honest
    cases move with
    | issuedPlain token => exact absurd rfl known
    | issued validation token => exact .inl ⟨req, isLogin, own, rfl⟩
    | used validation token =>
      refine .inr (.inl ?_)
      have created := honest validation rfl
      rintro (unknown | ⟨info, mem, same⟩)
      · exact unknown (mem_map.mpr ⟨validation.info, created.created, created.id.trans own⟩)
      · exact (mem_deleteByIDs_sms.mp mem).2 (mem_singleton.mpr (same.trans own.symm))
    | undeleted validation token failure => exact absurd rfl (met.2 validation token before)
    | refused | asked | unasked | validated | authenticated => cases isIssued

/-- If every validation finds a code of its own account that no other login works with, and the deletion of a used
code does not fail, every token belongs to a code of its account and every code to at most one token. -/
theorem sms_codes_used_once {vcodes : List AnonymousSMSInfo} {smsExpiration : Int} {schedule : List (ι × SMSChoice)}
    {final : Shared ι SMSStore SMSPhase}
    (met : Meets (smsStep services parties) (CodeIsOwnAndFree parties) (smsStart vcodes smsExpiration) schedule)
    (reached : run (smsStep services parties) (smsStart vcodes smsExpiration) schedule = some final) :
    CodesUsedOnce services parties final := by
  have initially : Sound services parties (smsStart vcodes smsExpiration : Shared ι SMSStore SMSPhase) :=
    ⟨fun info mem => mem, fun i => ⟨fun _ _ => nofun, fun _ _ _ => ⟨nofun, nofun, nofun⟩⟩⟩
  have sound := invariant_of_meets (Sound services parties) Sound.step initially met reached
  have coded {i : ι} {req : AnonymousLoginInfo2} (isLogin : parties i = .anonymous2 req)
      (asked : services.needVerifyMobile req.account = true) (isIssued : (final.phase i).issued = true) :
      (final.phase i).validation ≠ none := ((sound.logins i).asked req isLogin asked).2.2 isIssued
  constructor
  · intro i req isLogin asked isIssued
    obtain ⟨validation, known⟩ := ne_none_iff_exists'.mp (coded isLogin asked isIssued)
    exact ⟨validation, known, (sound.logins i).own req isLogin validation known⟩
  · intro i j req other isLogin isOther asked otherAsked isIssued otherIssued same
    have exclusive : Shared.Exclusive (Available req.vcodeID) (WorksWith parties req.vcodeID)
        (IssuedFor parties req.vcodeID) final :=
      Shared.exclusive_of_meets (fun met advanced => useStep_of_free met.1 met.2 advanced)
        (fun i ⟨_, _, _, impossible, _⟩ => by cases impossible) (fun i ⟨_, _, _, impossible⟩ => by cases impossible)
        (met.and_invariant (Sound services parties) Sound.step initially) reached
    exact exclusive.user i j ⟨req, isLogin, rfl, isIssued, coded isLogin asked isIssued⟩
      ⟨other, isOther, same.symm, otherIssued, coded isOther otherAsked otherIssued⟩

namespace Sample

def smsServices : SMSServices := ⟨Collation.ascii.toCaseFolding, fun _ => true, pure⟩

/-- A request for a code for the account. -/
def askForCode (account : String) : SMSParty := .createAndSendVCode ⟨"13800000000", account, .americanEnglish⟩

/-- A login to the account with the code of the album. -/
def enter (account : String) : SMSParty :=
  .anonymous2 ⟨"client-1", account, "vcode", "123456", "visitor", .americanEnglish⟩

/-- The code of the album. -/
def albumCode : AnonymousSMSInfo := ⟨"vcode", "13800000000", "album", "123456", 0⟩

/-- The steps of a login. -/
def loginSteps {ι : Type} (i : ι) : List (ι × SMSChoice) := replicate 5 (i, .proceed 0)

/-- A visitor of the album and two logins. -/
def visit : Option Bool → SMSParty
  | none => askForCode "album"
  | some _ => enter "album"

/-- The second login begins after the first. -/
def visitSteps : List (Option Bool × SMSChoice) :=
  [(none, .proceed 0), (none, .create "vcode" "123456" 0)] ++ loginSteps (some false) ++
    replicate 2 (some true, .proceed 0)

end Sample

open Sample

/-- A visitor asks for a code and logs in with it. A second login with it is refused. -/
theorem sms_codes_used_once_album :
    ∃ final, run (smsStep smsServices visit) (smsStart [] (60 * second)) visitSteps = some final ∧
      (final.phase (some false)).issued = true ∧
      (∃ failure, final.phase (some true) = .finished none false (.error failure)) ∧
      CodesUsedOnce smsServices visit final := by
  have met : Meets (smsStep smsServices visit) (CodeIsOwnAndFree visit) (smsStart [] (60 * second)) visitSteps := by
    refine .cons ⟨?_, ?_⟩ rfl (.cons ⟨?_, ?_⟩ rfl (.cons ⟨?_, ?_⟩ rfl (.cons ⟨?own, ?_⟩ rfl (.cons ⟨?_, ?_⟩ rfl
      (.cons ⟨?_, ?_⟩ rfl (.cons ⟨?_, ?kept⟩ rfl (.cons ⟨?_, ?_⟩ rfl (.cons ⟨?late, ?_⟩ rfl trivial))))))))
    case own =>
      rintro req now isLogin - -
      cases isLogin
      refine ⟨fun info mem _ => by rw [mem_singleton.mp mem], fun j other _ _ => ?_⟩
      rcases j with _ | _ | _ <;> exact Bool.false_ne_true
    case kept => exact fun _ _ _ => nofun
    case late =>
      rintro req now isLogin - -
      refine ⟨nofun, fun j other _ _ => ?_⟩
      rcases j with _ | _ | _ <;> exact Bool.false_ne_true
    all_goals first
      | exact fun _ _ _ _ impossible => nomatch impossible
      | exact fun _ _ impossible => nomatch impossible
  exact ⟨_, rfl, rfl, ⟨_, rfl⟩, sms_codes_used_once met rfl⟩

/-- The code of the album opens the archive, and opens the album twice. -/
theorem sms_code_opens_other_account :
    (∃ final, run (smsStep smsServices fun _ : Bool => enter "archive") (smsStart [albumCode] (60 * second))
        (loginSteps true) = some final ∧ ¬ CodesUsedOnce smsServices (fun _ => enter "archive") final) ∧
    ∃ final, run (smsStep smsServices fun _ : Bool => enter "album") (smsStart [albumCode] (60 * second))
        ([(true, .proceed 0), (true, .proceed 0)] ++ loginSteps false ++ replicate 3 (true, .proceed 0)) = some final ∧
      ¬ CodesUsedOnce smsServices (fun _ => enter "album") final := by
  refine ⟨⟨_, rfl, fun usedOnce => ?_⟩, ⟨_, rfl, fun usedOnce => ?_⟩⟩
  · obtain ⟨validation, known, own⟩ := usedOnce.own true _ rfl rfl rfl
    cases known
    exact absurd own.account (by decide)
  · exact absurd (usedOnce.once true false _ _ rfl rfl rfl rfl rfl rfl rfl) (by decide)

end SecurityFabric.Authentication
