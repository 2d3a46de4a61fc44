import SecurityFabric.Model.Auditlog.LogMgnt

/-! # One row per business id

A handler that does not find a business id in the cache is pending until it has written it there. Handlers of one
business id store one row if none of them reads the cache while another is pending, and if Redis does not fail between
the row and the cache.
-/

namespace SecurityFabric.Auditlog

section

open Machine Function List Option LogStore

variable {ι : Type} [DecidableEq ι] {deliveries : ι → Delivery} {key : String} {state next : Shared ι LogStore LogPhase}

/-- The rows that were inserted for a business id. -/
def LogStore.rowsOf (store : LogStore) (key : String) : List StoredLog :=
  store.rows.filter fun row => row.log.outBizID = key

/-- The handler has missed the business id in the cache and not written it yet. -/
def Pending (deliveries : ι → Delivery) (key : String) (state : Shared ι LogStore LogPhase) (i : ι) : Prop :=
  (deliveries i).log.outBizID = key ∧ (state.phase i = .storing ∨ ∃ log, state.phase i = .caching log)

/-- A step of a handler of the business id does not read the cache while another handler is pending, and is not a
failing write of the cache. Each step comes within 300 seconds of a row that has been stored. -/
structure Orderly (deliveries : ι → Delivery) (key : String) (state : Shared ι LogStore LogPhase)
    (label : ι × StatementChoice) : Prop where
  apart : (deliveries label.1).log.outBizID = key → state.phase label.1 = .waiting → label.2 ≠ .fail →
    ∀ j, ¬ Pending deliveries key state j
  cacheable : (deliveries label.1).log.outBizID = key → ∀ log, state.phase label.1 = .caching log → label.2 ≠ .fail
  inTime : ∀ now, label.2 = .proceed now → ∀ row ∈ state.store.rowsOf key, now < row.storedAt + cacheTimeout

private theorem outBizID_describe {receiver : Receiver} {texts : LogTexts} {answers : UserMgntAnswers}
    {log described : ReceivedLog}
    (ok : log.describe receiver texts answers = .ok (some described)) : described.withName.outBizID = log.outBizID := by
  have filled (users : List UserInfo) : (log.fill texts users).outBizID = log.outBizID := by cases users <;> rfl
  have named : described.withName.outBizID = described.outBizID := by
    rw [ReceivedLog.withName]
    split_ifs <;> rfl
  rw [named]
  unfold ReceivedLog.describe at ok
  repeat' split at ok
  all_goals cases ok
  · exact filled _
  all_goals rfl

/-- What a handler can do in a step. -/
inductive LogMove (delivery : Delivery) (store : LogStore) (choice : StatementChoice) :
    LogPhase → LogStore → LogPhase → Prop
  | left {phase after next} (rows : after.rows = store.rows) (cache : after.cache = store.cache)
      (later : store.clock ≤ after.clock) (over' : next = .finished ∨ ∃ log, next = .retrying log)
      (uncached : ∀ log, phase = .caching log → choice = .fail) :
      LogMove delivery store choice phase after next
  | missed {now} (isNow : choice = .proceed now) (later : store.clock ≤ now)
      (miss : { store with clock := now }.cached delivery.log.outBizID = false) :
      LogMove delivery store choice .waiting { store with clock := now } .storing
  | stored {now} {log : ReceivedLog} (later : store.clock ≤ now) (same : log.outBizID = delivery.log.outBizID) :
      LogMove delivery store choice .storing
        { store with clock := now, rows := store.rows ++ [⟨delivery.logType, log, now⟩] } (.caching log)
  | cached {now log} (later : store.clock ≤ now) : LogMove delivery store choice (.caching log)
      { store with
        clock := now
        cache := Function.update store.cache delivery.log.outBizID (some (now + cacheTimeout)) } .finished

variable {store : LogStore} {phase : LogPhase}

private theorem Delivery.advance_cases {delivery : Delivery} {choice : StatementChoice}
    {after : LogStore} {next : LogPhase}
    (advanced : delivery.advance choice store phase = some (after, next)) :
    LogMove delivery store choice phase after next := by
  cases choice with
  | fail =>
    obtain ⟨_, failed, same⟩ := map_eq_some_iff.mp advanced
    cases same
    refine .left rfl rfl (Int.le_refl _) ?_ fun _ _ => rfl
    cases phase <;> cases failed <;> simp
  | proceed now =>
    rw [Delivery.advance] at advanced
    split_ifs at advanced with early
    have later := Int.not_lt.mp early
    cases phase with
    | waiting =>
      rw [Delivery.proceed] at advanced
      split_ifs at advanced with hit <;> cases advanced
      · exact .left rfl rfl later (.inl rfl) nofun
      · exact .missed rfl later ((Bool.not_eq_true _).mp hit)
    | storing =>
      rw [Delivery.proceed] at advanced
      split at advanced
      · cases advanced
        exact .left rfl rfl later (.inr ⟨_, rfl⟩) nofun
      · cases advanced
        exact .left rfl rfl later (.inl rfl) nofun
      · rename_i described
        split_ifs at advanced <;> cases advanced
        · exact .left rfl rfl later (.inl rfl) nofun
        · exact .stored later (outBizID_describe described)
    | caching log =>
      cases advanced
      exact .cached later
    | retrying log =>
      cases advanced
      exact .left rfl rfl later (.inl rfl) nofun
    | finished => cases advanced

/-- One handler is pending at a time, and a row that was stored is about to be cached, or is cached for long enough. -/
structure Once (deliveries : ι → Delivery) (key : String) (state : Shared ι LogStore LogPhase) : Prop where
  alone : ∀ i j, Pending deliveries key state i → Pending deliveries key state j → i = j
  unstored : ∀ i, Pending deliveries key state i → state.phase i = .storing → state.store.rowsOf key = []
  kept : state.store.rowsOf key = [] ∨ ∃ row, state.store.rowsOf key = [row] ∧ row.storedAt ≤ state.store.clock ∧
    ((∃ i log, (deliveries i).log.outBizID = key ∧ state.phase i = .caching log) ∨
      ∃ expiry, state.store.cache key = some expiry ∧ row.storedAt + cacheTimeout ≤ expiry)

private theorem pending_cases {i j : ι}
    (pending : Pending deliveries key ⟨store, Function.update state.phase i phase⟩ j) :
    j = i ∨ j ≠ i ∧ Pending deliveries key state j := by
  by_cases same : j = i
  · exact .inl same
  · rw [Pending] at pending ⊢
    dsimp only at pending
    rw [update_of_ne same] at pending
    exact .inr ⟨same, pending⟩

/-- A step of a handler that is not pending afterwards and was not about to write the cache. -/
theorem Once.left (once : Once deliveries key state) {i : ι} (rows : store.rowsOf key = state.store.rowsOf key)
    (cache : store.cache key = state.store.cache key)
    (later : state.store.clock ≤ store.clock)
    (notPending : ¬ Pending deliveries key ⟨store, Function.update state.phase i phase⟩ i)
    (uncached : (deliveries i).log.outBizID = key → ∀ log, state.phase i ≠ .caching log) :
    Once deliveries key ⟨store, Function.update state.phase i phase⟩ := by
  have before {j : ι} (pending : Pending deliveries key ⟨store, Function.update state.phase i phase⟩ j) :
      j ≠ i ∧ Pending deliveries key state j :=
    (pending_cases pending).resolve_left fun same => notPending (same ▸ pending)
  refine ⟨fun j k first second => once.alone j k (before first).2 (before second).2, fun j pending isStoring => ?_, ?_⟩
  · obtain ⟨different, pendingBefore⟩ := before pending
    dsimp only at isStoring ⊢
    rw [update_of_ne different] at isStoring
    rw [rows]
    exact once.unstored j pendingBefore isStoring
  · dsimp only
    rw [rows, cache]
    refine once.kept.imp_right ?_
    rintro ⟨row, isRow, storedBefore, safe⟩
    refine ⟨row, isRow, storedBefore.trans later, safe.imp_left ?_⟩
    rintro ⟨j, log, ofKey, isCaching⟩
    refine ⟨j, log, ofKey, ?_⟩
    have different : j ≠ i := by
      rintro rfl
      exact uncached ofKey log isCaching
    rw [update_of_ne different]
    exact isCaching

private theorem Once.step (once : Once deliveries key state) {label : ι × StatementChoice}
    (orderly : Orderly deliveries key state label)
    (stepped : Shared.step (fun i => (deliveries i).advance) state label = some next) : Once deliveries key next := by
  obtain ⟨i, choice⟩ := label
  obtain ⟨store, phase, advanced, rfl⟩ := Shared.step_eq_some.mp stepped
  have move := Delivery.advance_cases advanced
  by_cases ofKey : (deliveries i).log.outBizID = key
  swap
  · -- a handler of another business id leaves the rows and the cache of this one alone
    refine once.left ?_ ?_ ?_ (fun pending => ofKey pending.1) fun same => absurd same ofKey
    all_goals generalize state.phase i = phaseBefore at move
    · cases move with
      | left rows => rw [rowsOf, rows, rowsOf]
      | missed | cached => rfl
      | stored _ same => simp [rowsOf, same, ofKey]
    · cases move with
      | left _ cache => rw [cache]
      | missed | stored => rfl
      | cached => exact update_of_ne (Ne.symm ofKey) _ _
    · cases move with
      | left _ _ later | missed _ later | stored later | cached later => exact later
  generalize isBefore : state.phase i = phaseBefore at move
  cases move with
  | left rows cache later over' uncached =>
    refine once.left (by rw [rowsOf, rows, rowsOf]) (by rw [cache]) later ?_ fun _ log isCaching => ?_
    · rintro ⟨-, pending⟩
      dsimp only at pending
      rcases over' with rfl | ⟨log, rfl⟩ <;> simp at pending
    · exact orderly.cacheable ofKey log isCaching (uncached log (isBefore.symm.trans isCaching))
  | missed isNow later miss =>
    have nobody := orderly.apart ofKey isBefore (by rw [isNow]; nofun)
    have only {store : LogStore} {phase : LogPhase} (j : ι)
        (pending : Pending deliveries key ⟨store, Function.update state.phase i phase⟩ j) : j = i :=
      (pending_cases pending).resolve_right fun before => nobody j before.2
    have unstored : state.store.rowsOf key = [] := by
      refine once.kept.resolve_right ?_
      rintro ⟨row, isRow, -, safe⟩
      rcases safe with ⟨j, log, ofKeyToo, isCaching⟩ | ⟨expiry, isCached, enough⟩
      · exact nobody j ⟨ofKeyToo, .inr ⟨log, isCaching⟩⟩
      · have early := orderly.inTime _ isNow row (isRow ▸ mem_cons_self)
        simp only [cached, ofKey, isCached, any_some, decide_eq_false_iff_not] at miss
        omega
    exact ⟨fun j k first second => (only j first).trans (only k second).symm, fun _ _ _ => unstored, .inl unstored⟩
  | @stored now log later same =>
    have pendingHere : Pending deliveries key state i := ⟨ofKey, .inl isBefore⟩
    have only {store : LogStore} {phase : LogPhase} (j : ι)
        (pending : Pending deliveries key ⟨store, Function.update state.phase i phase⟩ j) : j = i :=
      (pending_cases pending).elim id fun before => once.alone j i before.2 pendingHere
    have isRow (row : StoredLog) (isKey : row.log.outBizID = key) :
        (state.store.rows ++ [row]).filter (fun row => row.log.outBizID = key) = [row] := by
      have none := once.unstored i pendingHere isBefore
      rw [rowsOf] at none
      rw [filter_append, none]
      simp [isKey]
    refine ⟨fun j k first second => (only j first).trans (only k second).symm, fun j pending isStoring =>
      ?_, .inr ⟨_, isRow _ (same.trans ofKey), ?_⟩⟩
    · obtain rfl := only j pending
      dsimp only at isStoring
      rw [update_self] at isStoring
      cases isStoring
    · exact ⟨Int.le_refl _, .inl ⟨i, log, ofKey, update_self ..⟩⟩
  | @cached now log later =>
    have nobody {store : LogStore} (j : ι) : ¬ Pending deliveries key
        ⟨store, Function.update state.phase i .finished⟩ j := by
      intro pending
      rcases pending_cases pending with rfl | ⟨different, before⟩
      · simp [Pending] at pending
      · exact different (once.alone j i before ⟨ofKey, .inr ⟨log, isBefore⟩⟩)
    refine ⟨fun j _ first => absurd first (nobody j), fun j pending => absurd pending (nobody j), ?_⟩
    refine once.kept.imp_right ?_
    rintro ⟨row, isRow, storedBefore, -⟩
    refine ⟨row, isRow, storedBefore.trans later, .inr ⟨now + cacheTimeout, ?_, by omega⟩⟩
    dsimp only
    rw [ofKey, update_self]

/-- Nothing has been stored for the business id, and its deliveries are still to come. -/
structure Fresh (key : String) (state : Shared ι LogStore LogPhase) : Prop where
  unstored : state.store.rowsOf key = []
  waiting : ∀ i, state.phase i = .waiting

omit [DecidableEq ι] in
private theorem Fresh.once (fresh : Fresh key state) : Once deliveries key state := by
  have nobody (i : ι) : ¬ Pending deliveries key state i := by
    rintro ⟨-, isStoring | ⟨log, isCaching⟩⟩
    · cases (fresh.waiting i).symm.trans isStoring
    · cases (fresh.waiting i).symm.trans isCaching
  exact ⟨fun i _ pending => absurd pending (nobody i), fun i pending => absurd pending (nobody i), .inl fresh.unstored⟩

/-- Orderly handlers store one row. -/
theorem one_row_per_business_id (deliveries : ι → Delivery) (key : String) {labels : List (ι × StatementChoice)}
    {start final : Shared ι LogStore LogPhase} (fresh : Fresh key start)
    (meets : Meets (Shared.step fun i => (deliveries i).advance) (Orderly deliveries key) start labels)
    (reached : run (Shared.step fun i => (deliveries i).advance) start labels = some final) :
    (final.store.rowsOf key).length ≤ 1 := by
  have once := invariant_of_meets (Once deliveries key) (fun once orderly stepped =>
    once.step orderly stepped) fresh.once meets reached
  rcases once.kept with none | ⟨row, isRow, -⟩
  · rw [none]
    exact Nat.zero_le 1
  · rw [isRow]
    exact Nat.le_refl 1

namespace Sample

def delivery : Delivery where
  receiver := .receiveLog
  logType := .login
  log := ⟨"order", "service", .internalService, "service", "", "", 0⟩
  texts := ⟨"", ""⟩
  answers := ⟨none, none⟩

/-- All steps of one delivery, and the only one of another. -/
def inTurn : List (Bool × StatementChoice) :=
  [(false, .proceed 0), (false, .proceed 1), (false, .proceed 2), (true, .proceed 3)]

def arrived : Shared Bool LogStore LogPhase := ⟨⟨0, fun _ => none, [], []⟩, fun _ => .waiting⟩

end Sample

/-- One delivery after the other: the second one finds the row in the cache. -/
theorem one_row_per_business_id_sample :
    ∃ final, run (Shared.step fun _ => Sample.delivery.advance) (Sample.arrived) Sample.inTurn = some final ∧
      (∀ i, final.phase i = .finished) ∧ (final.store.rowsOf "order").length ≤ 1 := by
  have meets : Meets (Shared.step fun _ => Sample.delivery.advance) (Orderly (fun _ : Bool => Sample.delivery) "order")
      (Sample.arrived) Sample.inTurn := by
    refine .cons ⟨fun _ _ _ i pending => ?_, nofun, nofun⟩ rfl (.cons ⟨nofun, nofun, nofun⟩ rfl
      (.cons ⟨nofun, fun _ _ _ => nofun, ?_⟩ rfl (.cons ⟨fun _ _ _ i pending => ?_, nofun, ?_⟩ rfl trivial)))
    · rcases pending.2 with ⟨⟨⟩⟩ | ⟨_, ⟨⟩⟩
    · rintro _ ⟨⟩ row stored
      obtain rfl := mem_singleton.mp stored
      decide
    · cases i <;> rcases pending.2 with ⟨⟨⟩⟩ | ⟨_, ⟨⟩⟩
    · rintro _ ⟨⟩ row stored
      obtain rfl := mem_singleton.mp stored
      decide
  have fresh : Fresh "order" (Sample.arrived) := ⟨rfl, fun _ => rfl⟩
  exact ⟨_, rfl, by decide, one_row_per_business_id (fun _ => Sample.delivery) "order" fresh meets rfl⟩

/-- Two deliveries of one message both find nothing in the cache, and both store it. -/
theorem overlapping_deliveries_store_twice :
    ∃ final, run (Shared.step fun _ => Sample.delivery.advance) (Sample.arrived)
      [(false, .proceed 0), (true, .proceed 0), (false, .proceed 0), (true, .proceed 0)] = some final ∧
    (final.store.rowsOf "order").length = 2 :=
  ⟨_, rfl, rfl⟩

end

/-! # What becomes of a message that is tried again

When a call fails before the row is there, the message for `ReceiveAuditLog` goes through the outbox to `ReceiveLog`.
Its schema asks for a business id and bounds the name that was filled in, and `ReceiveLog` has no name for an anonymous
user. A date that a float does not hold comes out of the outbox as another one.
-/

open ReceivedLog

/-- A message that the schema accepts, what the service for users answers, and how floats are written: with digits that
are read as the same float. -/
structure AuditMessage where
  log : ReceivedLog
  valid : log.validAudit = true
  logType : LogType
  isType : logType ≠ .other
  texts : LogTexts
  users : List UserInfo
  app : String × Nat
  digits : Int → Int
  readBack : ∀ value, float64 (digits (float64 value)) = float64 value

namespace AuditMessage

variable (message : AuditMessage) (receiver : Receiver) (log : ReceivedLog)

/-- A handler of a message about the log. -/
def delivery : Delivery := ⟨receiver, message.logType, log, message.texts, ⟨some message.users, some message.app⟩⟩

/-- The row that it stores when no call fails, if it stores one. -/
def row : Option ReceivedLog :=
  ((message.delivery receiver log).proceed ⟨0, fun _ => none, [], []⟩ .storing).bind fun after =>
    after.1.rows.head?.map StoredLog.log

/-- Reading the cache, asking for the user or inserting the row fails, and the log is left for the outbox. -/
inductive Leaves : Prop
  | reading (failed : (message.delivery .receiveAuditLog message.log).failed .waiting = some (.retrying log))
  | asking {store : LogStore} (failed : (Delivery.proceed
    { message.delivery .receiveAuditLog message.log with answers := ⟨none, none⟩ } store
      .storing).map Prod.snd = some (.retrying log))
  | inserting (failed : (message.delivery .receiveAuditLog message.log).failed .storing = some (.retrying log))

/-- The message about the log is accepted, and its row is the one of a first attempt without a failure. -/
def RetryAgrees : Prop := ∃ date ∈ republished message.digits log.date, log.validPost = true ∧
  ∃ stored, message.row .receiveAuditLog message.log = some stored ∧
  message.row .receiveLog { log with date } = some stored

/-- The date comes back, the message has a business id and its name is short enough, an app account is known, and an
anonymous user has a name or gets the same one. -/
def Retryable : Prop :=
  republished message.digits message.log.date = some message.log.date ∧
    (log.userName.length ≤ 128 ∧ message.log.outBizID ≠ "") ∧ (message.log.userType = .app → message.app.2 = 200) ∧
    (message.log.userType = .anonymousUser → log.userName = "" → message.texts.anonymousUser ∈ ["", message.log.userID])

/-- The name that is stored: that of the message, one that is looked up, or the id. -/
def shownName : String :=
  let name := match log.userType with
    | .authenticatedUser => (message.users.head?.map UserInfo.name).getD ""
    | .app => message.app.1
    | .anonymousUser => if receiver = .receiveAuditLog then message.texts.anonymousUser else ""
    | .internalService => ""
  if log.userName ≠ "" then log.userName else if name ≠ "" then name else log.userID

def shownPaths : String :=
  if log.deptPaths = "" ∧ log.userType = .authenticatedUser then
    (message.users.head?.map (UserInfo.deptPaths message.texts)).getD ""
  else log.deptPaths

variable {message receiver log}

private theorem row_describe : message.row receiver log =
    (log.describe receiver message.texts ⟨some message.users, some message.app⟩).toOption.join.map withName := by
  unfold row Delivery.proceed delivery
  dsimp only
  cases log.describe receiver message.texts ⟨some message.users, some message.app⟩ with
  | error _ => rfl
  | ok described => cases described <;> simp [message.isType, Except.toOption]

private theorem row_eq_some_iff {stored : ReceivedLog} :
    message.row receiver log = some stored ↔ (log.userType = .app → message.app.2 = 200) ∧
    { log with userName := message.shownName receiver log, deptPaths := message.shownPaths log } = stored := by
  rw [row_describe]
  obtain ⟨outBizID, userID, userType, userName, deptPaths, additionalInfo, date⟩ := log
  cases userType with
  | authenticatedUser =>
    cases found : message.users <;> simp only [describe, shownName, shownPaths, found, ReceivedLog.fill]
    all_goals split_ifs <;> simp_all [withName, Except.toOption]
  | app | anonymousUser | internalService =>
    simp only [describe, shownName, shownPaths]
    split_ifs <;> simp_all [withName, Except.toOption]

private theorem Leaves.eq_or_row (leaves : message.Leaves log) :
    log = message.log ∨ message.row .receiveAuditLog message.log = some log := by
  cases leaves with
  | reading failed =>
    cases failed
    exact .inl rfl
  | asking failed =>
    unfold Delivery.proceed at failed
    dsimp only at failed
    repeat' split at failed
    all_goals cases failed
    exact .inl rfl
  | inserting failed =>
    cases failed
    rw [row_describe]
    unfold Delivery.described
    dsimp only [delivery]
    split
    · rename_i isRow
      rw [isRow]
      exact .inr rfl
    · exact .inl rfl

private theorem shownName_eq_iff : message.shownName .receiveAuditLog log = message.shownName .receiveLog log ↔
    (log.userType = .anonymousUser → log.userName = "" → message.texts.anonymousUser ∈ ["", log.userID]) := by
  cases type : log.userType with
  | anonymousUser => grind [shownName]
  | authenticatedUser | app | internalService => simp [shownName, type]

/-- Dates up to the year 2255 come back. -/
theorem republished_eq_some {value : Int} (few : value.natAbs < 2 ^ 53) :
    republished message.digits value = some value := by
  have back := message.readBack value
  rw [republished]
  rw [float64_eq_self (held_of_natAbs_le few.le)] at back ⊢
  generalize message.digits value = digits at back ⊢
  have below : digits < 2 ^ 53 := by
    by_contra large
    have high := le_float64 (held_of_natAbs_le (n := 2 ^ 53) le_rfl) (not_lt.mp large)
    omega
  have above : -2 ^ 53 < digits := by
    by_contra large
    have low := float64_le (held_of_natAbs_le (n := -2 ^ 53) le_rfl) (not_lt.mp large)
    omega
  obtain rfl : digits = value := (float64_eq_self (held_of_natAbs_le (by omega))).symm.trans back
  refine if_pos ?_
  simp only [isInt64, Bool.and_eq_true, decide_eq_true_eq]
  omega

private theorem retryAgrees_iff (same : log.date = message.log.date) :
    message.RetryAgrees log ↔ republished message.digits message.log.date = some message.log.date ∧
    log.validPost = true ∧
      ∃ stored, message.row .receiveAuditLog message.log = some stored ∧ message.row .receiveLog log = some stored := by
  unfold RetryAgrees
  rw [← same]
  constructor
  · rintro ⟨date, isDate, valid, stored, first, again⟩
    obtain rfl : date = log.date := by
      have stays := congrArg ReceivedLog.date (row_eq_some_iff.mp first).2
      exact (congrArg ReceivedLog.date (row_eq_some_iff.mp again).2).trans (stays.symm.trans same.symm)
    exact ⟨isDate, valid, stored, first, again⟩
  · rintro ⟨isDate, rest⟩
    exact ⟨log.date, isDate, rest⟩

/-- The retry of exactly these messages stores the row of the first attempt. -/
theorem retry_agrees_iff (leaves : message.Leaves log) : message.RetryAgrees log ↔ message.Retryable log := by
  have valid := message.valid
  simp only [validAudit, Bool.decide_and, Bool.and_eq_true, decide_eq_true_eq] at valid
  have ids : log.userID = message.log.userID ∧ log.outBizID = message.log.outBizID ∧ log.date = message.log.date := by
    rcases leaves.eq_or_row with rfl | isRow
    · exact ⟨rfl, rfl, rfl⟩
    · rw [← (row_eq_some_iff.mp isRow).2]
      exact ⟨rfl, rfl, rfl⟩
  rw [retryAgrees_iff ids.2.2]
  refine and_congr_right fun _ => and_congr ?_ ?_
  · have filled : 1 ≤ message.log.outBizID.length ↔ message.log.outBizID ≠ "" := by
      rw [Nat.one_le_iff_ne_zero, ne_eq, String.length_eq_zero_iff]
    simp [validPost, ids, valid, filled]
  · rcases leaves.eq_or_row with rfl | isRow
    · rw [← shownName_eq_iff]
      simp only [row_eq_some_iff]
      constructor
      · rintro ⟨stored, ⟨known, rfl⟩, -, same⟩
        exact ⟨known, (congrArg userName same).symm⟩
      · rintro ⟨known, same⟩
        exact ⟨_, ⟨known, rfl⟩, known, by rw [same]⟩
    · have again : message.row .receiveLog log = some log := by
        rw [row_eq_some_iff] at isRow ⊢
        grind [shownName, shownPaths]
      refine iff_of_true ⟨log, isRow, again⟩ ⟨(row_eq_some_iff.mp isRow).1, ?_⟩
      grind [shownName, row_eq_some_iff]

end AuditMessage

namespace Sample

/-- A visit of an anonymous user without a name. -/
def visit : AuditMessage where
  log := ⟨"visit", "guest", .anonymousUser, "", "", "", 1700000000000000⟩
  valid := rfl
  logType := .login
  isType := nofun
  texts := ⟨"unassigned", "anonymous"⟩
  users := []
  app := ("", 404)
  digits := id
  readBack value := float64_eq_self (held_float64 value)

/-- What a failing insert leaves. -/
def named : ReceivedLog := { visit.log with userName := "anonymous" }

end Sample

open Auditlog.Sample

/-- A visit whose name was filled in, when its row could not be inserted. -/
theorem retry_agrees_named : visit.Leaves named ∧ visit.RetryAgrees named :=
  ⟨.inserting rfl, (AuditMessage.retry_agrees_iff (.inserting rfl)).mpr
    ⟨AuditMessage.republished_eq_some (by decide), by decide, nofun, fun _ => nofun⟩⟩

/-- When the cache cannot be read, the retry stores the id for the name. -/
theorem anonymous_renamed : visit.Leaves visit.log ∧
    (visit.row .receiveAuditLog visit.log).map userName = some "anonymous" ∧
    (visit.row .receiveLog visit.log).map userName = some "guest" :=
  ⟨.reading rfl, rfl, rfl⟩

/-! # Messages that are acknowledged

A handler that returns no error has stored the row or committed the message to the outbox, or a row was there. Three
ways to lose a message remain: messages without a business id share an entry of the cache, an app account that exists
can be answered with another status, and an error of the outbox goes unnoticed.
-/

namespace Delivery

variable (delivery : Delivery) (calls : HandlerCalls) (store : LogStore)

/-- A row was stored for the business id, if there is one. -/
def AlreadyStored : Prop := delivery.log.outBizID ≠ "" ∧ store.rowsOf delivery.log.outBizID ≠ []

/-- The row is stored or the message is in the outbox, or a row had been stored already. -/
def Keeps (after : LogStore) : Prop :=
  after.rows = store.rows ++ [⟨delivery.logType, delivery.described, store.clock⟩] ∨
  (∃ log ∈ [delivery.log, delivery.described], after.outbox = store.outbox ++ [(delivery.logType, log)]) ∨
  delivery.AlreadyStored store

/-- An app account is answered with another status. -/
def AppRefused : Prop := delivery.log.userType = .app ∧ ∃ answer ∈ delivery.answers.getAppInfoByID, answer.2 ≠ 200

/-- The service for users does not answer what it is asked. -/
def Unanswered : Prop := delivery.log.userType = .app ∧ delivery.answers.getAppInfoByID = none ∨
  delivery.log.userType = .authenticatedUser ∧ delivery.answers.getUserInfoByID = none ∧
    (delivery.log.userName = "" ∨ delivery.log.deptPaths = "" ∨
      delivery.receiver = .receiveLog ∧ delivery.log.additionalInfo = "")

/-- The ways to lose a message: the cache or the status of an app account stops it, or a call fails before the row is
there and then `AddOutboxInfo`. -/
def Loses : Prop := ¬ delivery.AlreadyStored store ∧
  (calls.get = true ∧ (store.cached delivery.log.outBizID = true ∨ delivery.AppRefused) ∨
  (calls.get = false ∨ store.cached delivery.log.outBizID = false ∧ (delivery.Unanswered ∨ calls.insert = false)) ∧
    calls.beginTx = true ∧ calls.addOutboxInfo = false ∧ calls.commit = true)

variable {delivery calls store}

private theorem keeps_self : delivery.Keeps store store ↔ delivery.AlreadyStored store := by simp [Keeps]

private theorem describe_iff :
    (delivery.AppRefused ↔ delivery.log.describe delivery.receiver delivery.texts delivery.answers = .ok none) ∧
      (delivery.Unanswered ↔ delivery.log.describe delivery.receiver delivery.texts delivery.answers = .error ()) := by
  unfold AppRefused Unanswered ReceivedLog.describe
  cases delivery.log.userType with
  | app => cases delivery.answers.getAppInfoByID <;> grind
  | authenticatedUser => cases delivery.answers.getUserInfoByID <;> grind
  | anonymousUser | internalService => grind

/-- What is left for the outbox is lost if the transaction is committed without it. -/
private theorem keeps_of_retrying (typed : delivery.logType ≠ .other) {log : ReceivedLog}
    (isLog : log ∈ [delivery.log, delivery.described]) (left : delivery.receive calls store = (store, .retrying log)) :
    ((delivery.handle calls store).1 = true → delivery.Keeps store (delivery.handle calls store).2) ↔
      ¬ (¬ delivery.AlreadyStored store ∧ calls.beginTx = true ∧ calls.addOutboxInfo = false ∧
        calls.commit = true) := by
  have kept : delivery.Keeps store { store with outbox := store.outbox ++ [(delivery.logType, log)] } :=
    .inr (.inl ⟨log, isLog, rfl⟩)
  rw [handle, left]
  cases calls.beginTx <;> cases calls.addOutboxInfo <;> cases calls.commit <;> simp [typed, kept, keeps_self]

/-- A message that is acknowledged is kept, if it is not lost in one of these ways. -/
theorem acknowledged_kept_iff (typed : delivery.logType ≠ .other) :
    ((delivery.handle calls store).1 = true → delivery.Keeps store (delivery.handle calls store).2) ↔
      ¬ delivery.Loses calls store := by
  rw [Loses, describe_iff.1, describe_iff.2]
  cases read : calls.get with
  | false =>
    rw [keeps_of_retrying typed List.mem_cons_self (by rw [receive, read]; rfl)]
    simp
  | true =>
    cases hit : store.cached delivery.log.outBizID with
    | true => simp [handle, receive, keeps_self, read, hit]
    | false =>
      cases found : delivery.log.describe delivery.receiver delivery.texts delivery.answers with
      | error =>
        rw [keeps_of_retrying typed List.mem_cons_self (by simp [receive, proceed, read, hit, found])]
        simp
      | ok described =>
        cases described with
        | none => simp [handle, receive, keeps_self, proceed, read, hit, found]
        | some log =>
          have isLog : delivery.described = log.withName := by rw [Delivery.described, found]
          cases inserted : calls.insert with
          | false =>
            rw [@keeps_of_retrying _ _ _ typed log.withName (by simp [isLog])
              (by simp [receive, proceed, read, hit, found, inserted, typed])]
            simp
          | true =>
            refine iff_of_true (fun _ => .inl ?_) (by simp)
            simp only [handle, receive, proceed, read, hit, found, inserted, isLog]
            cases calls.set <;> cases calls.beginTx <;> cases calls.addOutboxInfo <;>
              cases calls.commit <;> simp [typed]

end Delivery

namespace Sample

def allSucceed : HandlerCalls := ⟨true, true, true, true, true, true⟩

/-- The schema for `ReceiveAuditLog` lets an empty business id pass. -/
def unnumbered : Delivery :=
  { delivery with receiver := .receiveAuditLog, log := { delivery.log with outBizID := "" } }

def byApp : Delivery :=
  { delivery with log := { delivery.log with userType := .app }, answers := ⟨none, some ("", 500)⟩ }

end Sample

/-- When Redis fails, the message goes to the outbox. -/
theorem acknowledged_kept_retried :
    delivery.Keeps arrived.store (delivery.handle { allSucceed with get := false } arrived.store).2 :=
  (@Delivery.acknowledged_kept_iff delivery _ _ (by decide)).mpr (by simp [Delivery.Loses, allSucceed]) rfl

/-- The second of two messages without a business id, an app account that is answered with an error, and a message that
neither Redis nor the outbox takes. -/
theorem acknowledged_and_lost :
    (let store := (unnumbered.handle allSucceed arrived.store).2
     unnumbered.log.validAudit = true ∧ unnumbered.handle allSucceed store = (true, store) ∧
       ¬ unnumbered.Keeps store store) ∧
    (byApp.log.validPost = true ∧ byApp.handle allSucceed arrived.store = (true, arrived.store) ∧
      ¬ byApp.Keeps arrived.store arrived.store) ∧
    delivery.log.validPost = true ∧
      delivery.handle ⟨false, true, true, true, false, true⟩ arrived.store = (true, arrived.store) ∧
      ¬ delivery.Keeps arrived.store arrived.store := by
  refine ⟨⟨by decide, rfl, ?_⟩, ⟨by decide, rfl, ?_⟩, by decide, rfl, ?_⟩ <;> rw [Delivery.keeps_self]
  · exact fun stored => stored.1 rfl
  all_goals exact fun stored => stored.2 rfl

end SecurityFabric.Auditlog
