import SecurityFabric.Machine.Run
import SecurityFabric.Model.Json

/-! # The outbox

A service puts messages into `t_outbox` in the transactions that change its data; a thread on each replica takes them
out again, one transaction a message, and runs the handler of the message's type in between. The policy and the user
management service have the same code. The model is one business type: its table, the lock row of `t_outbox_lock`, the
open transactions and the replicas with their one-slot channel. Every action of a transaction or a thread is a step, and
so is each way it can fail. A commit and the notification after it are two steps.

What was committed, rolled back and handled is recorded beside the table. The creation time of a call and which row of
the earliest time is read are open. `select … for update` waits for the lock, which is held until the end of the
transaction.
-/

namespace SecurityFabric.Outbox

variable (codec : Codec) (state : OutboxState) (outboxHandlers : List Int) (i : Nat) (k : Nat) (tx : Tx)

structure OutboxMsg where
  type : Int
  content : Json

/-- The JSON library, as far as the outbox relies on it: no message is encoded as the empty text. -/
structure Codec where
  marshal : OutboxMsg → String
  unmarshal : String → Option OutboxMsg
  marshal_ne_empty : ∀ msg, marshal msg ≠ ""

/-- A row of `t_outbox`. -/
structure Row where
  id : Nat
  message : String
  createTime : Int
deriving DecidableEq, Repr

/-- An open transaction of a replica, with the rows each of its calls has added. -/
structure Tx where
  replica : Nat
  calls : List (List Row)
deriving DecidableEq, Repr

def Tx.rows : List Row := tx.calls.flatten

/-- Where a push thread is. -/
inductive PushPhase where
  | off
  | waiting
  | beginning
  | locking
  | reading
  | handling (row : Row)
  | deleting (row : Row)
  | committing (row : Row)
  /-- Nothing was left to push; the transaction ends. -/
  | finishing
deriving DecidableEq, Repr

structure Replica where
  pushChan : Bool := false
  needTimer : Bool := false
  phase : PushPhase := .off
deriving DecidableEq, Repr

/-- A handler returned on a thread. -/
structure HandlerRun where
  thread : Nat
  row : Row
  success : Bool
deriving DecidableEq, Repr

structure OutboxState where
  nextID : Nat := 0
  outbox : List Row := []
  transactions : List Tx := []
  /-- What each committed transaction added, call by call. -/
  commits : List (List (List Row)) := []
  rolledBack : List Row := []
  /-- Replicas that have yet to notify their thread. -/
  pending : List Nat := []
  replicas : Nat → Replica := fun _ => {}
  lock : Option Nat := none
  runs : List HandlerRun := []

inductive PushEvent where
  | tick
  | receive
  | begin
  | lock
  | nothing
  | read (row : Row)
  | handle (success : Bool)
  | delete
  | commit
  | fail

inductive Action where
  /-- `NewOutbox`: the thread is started and will be notified. -/
  | start (i : Nat)
  | begin (i : Nat)
  /-- `AddOutboxInfos` in the k-th open transaction. -/
  | add (k : Nat) (msgs : List OutboxMsg) (curTime : Int)
  | commit (k : Nat)
  | rollback (k : Nat)
  /-- `NotifyPushOutboxThread`, for the k-th notification to come. -/
  | notify (k : Nat)
  | push (i : Nat) (event : PushEvent)

namespace OutboxState

def put (replica : Replica) : OutboxState := { state with replicas := Function.update state.replicas i replica }

/-- The thread moves on. -/
def goTo (phase : PushPhase) : OutboxState := state.put i { state.replicas i with phase }

/-- A transaction of the thread ends: it gives back the lock, if it has it, and goes on. -/
def endPush (phase : PushPhase) (needTimer : Bool) : OutboxState :=
  { state.put i { state.replicas i with phase, needTimer } with
    lock := if state.lock = some i then none else state.lock }

/-- `push` ends with an error: the transaction is rolled back and the timer is set. -/
def giveUp : OutboxState := state.endPush i .waiting true

def acquire : OutboxState := { state.goTo i .reading with lock := some i }

/-- A handler returned. -/
def record (run : HandlerRun) : OutboxState := { state with runs := state.runs ++ [run] }

/-- `DeleteOutboxInfoByID`. -/
def remove (row : Row) : OutboxState := { state with outbox := state.outbox.filter (·.id ≠ row.id) }

/-- The rows of a call, with consecutive ids and one creation time. -/
def newRows (msgs : List OutboxMsg) (curTime : Int) : List Row :=
  msgs.mapIdx fun k msg => ⟨state.nextID + k, codec.marshal msg, curTime⟩

/-- Rows the database may return for `order by f_create_time asc limit 1`. -/
def IsFirst (row : Row) : Prop := row ∈ state.outbox ∧ ∀ other ∈ state.outbox, row.createTime ≤ other.createTime

instance (state : OutboxState) (row : Row) : Decidable (state.IsFirst row) := inferInstanceAs (Decidable (_ ∧ _))

/-- The message is decoded and its type has a handler. -/
def CanHandle (row : Row) : Prop := ∃ msg ∈ codec.unmarshal row.message, msg.type ∈ outboxHandlers

instance (codec : Codec) (outboxHandlers : List Int) (row : Row) : Decidable (CanHandle codec outboxHandlers row) :=
  inferInstanceAs (Decidable (∃ msg ∈ codec.unmarshal row.message, msg.type ∈ outboxHandlers))

/-- A push thread takes a step. -/
def pushStep (state : OutboxState) (i : Nat) (event : PushEvent) : Option OutboxState :=
  match event, (state.replicas i).phase with
  | .tick, .waiting => some (if (state.replicas i).needTimer then state.goTo i .beginning else state)
  | .receive, .waiting =>
    if (state.replicas i).pushChan then
      some (state.put i { state.replicas i with pushChan := false, phase := .beginning })
    else none
  | .begin, .beginning => some (state.goTo i .locking)
  | .lock, .locking => if state.lock = none then some (state.acquire i) else none
  | .nothing, .reading => if state.outbox = [] then some (state.goTo i .finishing) else none
  | .read row, .reading =>
    if state.IsFirst row then
      some (state.goTo i (if row.message = "" then .finishing else .handling row))
    else none
  | .handle success, .handling row =>
    if CanHandle codec outboxHandlers row then
      some (if success then (state.record ⟨i, row, true⟩).goTo i (.deleting row)
        else (state.record ⟨i, row, false⟩).giveUp i)
    else some (state.giveUp i)
  | .delete, .deleting row => some (state.goTo i (.committing row))
  | .commit, .committing row => some ((state.remove row).endPush i .beginning false)
  | .commit, .finishing => some (state.endPush i .waiting false)
  | .fail, .beginning => some (state.giveUp i)
  | .fail, .locking => some (state.giveUp i)
  | .fail, .reading => some (state.giveUp i)
  | .fail, .deleting _ => some (state.giveUp i)
  | .fail, .committing _ => some (state.giveUp i)
  | .fail, .finishing => some (state.giveUp i)
  | _, _ => none

/-- `NewOutbox`: the thread runs and is about to be notified. -/
def startThread : OutboxState := { state.goTo i .waiting with pending := state.pending ++ [i] }

def beginTx : OutboxState := { state with transactions := state.transactions ++ [⟨i, []⟩] }

/-- `AddOutboxInfos` in an open transaction. -/
def addCall (msgs : List OutboxMsg) (curTime : Int) : OutboxState :=
  { state with
    nextID := state.nextID + msgs.length
    transactions := state.transactions.set k ⟨tx.replica, tx.calls ++ [state.newRows codec msgs curTime]⟩ }

def commitTx : OutboxState :=
  { state with
    transactions := state.transactions.eraseIdx k
    outbox := state.outbox ++ tx.rows
    commits := state.commits ++ [tx.calls]
    pending := state.pending ++ [tx.replica] }

def rollbackTx : OutboxState :=
  { state with
    transactions := state.transactions.eraseIdx k
    rolledBack := state.rolledBack ++ tx.rows }

/-- `NotifyPushOutboxThread`: a full channel stays as it is. -/
def notifyPushOutboxThread (k i : Nat) : OutboxState :=
  { state.put i { state.replicas i with pushChan := true } with pending := state.pending.eraseIdx k }

def step (state : OutboxState) : Action → Option OutboxState
  | .start i => if (state.replicas i).phase = .off then some (state.startThread i) else none
  | .begin i => if (state.replicas i).phase = .off then none else some (state.beginTx i)
  | .add k msgs curTime => (state.transactions[k]?).bind fun tx =>
    -- An empty list gives an insert without values, which the database refuses.
    if msgs ≠ [] ∧ ∀ msg ∈ msgs, msg.type ∈ outboxHandlers then some (state.addCall codec k tx msgs curTime)
    else none
  | .commit k => (state.transactions[k]?).map (state.commitTx k)
  | .rollback k => (state.transactions[k]?).map (state.rollbackTx k)
  | .notify k => (state.pending[k]?).map (state.notifyPushOutboxThread k)
  | .push i event => state.pushStep codec outboxHandlers i event

/-- Every row of a committed transaction. -/
def committedRows : List Row := state.commits.flatten.flatten

end OutboxState

/-- The thread waits, and nothing but a new notification will wake it. -/
def Replica.Idle (replica : Replica) : Prop :=
  replica.phase = .waiting ∧ replica.pushChan = false ∧ replica.needTimer = false

/-- Messages are left while every thread there is waits for a notification. -/
def OutboxState.Stalled : Prop := state.outbox ≠ [] ∧ ∀ i, (state.replicas i).phase ≠ .off → (state.replicas i).Idle

end SecurityFabric.Outbox
