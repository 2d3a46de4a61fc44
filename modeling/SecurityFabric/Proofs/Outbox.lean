import SecurityFabric.Model.Outbox
import Mathlib.Data.List.Perm.Basic
import Mathlib.Data.List.Nodup

/-! # Invariants of the outbox

Only the thread that holds the lock reads, handles and deletes a message. So no other changes what it knows: the row is
still in the table, and after its handler returned success no other handler has run. While the table holds a message
somebody will look at it: there is a notification still to come, a full channel, a thread with its timer set, or one
that has yet to read.
-/

namespace SecurityFabric.Outbox

open OutboxState List Option

variable {codec : Codec} {outboxHandlers : List Int} {state next : OutboxState} {i : Nat}
variable {event : PushEvent} {action : Action} {phase : PushPhase} {replica : Replica} {j : Nat} {k : Nat} {tx : Tx}

@[simp] theorem put_self (replica : Replica) : (state.put i replica).replicas i = replica := Function.update_self ..

theorem put_of_ne (other : j ≠ i) (replica : Replica) :
    (state.put i replica).replicas j = state.replicas j := Function.update_of_ne other ..

variable (state : OutboxState) (i : Nat) in
/-- The steps of a push thread, one constructor for each way it can go. -/
inductive PushMove : PushEvent → OutboxState → Prop
  | sleep : PushMove .tick state
  | wake : PushMove .tick (state.goTo i .beginning)
  | receive : PushMove .receive (state.put i { state.replicas i with pushChan := false, phase := .beginning })
  | begin : PushMove .begin (state.goTo i .locking)
  | lock (free : state.lock = none) : PushMove .lock (state.acquire i)
  | nothing (reading : (state.replicas i).phase = .reading) (empty : state.outbox = []) :
    PushMove .nothing (state.goTo i .finishing)
  | blank {row : Row} (reading : (state.replicas i).phase = .reading) (first : state.IsFirst row)
    (text : row.message = "") : PushMove (.read row) (state.goTo i .finishing)
  | read {row : Row} (reading : (state.replicas i).phase = .reading) (first : state.IsFirst row) :
    PushMove (.read row) (state.goTo i (.handling row))
  | handled {row : Row} (handling : (state.replicas i).phase = .handling row) :
    PushMove (.handle true) ((state.record ⟨i, row, true⟩).goTo i (.deleting row))
  | failed {row : Row} (handling : (state.replicas i).phase = .handling row) :
    PushMove (.handle false) ((state.record ⟨i, row, false⟩).giveUp i)
  | delete {row : Row} (deleting : (state.replicas i).phase = .deleting row) :
    PushMove .delete (state.goTo i (.committing row))
  | commit {row : Row} (committing : (state.replicas i).phase = .committing row) :
    PushMove .commit ((state.remove row).endPush i .beginning false)
  | finish (finishing : (state.replicas i).phase = .finishing) :
    PushMove .commit (state.endPush i .waiting false)
  | giveUp {event : PushEvent} : PushMove event (state.giveUp i)

private theorem pushMove_of_pushStep (stepped : state.pushStep codec outboxHandlers i event = some next) :
    PushMove state i event next := by
  unfold pushStep at stepped
  split at stepped
  case h_1 => split_ifs at stepped <;> cases stepped; exacts [.wake, .sleep]
  case h_2 => split_ifs at stepped; cases stepped; exact .receive
  case h_3 => cases stepped; exact .begin
  case h_4 => split_ifs at stepped with free; cases stepped; exact .lock free
  case h_5 reading => split_ifs at stepped with empty; cases stepped; exact .nothing reading empty
  case h_6 reading =>
    split_ifs at stepped with first text <;> cases stepped
    exacts [.blank reading first text, .read reading first]
  case h_7 success _ handling =>
    split_ifs at stepped with _ succeeded <;> cases stepped
    · rw [succeeded]
      exact .handled handling
    · rw [Bool.not_eq_true] at succeeded
      rw [succeeded]
      exact .failed handling
    · exact .giveUp
  case h_8 deleting => cases stepped; exact .delete deleting
  case h_9 committing => cases stepped; exact .commit committing
  case h_10 finishing => cases stepped; exact .finish finishing
  case h_17 => cases stepped
  all_goals
    cases stepped
    exact .giveUp

/-- The steps of the system. -/
inductive Move (codec : Codec) (state : OutboxState) : Action → OutboxState → Prop
  | start (i : Nat) : Move codec state (.start i) (state.startThread i)
  | begin {i : Nat} (on : (state.replicas i).phase ≠ .off) : Move codec state (.begin i) (state.beginTx i)
  | add {k : Nat} {tx : Tx} (found : state.transactions[k]? = some tx) (msgs : List OutboxMsg) (curTime : Int) :
    Move codec state (.add k msgs curTime) (state.addCall codec k tx msgs curTime)
  | commit {k : Nat} {tx : Tx} (found : state.transactions[k]? = some tx) :
    Move codec state (.commit k) (state.commitTx k tx)
  | rollback {k : Nat} {tx : Tx} (found : state.transactions[k]? = some tx) :
    Move codec state (.rollback k) (state.rollbackTx k tx)
  | notify {k i : Nat} (found : state.pending[k]? = some i) :
    Move codec state (.notify k) (state.notifyPushOutboxThread k i)
  | push {i : Nat} {event : PushEvent} {next : OutboxState} (move : PushMove state i event next) :
    Move codec state (.push i event) next

theorem move_of_step (stepped : state.step codec outboxHandlers action = some next) : Move codec state action next := by
  cases action with
  | start i =>
    simp only [step] at stepped
    split_ifs at stepped
    cases stepped
    exact .start i
  | begin i =>
    simp only [step] at stepped
    split_ifs at stepped with off
    cases stepped
    exact .begin off
  | add k msgs curTime =>
    obtain ⟨tx, found, added⟩ := bind_eq_some_iff.mp stepped
    split_ifs at added
    cases added
    exact .add found msgs curTime
  | commit k =>
    obtain ⟨tx, found, rfl⟩ := map_eq_some_iff.mp stepped
    exact .commit found
  | rollback k =>
    obtain ⟨tx, found, rfl⟩ := map_eq_some_iff.mp stepped
    exact .rollback found
  | notify k =>
    obtain ⟨i, found, rfl⟩ := map_eq_some_iff.mp stepped
    exact .notify found
  | push i event => exact .push (pushMove_of_pushStep stepped)

/-- What a thread relies on: the lock, the message it has read, and its handler's success. -/
def Relies (state : OutboxState) (i : Nat) : PushPhase → Prop
  | .reading => state.lock = some i
  | .finishing => state.lock = some i
  | .handling row => state.lock = some i ∧ row ∈ state.outbox
  | .deleting row => state.lock = some i ∧ row ∈ state.outbox ∧ state.runs.getLast? = some ⟨i, row, true⟩
  | .committing row => state.lock = some i ∧ row ∈ state.outbox ∧ state.runs.getLast? = some ⟨i, row, true⟩
  | _ => True

def Secure (state : OutboxState) : Prop := ∀ j, Relies state j (state.replicas j).phase

private theorem Relies.of_unlocked (relies : Relies state j phase) (other : state.lock ≠ some j) (next : OutboxState) :
    Relies next j phase := by
  cases phase with
  | reading | finishing => exact absurd relies other
  | handling row | deleting row | committing row => exact absurd relies.1 other
  | off | waiting | beginning | locking => trivial

private theorem Relies.mono (relies : Relies state j phase) (lock : next.lock = state.lock)
    (rows : ∀ row ∈ state.outbox, row ∈ next.outbox)
    (runs : next.runs = state.runs) : Relies next j phase := by
  cases phase with
  | reading | finishing => exact lock.trans relies
  | handling row => exact ⟨lock.trans relies.1, rows row relies.2⟩
  | deleting row | committing row => exact ⟨lock.trans relies.1, rows row relies.2.1, runs ▸ relies.2.2⟩
  | off | waiting | beginning | locking => trivial

private theorem Secure.put (secure : Secure state) (own : Relies state i replica.phase) :
    Secure (state.put i replica) :=
  Machine.Shared.forall_update (fun j (replica : Replica) => Relies state j replica.phase) secure own

private theorem Secure.goTo (secure : Secure state) (own : Relies state i phase) : Secure (state.goTo i phase) :=
  secure.put own

private theorem Secure.exclusive (secure : Secure state) (sole : ∀ j, j ≠ i → state.lock ≠ some j)
    (replicas : next.replicas = Function.update state.replicas i replica) (own : Relies next i replica.phase) :
    Secure next := by
  intro j
  rw [replicas]
  by_cases same : j = i
  · subst same
    rw [Function.update_self]
    exact own
  · rw [Function.update_of_ne same]
    exact (secure j).of_unlocked (sole j same) next

private theorem Secure.endPush (secure : Secure state) {needTimer : Bool}
    (own : Relies (state.endPush i phase needTimer) i phase) :
    Secure (state.endPush i phase needTimer) := by
  by_cases mine : state.lock = some i
  · exact secure.exclusive (fun j other held => other (some.inj (held.symm.trans mine))) rfl own
  · have others (j : Nat) : Relies (state.endPush i phase needTimer) j (state.replicas j).phase :=
      (secure j).mono (if_neg mine) (fun _ => id) rfl
    exact Machine.Shared.forall_update (fun j (replica : Replica) =>
      Relies (state.endPush i phase needTimer) j replica.phase) others own

private theorem sole_of_lock (mine : state.lock = some i) (j : Nat) (other : j ≠ i) : state.lock ≠ some j :=
  fun held => other (some.inj (held.symm.trans mine))

private theorem Secure.move (secure : Secure state) (move : PushMove state i event next) : Secure next := by
  have own := secure i
  cases move with
  | sleep => exact secure
  | wake | begin => exact secure.goTo trivial
  | receive => exact secure.put trivial
  | lock free => exact secure.exclusive (fun j _ held => by rw [free] at held; cases held) rfl rfl
  | nothing reading | blank reading =>
    rw [reading] at own
    exact secure.goTo own
  | read reading first =>
    rw [reading] at own
    exact secure.goTo ⟨own, first.1⟩
  | handled handling =>
    rw [handling] at own
    exact secure.exclusive (sole_of_lock own.1) rfl ⟨own.1, own.2, getLast?_concat⟩
  | failed handling =>
    rw [handling] at own
    exact secure.exclusive (sole_of_lock own.1) rfl trivial
  | delete deleting =>
    rw [deleting] at own
    exact secure.goTo own
  | commit committing =>
    rw [committing] at own
    exact secure.exclusive (sole_of_lock own.1) rfl trivial
  | finish | giveUp => exact secure.endPush trivial

private theorem Secure.step (secure : Secure state) (move : Move codec state action next) : Secure next := by
  cases move with
  | start i => exact secure.goTo trivial
  | begin on | add found msgs curTime | rollback found => exact secure
  | commit found => exact fun j => (secure j).mono rfl (fun row mem => mem_append_left _ mem) rfl
  | notify found => exact secure.put (secure _)
  | push move => exact secure.move move

/-- Rows of transactions that are still open. -/
def openRows (state : OutboxState) : List Row := state.transactions.flatMap Tx.rows

def allRows (state : OutboxState) : List Row := state.committedRows ++ (state.rolledBack ++ openRows state)

/-- No two rows share an id, the next id is not taken, no text is empty, and what is in the table or was
handled has been committed. -/
structure Accounted (state : OutboxState) : Prop where
  ids : ((allRows state).map Row.id).Nodup
  fresh : ∀ row ∈ allRows state, row.id < state.nextID
  texts : ∀ row ∈ allRows state, row.message ≠ ""
  outbox : ∀ row ∈ state.outbox, row ∈ state.committedRows
  runs : ∀ run ∈ state.runs, run.row ∈ state.committedRows

theorem committedRows_commitTx (k : Nat) (tx : Tx) :
    (state.commitTx k tx).committedRows = state.committedRows ++ tx.rows := by
  simp [committedRows, commitTx, Tx.rows]

section

variable (found : state.transactions[k]? = some tx)

include found

private theorem openRows_perm : (openRows state).Perm (tx.rows ++ (state.transactions.eraseIdx k).flatMap Tx.rows) := by
  obtain ⟨bound, rfl⟩ := List.getElem?_eq_some_iff.mp found
  exact ((List.getElem_cons_eraseIdx_perm bound).flatMap_right Tx.rows).symm

private theorem allRows_commitTx : (allRows (state.commitTx k tx)).Perm (allRows state) := by
  rw [allRows, committedRows_commitTx, append_assoc]
  refine List.Perm.append_left _ ?_
  refine (perm_append_comm_assoc _ _ _).trans ?_
  exact (openRows_perm found).symm.append_left _

private theorem allRows_rollbackTx : (allRows (state.rollbackTx k tx)).Perm (allRows state) := by
  refine List.Perm.append_left _ ?_
  rw [rollbackTx, append_assoc]
  exact (openRows_perm found).symm.append_left _

private theorem allRows_addCall (msgs : List OutboxMsg) (curTime : Int) :
    (allRows (state.addCall codec k tx msgs curTime)).Perm
    (state.newRows codec msgs curTime ++ allRows state) := by
  obtain ⟨bound, -⟩ := List.getElem?_eq_some_iff.mp found
  have added : (openRows (state.addCall codec k tx msgs curTime)).Perm
      (state.newRows codec msgs curTime ++ openRows state) := by
    refine ((set_perm_cons_eraseIdx bound _).flatMap_right Tx.rows).trans ?_
    rw [flatMap_cons, Tx.rows, flatten_append, flatten_singleton, append_assoc]
    exact (perm_append_comm_assoc _ _ _).trans ((openRows_perm found).symm.append_left _)
  refine ((added.append_left state.rolledBack).append_left state.committedRows).trans ?_
  exact ((perm_append_comm_assoc _ _ _).append_left _).trans (perm_append_comm_assoc _ _ _)

end

private theorem map_id_newRows (msgs : List OutboxMsg) (curTime : Int) :
    (state.newRows codec msgs curTime).map Row.id = List.range' state.nextID msgs.length := by
  refine ext_getElem (by simp [newRows]) fun k _ _ => ?_
  simp [newRows]

private theorem Accounted.of_perm (accounted : Accounted state) (perm : (allRows next).Perm (allRows state))
    (nextID : next.nextID = state.nextID)
    (outbox : ∀ row ∈ next.outbox, row ∈ next.committedRows) (runs : ∀ run ∈ next.runs, run.row ∈ next.committedRows) :
    Accounted next where
  ids := (perm.map Row.id).nodup_iff.mpr accounted.ids
  fresh row mem := nextID ▸ accounted.fresh row (perm.mem_iff.mp mem)
  texts row mem := accounted.texts row (perm.mem_iff.mp mem)
  outbox := outbox
  runs := runs

private theorem Accounted.addCall (accounted : Accounted state) (found : state.transactions[k]? = some tx)
    (msgs : List OutboxMsg) (curTime : Int) :
    Accounted (state.addCall codec k tx msgs curTime) where
  ids := by
    rw [((allRows_addCall found msgs curTime).map Row.id).nodup_iff, map_append, map_id_newRows]
    refine nodup_append'.mpr ⟨nodup_range' .., accounted.ids, fun id new old => ?_⟩
    obtain ⟨row, mem, rfl⟩ := mem_map.mp old
    have below := accounted.fresh row mem
    have above := (mem_range'_1.mp new).1
    omega
  fresh row mem := by
    rcases mem_append.mp ((allRows_addCall found msgs curTime).mem_iff.mp mem) with new | old
    · have id := mem_map_of_mem (f := Row.id) new
      rw [map_id_newRows, mem_range'_1] at id
      exact id.2
    · have below := accounted.fresh row old
      change row.id < state.nextID + msgs.length
      omega
  texts row mem := by
    rcases mem_append.mp ((allRows_addCall found msgs curTime).mem_iff.mp mem) with new | old
    · obtain ⟨k, bound, rfl⟩ := mem_mapIdx.mp new
      exact codec.marshal_ne_empty _
    · exact accounted.texts row old
  outbox := accounted.outbox
  runs := accounted.runs

/-- What a push thread leaves alone. -/
structure Frame (state next : OutboxState) : Prop where
  nextID : next.nextID = state.nextID
  transactions : next.transactions = state.transactions
  commits : next.commits = state.commits
  rolledBack : next.rolledBack = state.rolledBack
  pending : next.pending = state.pending
  outbox : ∀ row ∈ next.outbox, row ∈ state.outbox

namespace PushMove

variable (move : PushMove state i event next)

include move

theorem frame : Frame state next := by
  cases move with
  | commit => exact ⟨rfl, rfl, rfl, rfl, rfl, fun row mem => mem_of_mem_filter mem⟩
  | _ => exact ⟨rfl, rfl, rfl, rfl, rfl, fun _ mem => mem⟩

theorem runs : next.runs = state.runs ∨ ∃ row success, (state.replicas i).phase = .handling row ∧
    event = .handle success ∧ next.runs = state.runs ++ [⟨i, row, success⟩] := by
  cases move with
  | handled handling => exact .inr ⟨_, true, handling, rfl, rfl⟩
  | failed handling => exact .inr ⟨_, false, handling, rfl, rfl⟩
  | _ => exact .inl rfl

theorem replicas (other : j ≠ i) : next.replicas j = state.replicas j := by
  cases move with
  | sleep => rfl
  | _ => exact Function.update_of_ne other _ _

private theorem on (on : (state.replicas j).phase ≠ .off) : (next.replicas j).phase ≠ .off := by
  by_cases same : j = i
  · subst same
    cases move with
    | sleep => exact on
    | _ => simp [endPush, goTo, OutboxState.giveUp, acquire]
  · rw [move.replicas same]
    exact on

end PushMove

private theorem Accounted.move (accounted : Accounted state) (secure : Secure state)
    (move : PushMove state i event next) : Accounted next := by
  have frame := move.frame
  have committed : next.committedRows = state.committedRows := by rw [committedRows, frame.commits, committedRows]
  have rows : allRows next = allRows state := by
    rw [allRows, allRows, committed, frame.rolledBack, openRows, openRows, frame.transactions]
  refine accounted.of_perm (.of_eq rows) frame.nextID (fun row mem => ?_) ?_
  · rw [committed]
    exact accounted.outbox row (frame.outbox row mem)
  · rw [committed]
    rcases move.runs with same | ⟨row, success, handling, -, ran⟩
    · rw [same]
      exact accounted.runs
    · rw [ran]
      have own := secure i
      rw [handling] at own
      intro run mem
      rcases mem_append.mp mem with old | new
      · exact accounted.runs run old
      · obtain rfl := mem_singleton.mp new
        exact accounted.outbox row own.2

private theorem Accounted.step (accounted : Accounted state) (secure : Secure state)
    (move : Move codec state action next) : Accounted next := by
  cases move with
  | start i | notify found => exact accounted.of_perm (.refl _) rfl accounted.outbox accounted.runs
  | begin on =>
    refine accounted.of_perm (.of_eq ?_) rfl accounted.outbox accounted.runs
    simp [allRows, openRows, beginTx, committedRows, Tx.rows]
  | add found msgs curTime => exact accounted.addCall found msgs curTime
  | commit found =>
    refine accounted.of_perm (allRows_commitTx found) rfl (fun row mem => ?_) (fun run mem => ?_)
    · rw [committedRows_commitTx, mem_append]
      exact (mem_append.mp mem).imp (accounted.outbox row) id
    · rw [committedRows_commitTx]
      exact mem_append_left _ (accounted.runs run mem)
  | rollback found => exact accounted.of_perm (allRows_rollbackTx found) rfl accounted.outbox accounted.runs
  | push move => exact accounted.move secure move

/-- Only threads that run are notified. -/
structure Started (state : OutboxState) : Prop where
  pending : ∀ i ∈ state.pending, (state.replicas i).phase ≠ .off
  transactions : ∀ tx ∈ state.transactions, (state.replicas tx.replica).phase ≠ .off

private theorem on_put (on : replica.phase = .off → (state.replicas i).phase = .off)
    (before : (state.replicas j).phase ≠ .off) :
    ((state.put i replica).replicas j).phase ≠ .off := by
  by_cases same : j = i
  · subst same
    rw [put_self]
    exact fun off => before (on off)
  · rw [put_of_ne same]
    exact before

private theorem Started.step (started : Started state) (move : Move codec state action next) : Started next := by
  cases move with
  | start i =>
    have waits {j : Nat} : (state.replicas j).phase ≠ .off → ((state.startThread i).replicas j).phase ≠ .off :=
      on_put (fun off => by cases off)
    refine ⟨fun j mem => ?_, fun tx mem => waits (started.transactions tx mem)⟩
    rcases mem_append.mp mem with old | new
    · exact waits (started.pending j old)
    · obtain rfl := mem_singleton.mp new
      simp [startThread, goTo]
  | begin on =>
    refine ⟨started.pending, fun tx mem => ?_⟩
    rcases mem_append.mp mem with old | new
    · exact started.transactions tx old
    · exact mem_singleton.mp new ▸ on
  | @add _ tx found msgs curTime =>
    refine ⟨started.pending, fun other mem => ?_⟩
    rcases mem_or_eq_of_mem_set mem with old | rfl
    · exact started.transactions other old
    · exact started.transactions tx (mem_of_getElem? found)
  | commit found =>
    refine ⟨fun j mem => ?_, fun tx mem => started.transactions tx (mem_of_mem_eraseIdx mem)⟩
    rcases mem_append.mp mem with old | new
    · exact started.pending j old
    · exact mem_singleton.mp new ▸ started.transactions _ (mem_of_getElem? found)
  | rollback found =>
    exact ⟨started.pending, fun tx mem => started.transactions tx (mem_of_mem_eraseIdx mem)⟩
  | @notify k i found =>
    have stays {j : Nat} : (state.replicas j).phase ≠ .off →
      ((state.notifyPushOutboxThread k i).replicas j).phase ≠ .off := on_put id
    exact ⟨fun j mem => stays (started.pending j (mem_of_mem_eraseIdx mem)), fun tx mem =>
      stays (started.transactions tx mem)⟩
  | push move =>
    refine ⟨fun j mem => move.on (started.pending j ?_), fun tx mem => move.on (started.transactions tx ?_)⟩
    · exact move.frame.pending ▸ mem
    · exact move.frame.transactions ▸ mem

/-- The thread has yet to read, or to run again. -/
def Replica.Alert (replica : Replica) : Prop :=
  replica.phase ≠ .off ∧ (replica.pushChan = true ∨ match replica.phase with
    | .waiting => replica.needTimer = true
    | .finishing => False
    | _ => True)

def Awake (state : OutboxState) : Prop := state.pending ≠ [] ∨ ∃ i, (state.replicas i).Alert

private theorem PushMove.alert (move : PushMove state i event next) (texts : ∀ row ∈ state.outbox, row.message ≠ "")
    (filled : state.outbox ≠ []) (alert : (state.replicas i).Alert) : (next.replicas i).Alert := by
  cases move with
  | sleep => exact alert
  | nothing reading empty => exact absurd empty filled
  | blank reading first text => exact absurd text (texts _ first.1)
  | finish finishing =>
    simp only [Replica.Alert, finishing] at alert
    simp [Replica.Alert, endPush, alert.2]
  | _ => simp [Replica.Alert, endPush, goTo, OutboxState.giveUp, acquire]

private theorem Awake.move (awake : state.outbox ≠ [] → Awake state) (texts : ∀ row ∈ state.outbox, row.message ≠ "")
    (move : PushMove state i event next) (filled : next.outbox ≠ []) : Awake next := by
  obtain ⟨row, mem⟩ := exists_mem_of_ne_nil _ filled
  have before : state.outbox ≠ [] := ne_nil_of_mem (move.frame.outbox row mem)
  rcases awake before with pending | ⟨j, alert⟩
  · exact .inl (move.frame.pending ▸ pending)
  · by_cases same : j = i
    · subst same
      exact .inr ⟨j, move.alert texts before alert⟩
    · exact .inr ⟨j, (move.replicas same).symm ▸ alert⟩

private theorem Awake.step (awake : state.outbox ≠ [] → Awake state) (accounted : Accounted state)
    (started : Started state) (move : Move codec state action next) (filled : next.outbox ≠ []) : Awake next := by
  cases move with
  | start i => exact .inl (by simp [startThread])
  | begin on | add found msgs curTime | rollback found => exact awake filled
  | commit found => exact .inl (by simp [commitTx])
  | @notify _ i found =>
    have on := started.pending i (mem_of_getElem? found)
    exact .inr ⟨i, by simp [notifyPushOutboxThread, Replica.Alert, on]⟩
  | push move =>
    refine Awake.move awake (fun row mem => accounted.texts row ?_) move filled
    exact mem_append_left _ (accounted.outbox row mem)

structure Invariant (state : OutboxState) : Prop where
  secure : Secure state
  accounted : Accounted state
  started : Started state
  awake : state.outbox ≠ [] → Awake state

theorem invariant_start : Invariant {} where
  secure _ := trivial
  accounted := ⟨nodup_nil, by simp [allRows, openRows, committedRows], by simp [allRows, openRows,
    committedRows], by simp, by simp⟩
  started := ⟨by simp, by simp⟩
  awake filled := absurd rfl filled

theorem Invariant.step (invariant : Invariant state) (stepped : state.step codec outboxHandlers action = some next) :
    Invariant next where
  secure := invariant.secure.step (move_of_step stepped)
  accounted := invariant.accounted.step invariant.secure (move_of_step stepped)
  started := invariant.started.step (move_of_step stepped)
  awake := Awake.step invariant.awake invariant.accounted invariant.started (move_of_step stepped)

theorem invariant_of_run {actions : List Action}
    (reached : Machine.run (OutboxState.step codec outboxHandlers) {} actions = some state) :
    Invariant state :=
  Machine.invariant_of_run Invariant Invariant.step invariant_start reached

end SecurityFabric.Outbox
