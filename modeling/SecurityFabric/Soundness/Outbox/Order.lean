import SecurityFabric.Proofs.Outbox

/-! # Delivery from the outbox

A message leaves the table only by the commit that follows its handler's success, what was rolled back is
never handled, and the lock keeps two threads from handling at once. No message is left to threads that
all wait for a notification, except between a commit and the notification after it.
-/

namespace SecurityFabric.Outbox

open OutboxState List

variable {codec : Codec} {outboxHandlers : List Int} {state next : OutboxState}

private theorem Accounted.eq_of_id (accounted : Accounted state) {row other : Row} (mem : row ∈ state.outbox)
    (otherMem : other ∈ state.outbox) (same : row.id = other.id) : row = other := by
  have distinct := inj_on_of_nodup_map accounted.ids
  exact distinct (mem_append_left _ (accounted.outbox row mem))
    (mem_append_left _ (accounted.outbox other otherMem)) same

/-- A message leaves the table by the commit of a thread whose handler has just returned success on it. -/
def LeavesHandled (state : OutboxState) (action : Action) (next : OutboxState) : Prop :=
  ∀ row ∈ state.outbox, row ∉ next.outbox → ∃ i, action = .push i .commit ∧
    (state.replicas i).phase = .committing row ∧ state.runs.getLast? = some ⟨i, row, true⟩

private theorem Invariant.leavesHandled {action : Action} (invariant : Invariant state)
    (stepped : state.step codec outboxHandlers action = some next) : LeavesHandled state action next := by
  intro row mem gone
  cases move_of_step stepped with
  | start i | begin on | add found msgs curTime | rollback found | notify found => exact absurd mem gone
  | commit found => exact absurd (mem_append_left _ mem) gone
  | @push i _ _ move =>
    cases move with
    | @commit deleted committing =>
      have own := invariant.secure i
      rw [committing] at own
      have same : row.id = deleted.id := by
        by_contra different
        exact gone (mem_filter.mpr ⟨mem, decide_eq_true different⟩)
      obtain rfl := invariant.accounted.eq_of_id mem own.2.1 same
      exact ⟨i, rfl, committing, own.2.2⟩
    | _ => exact absurd mem gone

private theorem Invariant.not_rolledBack (invariant : Invariant state) {run : HandlerRun} (mem : run ∈ state.runs) :
    run.row ∈ state.committedRows ∧ run.row ∉ state.rolledBack := by
  have committed := invariant.accounted.runs run mem
  refine ⟨committed, fun rolledBack => ?_⟩
  have distinct := invariant.accounted.ids
  rw [allRows, map_append, nodup_append'] at distinct
  exact distinct.2.2 (mem_map_of_mem committed) (mem_map_of_mem (mem_append_left _ rolledBack))

private theorem Invariant.not_stalled (invariant : Invariant state) (sent : state.pending = []) : ¬ state.Stalled := by
  rintro ⟨filled, idle⟩
  rcases invariant.awake filled with pending | ⟨i, alert⟩
  · exact pending sent
  · obtain ⟨waiting, empty, noTimer⟩ := idle i alert.1
    simp [Replica.Alert, waiting, empty, noTimer] at alert

/-- In every state of every run: (a) the next step takes a message out of the table only if it commits after the
message's handler returned success, and what was handled was committed and not rolled back; (b) two
threads are never in a handler at once; (c) if every notification has been sent, no message is left to
threads that all wait. -/
theorem delivers {actions : List Action}
    (reached : Machine.run (OutboxState.step codec outboxHandlers) {} actions = some state) :
    (∀ action next, state.step codec outboxHandlers action = some next → LeavesHandled state action next) ∧
      (∀ run ∈ state.runs, run.row ∈ state.committedRows ∧ run.row ∉ state.rolledBack) ∧
      (∀ i j row other, (state.replicas i).phase = .handling row → (state.replicas j).phase = .handling other → i = j) ∧
      (state.pending = [] → ¬ state.Stalled) := by
  have invariant := invariant_of_run reached
  refine ⟨fun _ _ => invariant.leavesHandled, fun _ => invariant.not_rolledBack, fun i j _ _ first second =>
    ?_, invariant.not_stalled⟩
  have mine := invariant.secure i
  have theirs := invariant.secure j
  rw [first] at mine
  rw [second] at theirs
  exact Option.some.inj (mine.1.symm.trans theirs.1)

/-- Nothing is lost: a committed message is in the table until its handler has returned success. -/
theorem committed_kept_or_handled (codec : Codec) (outboxHandlers : List Int) :
    Machine.Always (OutboxState.step codec outboxHandlers) {} fun state =>
      ∀ row ∈ state.committedRows, row ∈ state.outbox ∨ ∃ i, ⟨i, row, true⟩ ∈ state.runs := by
  intro actions final reached
  refine (Machine.invariant_of_run (fun state => Invariant state ∧ ∀ row ∈ state.committedRows, row ∈ state.outbox ∨
    ∃ i, ⟨i, row, true⟩ ∈ state.runs) ?_ ⟨invariant_start, nofun⟩ reached).2
  rintro state next action ⟨invariant, kept⟩ stepped
  refine ⟨invariant.step stepped, fun row committed => or_iff_not_imp_left.mpr fun gone => ?_⟩
  obtain ⟨old, runs⟩ : row ∈ state.committedRows ∧ state.runs ⊆ next.runs := by
    cases move_of_step stepped with
    | start | begin | add | rollback | notify => exact ⟨committed, fun _ => id⟩
    | commit found =>
      rw [committedRows_commitTx, mem_append] at committed
      exact ⟨committed.resolve_right fun new => gone (mem_append_right _ new), fun _ => id⟩
    | push move =>
      refine ⟨by rwa [committedRows, move.frame.commits] at committed, ?_⟩
      rcases move.runs with same | ⟨_, _, -, -, more⟩
      · exact same ▸ fun _ => id
      · exact more ▸ subset_append_left _ _
  rcases kept row old with there | ⟨i, handled⟩
  · obtain ⟨i, -, -, last⟩ := invariant.leavesHandled stepped row there gone
    exact ⟨i, runs (mem_of_getLast? last)⟩
  · exact ⟨i, runs handled⟩

namespace Sample

/-- Texts for messages without content. -/
def texts : Codec where
  marshal msg := if msg.type = 1 then "one" else if msg.type = 2 then "two" else "other"
  unmarshal text := if text = "one" then some ⟨1, .null⟩ else if text = "two" then some ⟨2, .null⟩ else none
  marshal_ne_empty msg := by split_ifs <;> decide

def system : OutboxState → Action → Option OutboxState := OutboxState.step texts [1, 2]

/-- A replica starts, finds nothing to push, and waits. -/
def startup : List Action :=
  [.start 0, .notify 0, .push 0 .receive, .push 0 .begin, .push 0 .lock, .push 0 .nothing, .push 0 .commit]

/-- The thread takes a message out. -/
def pushes (row : Row) : List Action :=
  [.push 0 .begin, .push 0 .lock, .push 0 (.read row), .push 0 (.handle true), .push 0 .delete, .push 0 .commit]

/-- A message is committed, announced and pushed. -/
def delivery : List Action :=
  startup ++ [.begin 0, .add 0 [⟨1, .null⟩] 5, .commit 0, .notify 0, .push 0 .receive] ++ pushes ⟨0, "one", 5⟩

end Sample

open Sample

theorem delivers_sample : ∃ state, Machine.run system {} delivery = some state ∧
    state.outbox = [] ∧ state.runs = [⟨0, ⟨0, "one", 5⟩, true⟩] ∧ ¬ state.Stalled := by
  have reached : Machine.run system {} delivery = some _ := rfl
  exact ⟨_, reached, rfl, rfl, (delivers reached).2.2.2 rfl⟩

/-- After a commit and before its notification, the message stands in the table and the thread waits. -/
theorem stalled_before_notification : ∃ state,
    Machine.run system {} (startup ++ [.begin 0, .add 0 [⟨1, .null⟩] 5, .commit 0]) = some state ∧ state.Stalled := by
  refine ⟨_, rfl, by decide, fun i on => ?_⟩
  cases i with
  | zero => exact ⟨rfl, rfl, rfl⟩
  | succ j => exact absurd rfl on

/-! # Order of delivery from the outbox

Messages are taken in the order of their creation time, which is one for all rows of a call. They are handled in the
order of commit, and within a call in the order of the list, as long as each call adds a single message and each commit
adds only messages later than all in the table.
-/

open Machine

variable {commits : List (List (List Row))} {event : PushEvent}

/-- Committed earlier, or earlier in the list of one call. -/
def Precedes (commits : List (List (List Row))) (first second : Row) : Prop :=
  (∃ earlier later, commits = earlier ++ later ∧ first ∈ earlier.flatten.flatten ∧ second ∈ later.flatten.flatten) ∨
    ∃ call ∈ commits.flatten, ∃ front back, call = front ++ back ∧ first ∈ front ∧ second ∈ back

/-- Before each run of a handler, all that precedes its message was handled with success; none of it is
handled after. -/
def HandledInOrder (state : OutboxState) : Prop :=
  ∀ before run after, state.runs = before ++ run :: after → ∀ row, Precedes state.commits row run.row →
    (∃ earlier ∈ before, earlier.row = row ∧ earlier.success = true) ∧ ∀ later ∈ after, later.row ≠ row

/-- A call adds one message; a commit adds messages later than all that are still in the table. -/
def InTime (state : OutboxState) : Action → Prop
  | .add _ msgs _ => msgs.length ≤ 1
  | .commit k => ∀ tx ∈ state.transactions[k]?, ∀ row ∈ tx.rows, ∀ old ∈ state.outbox, old.createTime < row.createTime
  | _ => True

instance (state : OutboxState) : (action : Action) → Decidable (InTime state action)
  | .add _ msgs _ => inferInstanceAs (Decidable (msgs.length ≤ 1))
  | .commit k => inferInstanceAs (Decidable (∀ tx ∈ state.transactions[k]?, ∀ row ∈ tx.rows, ∀ old ∈ state.outbox,
      old.createTime < row.createTime))
  | .start _ => .isTrue trivial
  | .begin _ => .isTrue trivial
  | .rollback _ => .isTrue trivial
  | .notify _ => .isTrue trivial
  | .push _ _ => .isTrue trivial

private theorem Precedes.mem {first second : Row} (precedes : Precedes commits first second) :
    first ∈ commits.flatten.flatten ∧ second ∈ commits.flatten.flatten := by
  rcases precedes with ⟨earlier, later, rfl, front, back⟩ | ⟨_, mem, front, back, rfl, before, after⟩
  · rw [flatten_append, flatten_append]
    exact ⟨mem_append_left _ front, mem_append_right _ back⟩
  · exact ⟨mem_flatten_of_mem mem (mem_append_left _ before), mem_flatten_of_mem mem (mem_append_right _ after)⟩

/-- A commit of calls with one message puts every earlier message before the new ones, and nothing else. -/
theorem Precedes.of_commit {calls : List (List Row)} (short : ∀ call ∈ calls, call.length ≤ 1) {first second : Row}
    (precedes : Precedes (commits ++ [calls]) first second) :
    Precedes commits first second ∨ first ∈ commits.flatten.flatten ∧ second ∈ calls.flatten := by
  rcases precedes with ⟨earlier, later, split, front, back⟩ | ⟨call, mem, front, back, rfl, before, after⟩
  · rcases eq_nil_or_concat later with rfl | ⟨later, last, rfl⟩
    · exact absurd back not_mem_nil
    · rw [concat_eq_append, ← append_assoc] at split
      obtain ⟨rfl, same⟩ := append_inj_left' split rfl, append_inj_right' split rfl
      obtain rfl : calls = last := by simpa using same
      simp only [concat_eq_append, flatten_append, flatten_singleton, mem_append] at back
      rcases back with old | new
      · exact .inl (.inl ⟨earlier, later, rfl, front, old⟩)
      · refine .inr ⟨?_, new⟩
        rw [flatten_append, flatten_append]
        exact mem_append_left _ front
  · rw [flatten_append, flatten_singleton, mem_append] at mem
    rcases mem with old | new
    · exact .inl (.inr ⟨_, old, front, back, rfl, before, after⟩)
    · have one := short _ new
      rw [length_append] at one
      have frontHasOne := length_pos_of_mem before
      have backHasOne := length_pos_of_mem after
      omega

structure Ordered (state : OutboxState) : Prop where
  short : ∀ tx ∈ state.transactions, ∀ call ∈ tx.calls, call.length ≤ 1
  times : ∀ first ∈ state.outbox, ∀ second ∈ state.outbox, Precedes state.commits first second →
    first.createTime < second.createTime
  gone : ∀ row ∈ state.committedRows, row ∉ state.outbox → ∃ run ∈ state.runs, run.row = row ∧ run.success = true
  picked : ∀ i row, (state.replicas i).phase = .handling row → ∀ earlier, Precedes state.commits earlier row →
    earlier ∉ state.outbox
  behind : ∀ run ∈ state.runs, ∀ earlier, Precedes state.commits earlier run.row → earlier ∉ state.outbox
  handled : HandledInOrder state

private theorem Accounted.not_committed {k : Nat} {tx : Tx} (accounted : Accounted state)
    (found : state.transactions[k]? = some tx) {row : Row}
    (mem : row ∈ tx.rows) : row ∉ state.committedRows := by
  intro committed
  have distinct := accounted.ids
  rw [allRows, map_append, nodup_append'] at distinct
  have isOpen : row ∈ openRows state := mem_flatMap.mpr ⟨tx, mem_of_getElem? found, mem⟩
  exact distinct.2.2 (mem_map_of_mem committed) (mem_map_of_mem (mem_append_right _ isOpen))

private theorem Ordered.commitTx {k : Nat} {tx : Tx} (ordered : Ordered state) (invariant : Invariant state)
    (found : state.transactions[k]? = some tx)
    (inTime : ∀ row ∈ tx.rows, ∀ old ∈ state.outbox, old.createTime < row.createTime) :
    Ordered (state.commitTx k tx) := by
  have accounted := invariant.accounted
  have short := ordered.short tx (mem_of_getElem? found)
  have new {row : Row} (committed : row ∈ state.committedRows) : row ∉ tx.rows :=
    fun mem => accounted.not_committed found mem committed
  have old {row : Row} (committed : row ∈ state.committedRows) (mem : row ∈ state.outbox ++ tx.rows) :
      row ∈ state.outbox := (mem_append.mp mem).resolve_right (new committed)
  -- What precedes a message committed before is what preceded it then, and it is not among the new ones.
  have same {earlier row : Row} (committed : row ∈ state.committedRows)
      (precedes : Precedes (state.commits ++ [tx.calls]) earlier row) : Precedes state.commits earlier row :=
    (precedes.of_commit short).resolve_right fun both => new committed both.2
  have stays {earlier row : Row} (committed : row ∈ state.committedRows)
      (absent : Precedes state.commits earlier row → earlier ∉ state.outbox)
      (precedes : Precedes (state.commits ++ [tx.calls]) earlier row) : earlier ∉ state.outbox ++ tx.rows :=
    fun mem => absent (same committed precedes) (old (same committed precedes).mem.1 mem)
  refine ⟨fun other mem => ordered.short other (mem_of_mem_eraseIdx mem), ?_, ?_, ?_, ?_, ?_⟩
  · intro first firstMem second secondMem precedes
    rcases precedes.of_commit short with before | ⟨committed, added⟩
    · exact ordered.times first (old before.mem.1 firstMem) second (old before.mem.2 secondMem) before
    · exact inTime second added first (old committed firstMem)
  · intro row committed absent
    rw [committedRows_commitTx, mem_append] at committed
    rcases committed with before | added
    · exact ordered.gone row before fun mem => absent (mem_append_left _ mem)
    · exact absurd (mem_append_right _ added) absent
  · intro i row handling earlier
    have own := invariant.secure i
    rw [show (state.replicas i).phase = .handling row from handling] at own
    exact stays (accounted.outbox row own.2) (ordered.picked i row handling earlier)
  · intro run mem earlier
    exact stays (accounted.runs run mem) (ordered.behind run mem earlier)
  · intro before run after split row precedes
    have committed := accounted.runs run (split ▸ mem_append_right _ mem_cons_self)
    exact ordered.handled before run after split row (same committed precedes)

/-- Another handler run at the end of the record. -/
theorem HandledInOrder.record (inOrder : HandledInOrder state) {run : HandlerRun}
    (runs : next.runs = state.runs ++ [run])
    (commits : next.commits = state.commits)
    (done : ∀ row, Precedes state.commits row run.row → ∃ earlier ∈ state.runs, earlier.row = row ∧
      earlier.success = true)
    (ahead : ∀ earlier ∈ state.runs, ¬ Precedes state.commits run.row earlier.row) : HandledInOrder next := by
  intro before other after split row precedes
  rw [runs] at split
  rw [commits] at precedes
  rcases eq_nil_or_concat after with rfl | ⟨rest, last, rfl⟩
  · obtain ⟨rfl, same⟩ := append_inj' split rfl
    obtain rfl : run = other := by simpa using same
    exact ⟨done row precedes, by simp⟩
  · rw [concat_eq_append, ← cons_append, ← append_assoc] at split
    obtain ⟨earlier, same⟩ := append_inj' split rfl
    obtain rfl : run = last := by simpa using same
    obtain ⟨found, later⟩ := inOrder before other rest earlier row precedes
    refine ⟨found, fun run mem => ?_⟩
    rw [concat_eq_append, mem_append, mem_singleton] at mem
    rcases mem with old | rfl
    · exact later run old
    · rintro rfl
      exact ahead other (earlier ▸ mem_append_right _ mem_cons_self) precedes

private theorem PushMove.handling {i j : Nat} {row : Row} (move : PushMove state i event next)
    (handling : (next.replicas j).phase = .handling row) :
    (state.replicas j).phase = .handling row ∨ state.IsFirst row ∧ next.outbox = state.outbox := by
  by_cases same : j = i
  · subst same
    cases move with
    | sleep => exact .inl handling
    | read reading first =>
      simp only [goTo, put_self, PushPhase.handling.injEq] at handling
      exact .inr ⟨handling ▸ first, rfl⟩
    | _ => simp [endPush, goTo, OutboxState.giveUp, acquire] at handling
  · rw [move.replicas same] at handling
    exact .inl handling

private theorem Ordered.move {i : Nat} (ordered : Ordered state) (invariant : Invariant state)
    (move : PushMove state i event next)
    (leaves : LeavesHandled state (.push i event) next) : Ordered next := by
  have frame := move.frame
  have own := invariant.secure i
  have commits : next.commits = state.commits := frame.commits
  refine ⟨frame.transactions ▸ ordered.short, ?_, ?_, ?_, ?_, ?_⟩
  · rw [commits]
    exact fun first firstMem second secondMem =>
      ordered.times first (frame.outbox first firstMem) second (frame.outbox second secondMem)
  · intro row committed absent
    rw [committedRows, commits] at committed
    have kept {run : HandlerRun} (mem : run ∈ state.runs) : run ∈ next.runs := by
      rcases move.runs with same | ⟨_, _, _, -, ran⟩
      · exact same ▸ mem
      · exact ran ▸ mem_append_left _ mem
    by_cases mem : row ∈ state.outbox
    · obtain ⟨j, -, -, last⟩ := leaves row mem absent
      exact ⟨_, kept (mem_of_getLast? last), rfl, rfl⟩
    · obtain ⟨run, found, facts⟩ := ordered.gone row committed mem
      exact ⟨run, kept found, facts⟩
  · rw [commits]
    intro j row handling earlier precedes mem
    rcases move.handling handling with before | ⟨first, -⟩
    · exact ordered.picked j row before earlier precedes (frame.outbox earlier mem)
    · have later := ordered.times earlier (frame.outbox earlier mem) row first.1 precedes
      have sooner := first.2 earlier (frame.outbox earlier mem)
      omega
  · rw [commits]
    refine fun run mem earlier precedes => mt (frame.outbox earlier) ?_
    rcases move.runs with same | ⟨row, success, handling, -, ran⟩
    · exact ordered.behind run (same ▸ mem) earlier precedes
    · rw [ran, mem_append, mem_singleton] at mem
      rcases mem with old | rfl
      · exact ordered.behind run old earlier precedes
      · exact ordered.picked i row handling earlier precedes
  · rcases move.runs with same | ⟨row, success, handling, -, ran⟩
    · rw [HandledInOrder, same, commits]
      exact ordered.handled
    · rw [handling] at own
      refine ordered.handled.record ran commits (fun earlier precedes => ?_) (fun run mem precedes => ?_)
      · exact ordered.gone earlier precedes.mem.1 (ordered.picked i row handling earlier precedes)
      · exact ordered.behind run mem row precedes own.2

private theorem Ordered.step {action : Action} (ordered : Ordered state) (invariant : Invariant state)
    (inTime : InTime state action) (stepped : state.step codec outboxHandlers action = some next) : Ordered next := by
  have leaves := invariant.leavesHandled stepped
  cases move_of_step stepped with
  | start i =>
    refine ⟨ordered.short, ordered.times, ordered.gone, fun j row handling => ?_, ordered.behind, ordered.handled⟩
    by_cases same : j = i
    · subst same
      simp [startThread, goTo] at handling
    · exact ordered.picked j row (put_of_ne same _ ▸ handling)
  | begin on =>
    refine ⟨fun tx mem => ?_, ordered.times, ordered.gone, ordered.picked, ordered.behind, ordered.handled⟩
    rcases mem_append.mp mem with old | new
    · exact ordered.short tx old
    · obtain rfl := mem_singleton.mp new
      simp
  | @add k tx found msgs curTime =>
    refine ⟨fun other mem => ?_, ordered.times, ordered.gone, ordered.picked, ordered.behind, ordered.handled⟩
    rcases mem_or_eq_of_mem_set mem with old | rfl
    · exact ordered.short other old
    · intro call inCalls
      rcases mem_append.mp inCalls with old | new
      · exact ordered.short tx (mem_of_getElem? found) call old
      · obtain rfl := mem_singleton.mp new
        rw [newRows, length_mapIdx]
        exact inTime
  | commit found => exact ordered.commitTx invariant found (inTime _ found)
  | rollback found =>
    exact ⟨fun tx mem => ordered.short tx (mem_of_mem_eraseIdx mem), ordered.times, ordered.gone,
      ordered.picked, ordered.behind, ordered.handled⟩
  | @notify k i found =>
    refine ⟨ordered.short, ordered.times, ordered.gone, fun j row handling => ?_, ordered.behind, ordered.handled⟩
    refine ordered.picked j row ?_
    by_cases same : j = i
    · subst same
      simpa [notifyPushOutboxThread] using handling
    · exact put_of_ne same _ ▸ handling
  | push move => exact ordered.move invariant move leaves

private theorem ordered_start : Ordered {} where
  short := by simp
  times := by simp
  gone := by simp [committedRows]
  picked := by simp
  behind := by simp
  handled := fun before run after split => by simp at split

/-- In every run in which each call adds one message and each commit is in time, messages are handled in
order. -/
theorem handled_in_order {actions : List Action}
    (inTime : Meets (OutboxState.step codec outboxHandlers) InTime {} actions)
    (reached : Machine.run (OutboxState.step codec outboxHandlers) {} actions = some state) : HandledInOrder state := by
  have kept := invariant_of_meets (fun state => Invariant state ∧ Ordered state)
    (fun both met stepped => ⟨both.1.step stepped, both.2.step both.1 met stepped⟩)
    ⟨invariant_start, ordered_start⟩ inTime reached
  exact kept.2.handled

namespace Sample

def one : OutboxMsg := ⟨1, .null⟩
def two : OutboxMsg := ⟨2, .null⟩

/-- Two messages, committed one after the other and pushed. -/
def inTurn : List Action :=
  startup ++ [.begin 0, .add 0 [one] 5, .commit 0, .begin 0, .add 0 [two] 6, .commit 0, .notify 0, .push 0 .receive] ++
    pushes ⟨0, "one", 5⟩ ++ pushes ⟨1, "two", 6⟩

/-- One call adds two messages; the second is read first. -/
def oneCall : List Action :=
  startup ++ [.begin 0, .add 0 [one, two] 5, .commit 0, .notify 0, .push 0 .receive] ++ pushes ⟨1, "two", 5⟩

/-- The transaction that inserts second commits first; its message is read second. -/
def crossing : List Action :=
  startup ++ [.begin 0, .begin 0, .add 0 [one] 5, .add 1 [two] 6, .commit 1, .commit 0, .notify 0, .push 0 .receive] ++
    pushes ⟨0, "one", 5⟩

end Sample

open Sample

theorem handled_in_order_sample : Meets system InTime {} inTurn ∧
    ∃ state, Machine.run system {} inTurn = some state ∧ state.runs.map (·.row.message) = ["one", "two"] ∧
    HandledInOrder state := by
  have inTime : Meets system InTime {} inTurn := by decide
  have reached : Machine.run system {} inTurn = some _ := rfl
  exact ⟨inTime, _, reached, rfl, handled_in_order inTime reached⟩

/-- The creation time of a call does not tell its messages apart, and it is not the time of the commit. -/
theorem handled_out_of_order : (∃ state, Machine.run system {} oneCall = some state ∧ ¬ HandledInOrder state) ∧
    ∃ state, Machine.run system {} crossing = some state ∧ ¬ HandledInOrder state := by
  have unhandled {state : OutboxState} {run : HandlerRun} (runs : state.runs = [run]) (row : Row)
      (precedes : Precedes state.commits row run.row) : ¬ HandledInOrder state := by
    intro inOrder
    obtain ⟨⟨_, mem, -⟩, -⟩ := inOrder [] run [] runs row precedes
    exact absurd mem not_mem_nil
  refine ⟨⟨_, rfl, unhandled rfl ⟨0, "one", 5⟩ ?_⟩, ⟨_, rfl, unhandled rfl ⟨1, "two", 6⟩ ?_⟩⟩
  · exact .inr ⟨_, mem_singleton_self _, [⟨0, "one", 5⟩], [⟨1, "two", 5⟩], rfl, by decide, by decide⟩
  · exact .inl ⟨[[[⟨1, "two", 6⟩]]], [[[⟨0, "one", 5⟩]]], rfl, by decide, by decide⟩

end SecurityFabric.Outbox
