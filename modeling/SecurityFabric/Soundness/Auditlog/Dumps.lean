import SecurityFabric.Proofs.Auditlog.DumpLog

/-! # Whether a dump removes logs that it did not write

A dump writes the rows that its cursor reads and removes the rows that are outdated. The two sets are compared for every
table, every failure of a call, and rows that arrive at any moment.

The cursor moves a bound of ids and a bound of dates. A row with a smaller id than the last one of a full batch and a
date that is not earlier is not read any more, but it is removed, and so is a row that a broken read did not deliver. So
nothing is lost exactly if dates go down with ids at the ends of batches and reads are not broken off, apart from the
rounding of the times.
-/

namespace SecurityFabric.Auditlog

section

open List

section

variable (env : Surroundings) (table : LogTable) (world : World) (rows : List LogPO) (calls : Nat)

/-- Every row that was removed had been written into an object whose upload was completed before. -/
def Archived (logType : LogType) (trace : List Effect) : Prop :=
  ∀ before row after, trace = before ++ .removed row :: after →
    ∃ archive, .completed archive ∈ before ∧ row ∈ archive.rows ∧
      ∃ suffix head foot, archive.text = head ++ archive.rows.flatMap (env.line suffix logType) ++ foot

/-- Every outdated row is in the window, and the window is read whole. -/
structure NothingMissed (breaksOff : Nat → Option Nat) (beginLogTime endLogTime : Int64) : Prop where
  covered : ∀ row ∈ rows, (∃ newest ∈ window rows beginLogTime endLogTime, row.logID.toInt ≤ newest.logID.toInt) →
    row.date.toInt < endLogTime.toInt → timeBound beginLogTime ≤ row.date.toInt ∧ row.date.toInt < timeBound endLogTime
  whole : Whole keepsAsking historyMaxBatchSize breaksOff 0 (window rows beginLogTime endLogTime)

/-- A row with a larger id arrives. -/
def LogTable.insertRow (row : LogPO) : LogTable :=
  if larger : table.lastID < row.logID.toInt then
    { rows := table.rows ++ [row]
      lastID := row.logID.toInt
      distinct := by
        rw [map_append, map_singleton]
        refine nodup_append.mpr ⟨table.distinct, nodup_singleton _, ?_⟩
        intro id isOld other isNew same
        obtain ⟨old, member, rfl⟩ := mem_map.mp isOld
        have := table.upTo old member
        rw [same, mem_singleton.mp isNew] at this
        omega
      large := forall_mem_append.mpr ⟨table.large, by
        have := table.started
        simp only [forall_mem_singleton]
        omega⟩
      upTo := forall_mem_append.mpr ⟨fun old member => (table.upTo old member).trans larger.le, by simp⟩
      started := table.started.trans larger.le }
  else table

def LogTable.insert : LogTable := rows.foldl LogTable.insertRow table

private theorem world_insertRow (row : LogPO) : (table.insertRow row).world = table.world.insertRow row := by
  rw [LogTable.insertRow, World.insertRow]
  split_ifs with larger isLarger <;> first | rfl | contradiction

private theorem world_insert : (table.insert rows).world = table.world.insert rows := by
  induction rows generalizing table with
  | nil => rfl
  | cons row rows ih => exact (ih (table.insertRow row)).trans (by rw [world_insertRow]; rfl)

private theorem insert_with_calls :
    World.insert { world with calls := calls } rows = { world.insert rows with calls := calls } := by
  induction rows generalizing world with
  | nil => rfl
  | cons row rows ih =>
    have first : World.insertRow { world with calls := calls } row = { world.insertRow row with calls := calls } := by
      rw [World.insertRow, World.insertRow]
      split_ifs <;> rfl
    change World.insert (World.insertRow _ row) rows = _
    rw [first]
    exact ih (world.insertRow row)

private theorem arrive_arrive :
    env.arrive (env.arrive table.world) = { (table.insert (env.inserted 0 ++ env.inserted 1)).world with calls := 2
      } := by
  have first : env.arrive table.world = { table.world.insert (env.inserted 0) with calls := 1 } := rfl
  rw [first, Surroundings.arrive, insert_with_calls, ← world_insert, ← world_insert]
  rw [LogTable.insert, LogTable.insert, LogTable.insert, foldl_append]

end

section Both

variable (table : LogTable) (logType : LogType) (beginLogTime endLogTime : Int64)

/-- A dump during which everything goes well and nothing arrives behind the first read. -/
def quiet (early : List LogPO) (breaksOff : Nat → Option Nat) : Surroundings where
  outcome _ := .answered
  inserted call := if call = 0 then early else []
  breaksOff := breaksOff
  xmlString _ _ := some []
  csvString _ _ := some []
  format _ := []
  maps := .listed
  storage := .listed
  dumpFormat := "csv"
  fileName := "log.csv"
  ossID := "oss"
  logPrefix := "logs"
  newPrefix := "logs"
  accountID := "account"
  objID := "object"
  partSize := some 8
  now := 0
  dumpLogNum := 0

variable {table logType beginLogTime endLogTime} {rows : List LogPO}

private theorem mem_window {row : LogPO} : row ∈ window rows beginLogTime endLogTime ↔
    row ∈ rows ∧ timeBound beginLogTime ≤ row.date.toInt ∧ row.date.toInt < timeBound endLogTime := by
  have unbounded : 0 < (-1 : Int) → row.logID.toInt ≤ -1 := by omega
  rw [window, (perm_newestFirst _).mem_iff, mem_filter, inPeriod, decide_eq_true_iff, and_iff_right unbounded]

private theorem nodup_window (distinct : (rows.map LogPO.logID).Nodup) : (window rows beginLogTime endLogTime).Nodup :=
  (perm_newestFirst _).nodup_iff.mpr (distinct.of_map.filter _)

private theorem le_newest (distinct : (rows.map LogPO.logID).Nodup) {newest row : LogPO}
    (isNewest : (window rows beginLogTime endLogTime).head? = some newest)
    (mem : row ∈ window rows beginLogTime endLogTime) :
    row.logID.toInt ≤ newest.logID.toInt := by
  have sorted := pairwise_newestFirst ((filter_sublist.map LogPO.logID).nodup distinct :
    ((rows.filter (inPeriod (-1) (timeBound beginLogTime) (timeBound endLogTime))).map LogPO.logID).Nodup)
  change (window rows beginLogTime endLogTime).Pairwise _ at sorted
  obtain ⟨rest, isWindow⟩ := head?_eq_some_iff.mp isNewest
  rw [isWindow] at sorted mem
  rcases mem_cons.mp mem with rfl | later
  · exact le_rfl
  · exact ((pairwise_cons.mp sorted).1 row later).le

/-- What was removed had been written if nothing is missed, or if nothing is read. -/
theorem archived_of_harmless {env : Surroundings} (distinct : (rows.map LogPO.logID).Nodup)
    (holds : env.breaksOff 0 = some 0 ∨ NothingMissed rows env.breaksOff beginLogTime endLogTime) {trace : List Effect}
    (harmless : Harmless env rows logType beginLogTime endLogTime trace) : Archived env logType trace := by
  rintro before row after isTrace
  rcases harmless with nothing | ⟨begins, newest, isNewest, reached⟩
  · rw [nothing] at isTrace
    cases (append_eq_nil_iff.mp isTrace.symm).2
  · have complete := holds.resolve_left begins
    have isDone : Effect.removed row ∈ trace := isTrace ▸ mem_append_right _ mem_cons_self
    cases reached with
    | nothing => cases isDone
    | completed isDumped => cases mem_singleton.mp isDone
    | @cleared archive isDumped file removed areOld =>
      have isRemoved : row ∈ removed := by simpa using isDone
      obtain ⟨isRow, isOld⟩ := areOld row isRemoved
      rw [isOutdated, Bool.and_eq_true, decide_eq_true_iff, decide_eq_true_iff] at isOld
      have within := complete.covered row isRow ⟨newest, mem_of_head? isNewest, isOld.1⟩ isOld.2
      refine ⟨archive, ?_, ?_, isDumped.text⟩
      · cases before with
        | nil => cases (List.cons.inj isTrace).1
        | cons first before =>
          rw [← (List.cons.inj isTrace).1]
          exact mem_cons_self
      · exact (isDumped.reads.subset_iff (nodup_window distinct)).mpr complete.whole (mem_window.mpr ⟨isRow, within⟩)

variable {breaksOff : Nat → Option Nat}

private theorem nothingMissed_of_window_eq_nil (empty : window rows beginLogTime endLogTime = []) :
    NothingMissed rows breaksOff beginLogTime endLogTime := by
  constructor
  · rintro row - ⟨newest, mem, -⟩
    rw [empty] at mem
    cases mem
  · rw [empty]
    exact whole_of_length_lt (by decide) fun _ _ => Nat.zero_le _

private theorem eq_nil_of_delivered_eq_nil {cut : Option Nat} {listed : List LogPO}
    (nothing : delivered cut (listed.take historyMaxBatchSize) = []) :
    cut = some 0 ∨ listed = [] := by
  have positive : historyMaxBatchSize ≠ 0 := by decide
  cases cut with
  | none => exact .inr ((take_eq_nil_iff.mp nothing).resolve_left positive)
  | some count =>
    rcases take_eq_nil_iff.mp nothing with rfl | empty
    · exact .inl rfl
    · exact .inr ((take_eq_nil_iff.mp empty).resolve_left positive)

/-- If a quiet dump loses nothing, then nothing is missed. -/
theorem nothingMissed_of_quiet (table : LogTable) {early : List LogPO}
    (settled : ∀ row ∈ (table.insert early).rows, row.date.toInt < timeBound endLogTime →
      row.date.toInt < endLogTime.toInt)
    (archived : Archived (quiet early breaksOff) logType (afterwards ((dumpLog (quiet early breaksOff)
      ((table.insert early).rows.length + 1) logType beginLogTime endLogTime).run table.world)).trace) :
    breaksOff 0 = some 0 ∨ NothingMissed (table.insert early).rows breaksOff beginLogTime endLogTime := by
  have found := arrive_arrive (quiet early breaksOff) table
  have isEarly : (quiet early breaksOff).inserted 0 ++ (quiet early breaksOff).inserted 1 = early := by simp [quiet]
  rw [isEarly] at found
  have distinct := (table.insert early).distinct
  have answers : True → ∀ call, (quiet early breaksOff).outcome call = .answered := fun _ _ => rfl
  have guarantees := @guarantees_dumpLog (quiet early breaksOff) True answers (table.insert early).lastID
    (table.insert early).rows
    ((table.insert early).rows.length + 1) logType distinct (table.insert early).large (table.insert early).upTo
      beginLogTime endLogTime table.world ⟨rfl, rfl⟩
    (by rw [found]; rfl) (by rw [found]; rfl) (fun _ => ⟨8, rfl, rfl, fun _ => ⟨[], rfl, by decide⟩⟩)
    (fun _ => Nat.lt_succ_self _)
  rcases guarantees.result rfl with ⟨_, world, ran, ended⟩ | ⟨_, world, -, -, impossible⟩
  · rw [ran] at archived
    rcases ended with ⟨-, nothing⟩ | ⟨-, newest, isNewest, archive, file, removed, isDumped, isTrace, -, all⟩
    · exact (eq_nil_of_delivered_eq_nil nothing).imp_right nothingMissed_of_window_eq_nil
    · right
      -- every outdated row was removed, so it had been written
      have written (row : LogPO) (isRow : row ∈ (table.insert early).rows)
          (upTo : row.logID.toInt ≤ newest.logID.toInt) (isOld : row.date.toInt < endLogTime.toInt) :
            row ∈ archive.rows := by
        have isRemoved := all row isRow (by simp [isOutdated, upTo, isOld])
        obtain ⟨before, after, parts⟩ := append_of_mem isRemoved
        obtain ⟨other, isCompleted, mem, -⟩ := archived
          ([.completed archive, .recorded file] ++ before.map Effect.removed) row (after.map Effect.removed) (by
            change world.trace = _
            rw [isTrace, parts, map_append, map_cons, append_assoc])
        have isOther : other = archive := by simpa using isCompleted
        exact isOther ▸ mem
      constructor
      · rintro row isRow ⟨_, isWithin, upTo⟩ isOld
        have isRead := written row isRow (upTo.trans (le_newest distinct isNewest isWithin)) isOld
        exact (mem_window.mp (isDumped.reads.subset isRead)).2
      · refine (isDumped.reads.subset_iff (nodup_window distinct)).mp fun row mem => ?_
        obtain ⟨isRow, -, isBefore⟩ := mem_window.mp mem
        exact written row isRow (le_newest distinct isNewest mem) (settled row isRow isBefore)
  · exact absurd trivial impossible

end Both

/-- Whatever fails and whatever arrives, every removed row had been written, exactly if nothing is missed. -/
theorem dump_archives_iff (table : LogTable) (early : List LogPO) (breaksOff : Nat → Option Nat) (logType : LogType)
    (beginLogTime endLogTime : Int64)
    (settled : ∀ row ∈ (table.insert early).rows, row.date.toInt < timeBound endLogTime →
      row.date.toInt < endLogTime.toInt) :
    (∀ env rounds, env.breaksOff = breaksOff → env.inserted 0 ++ env.inserted 1 = early →
      Archived env logType (afterwards ((dumpLog env rounds logType beginLogTime endLogTime).run table.world)).trace) ↔
      breaksOff 0 = some 0 ∨ NothingMissed (table.insert early).rows breaksOff beginLogTime endLogTime := by
  constructor
  · intro archived
    exact nothingMissed_of_quiet table settled (archived (quiet early breaksOff) _ rfl (by simp [quiet]))
  · rintro holds env rounds rfl rfl
    have found := arrive_arrive env table
    have distinct := (table.insert (env.inserted 0 ++ env.inserted 1)).distinct
    have guarantees := @guarantees_dumpLog env False False.elim _ _ rounds logType distinct
      (table.insert (env.inserted 0 ++ env.inserted 1)).large
        (table.insert (env.inserted 0 ++ env.inserted 1)).upTo beginLogTime
      endLogTime table.world
      ⟨rfl, rfl⟩ (by rw [found]; rfl) (by rw [found]; rfl) False.elim False.elim
    rcases guarantees.result rfl with ⟨_, world, ran, ended⟩ | ⟨_, world, ran, harmless, -⟩
    · rw [ran]
      refine archived_of_harmless distinct holds ?_
      rcases ended with ⟨nothing, -⟩ | ⟨begins, newest, isNewest, archive, file, removed, isDumped, isTrace, areOld, -⟩
      · exact .inl nothing
      · refine .inr ⟨begins, newest, isNewest, ?_⟩
        change Reached _ _ _ _ _ _ world.trace
        rw [isTrace]
        exact .cleared isDumped file areOld
    · rw [ran]
      exact archived_of_harmless distinct holds harmless

/-- Two logs. -/
def twoLogs : LogTable where
  rows := [{ emptyLog with logID := 3, date := 5 }, { emptyLog with logID := 2, date := 4 }]
  lastID := 3
  distinct := by decide
  large := by decide
  upTo := by decide
  started := by decide

/-- A third log arrives before the first read. -/
theorem dump_archives_iff_three : (∀ row ∈ (twoLogs.insert [{ emptyLog with logID := 4, date := 9 }]).rows,
      row.date.toInt < timeBound 10 → row.date.toInt < (10 : Int64).toInt) ∧
    ∀ env rounds, env.breaksOff = (fun _ => none) → env.inserted 0 ++
      env.inserted 1 = [{ emptyLog with logID := 4, date := 9 }] →
      Archived env .login (afterwards ((dumpLog env rounds .login 4 10).run twoLogs.world)).trace := by
  have settled : ∀ row ∈ (twoLogs.insert [{ emptyLog with logID := 4, date := 9 }]).rows,
      row.date.toInt < timeBound 10 → row.date.toInt < (10 : Int64).toInt := by
    intro row _ before
    rwa [timeBound_eq (by decide)] at before
  have dates : ∀ row ∈ (twoLogs.insert [{ emptyLog with logID := 4, date := 9 }]).rows, 4 ≤ row.date.toInt := by decide
  refine ⟨settled, (dump_archives_iff twoLogs _ _ .login 4 10 settled).mpr (.inr ⟨fun row isRow _ before => ?_, ?_⟩)⟩
  · exact ⟨dates row isRow, before⟩
  · refine whole_of_length_lt (lt_of_le_of_lt ?_ (by decide : 3 < historyMaxBatchSize)) (by simp)
    rw [window, (perm_newestFirst _).length_eq]
    exact length_filter_le _ _

/-- A log with a given id and the time 0. -/
def logAt (id : Nat) : LogPO := { emptyLog with logID := Int64.ofNat id }

private theorem logAt_id {id : Nat} (small : id ≤ historyMaxBatchSize + 2) : (logAt id).logID.toInt = id := by
  refine Int64.toInt_ofNat_of_lt (lt_of_le_of_lt small ?_)
  decide

/-- One log more than a batch, all of the same time, the largest id first. -/
def equalDates : LogTable where
  rows := (List.range (historyMaxBatchSize + 1)).map fun index => logAt (historyMaxBatchSize + 2 - index)
  lastID := historyMaxBatchSize + 2
  distinct := by
    rw [map_map]
    refine Nodup.map_on (fun first isFirst second isSecond same => ?_) nodup_range
    have ids := congrArg Int64.toInt same
    rw [mem_range] at isFirst isSecond
    simp only [Function.comp_apply] at ids
    rw [logAt_id (Nat.sub_le _ _), logAt_id (Nat.sub_le _ _)] at ids
    omega
  large := by
    simp only [forall_mem_map, mem_range]
    intro index isIndex
    rw [logAt_id (Nat.sub_le _ _)]
    omega
  upTo := by
    simp only [forall_mem_map, mem_range]
    intro index isIndex
    rw [logAt_id (Nat.sub_le _ _)]
    omega
  started := by decide

/-- The log with the smallest id is not read, and removed. -/
theorem equal_dates_lost :
    (∀ row ∈ equalDates.rows, (0 : Int64) ≤ row.date) ∧ ∃ rounds, ¬ Archived (quiet [] fun _ => none) .login
    (afterwards ((dumpLog (quiet [] fun _ => none) rounds .login 0 1).run equalDates.world)).trace := by
  have dates : ∀ row ∈ equalDates.rows, row.date = 0 := by
    simp only [equalDates, forall_mem_map]
    exact fun _ _ => rfl
  refine ⟨fun row isRow => by rw [dates row isRow]; decide, (equalDates.insert []).rows.length + 1, fun archived => ?_⟩
  have settled : ∀ row ∈ (equalDates.insert []).rows, row.date.toInt < timeBound 1 →
      row.date.toInt < (1 : Int64).toInt := by
    intro row isRow _
    rw [dates row isRow]
    decide
  have complete := (nothingMissed_of_quiet equalDates settled archived).resolve_left (by simp)
  have length : (window equalDates.rows 0 1).length = historyMaxBatchSize + 1 := by
    have all : equalDates.rows.filter (inPeriod (-1) (timeBound 0) (timeBound 1)) = equalDates.rows := by
      refine filter_eq_self.mpr fun row isRow => ?_
      rw [inPeriod, dates row isRow]
      exact decide_eq_true ⟨by omega, by decide⟩
    rw [window, (perm_newestFirst _).length_eq, all]
    simp [equalDates]
  -- the last log of the full batch, and the one behind it
  obtain ⟨lastLog, behind, isEnd⟩ := length_eq_two.mp
    (by rw [length_drop, length]; rfl : ((window equalDates.rows 0 1).drop (historyMaxBatchSize - 1)).length = 2)
  have split := (take_append_drop (historyMaxBatchSize - 1) (window equalDates.rows 0 1)).symm
  rw [isEnd] at split
  have kept := complete.whole.kept _ lastLog [behind] split (by
    rw [length_take, length]
    decide) behind mem_cons_self
  have zero (row : LogPO) (mem : row ∈ [lastLog, behind]) : row.date = 0 :=
    dates row (mem_window.mp (mem_of_mem_drop (isEnd ▸ mem))).1
  rw [keepsAsking, zero lastLog (by simp), zero behind (by simp)] at kept
  cases kept

end

/-! # Whether a dump strategy is set as a whole

An error leaves all values as they were. But a period without a unit ends in a panic behind its statement, and what was
written until then is committed. A commit that fails is only logged, and the caller is told of a success.
-/

open List Function DumpRequest

variable {request : DumpRequest} {config written : DumpField → String}

/-- The caller is told of a success and every value is the new one, or is not and every value is the old one. -/
def AllOrNothing (request : DumpRequest) (config : DumpField → String) : Prop :=
  (request.setDumpStrategy config).1 = .success ∧
      (∀ entry ∈ request.req, entry.1.text entry.2 = some ((request.setDumpStrategy config).2 entry.1)) ∨
    (request.setDumpStrategy config).1 ≠ .success ∧ (request.setDumpStrategy config).2 = config

namespace DumpRequest

section

variable (request : DumpRequest) (config : DumpField → String) (entry : DumpField × Json)

/-- The statement for an entry is executed: its value has the right type, and the database does not refuse it. -/
def Executes : Prop :=
  entry.1.text entry.2 ≠ none ∧ request.fails (.set entry.1) = none

/-- The loop panics at an entry: its value has the wrong type, or it is a period that has been written, and the map
has no text for its unit. -/
def Panics : Prop :=
  entry.1.text entry.2 = none ∨ request.fails (.set entry.1) = none ∧ entry.1 = .retentionPeriod ∧
    (request.req.lookup .retentionPeriodUnit).bind DumpField.retentionPeriodUnit.text = none

/-- The loop goes on behind an entry. -/
def Passes : Prop := request.Executes entry ∧ ¬ request.Panics entry

/-- The value of the entry is not the stored one. -/
def Changes : Prop :=
  ∃ text, entry.1.text entry.2 = some text ∧ text ≠ config entry.1

/-- The loop panics when an entry that changes something has been written, and the transaction is committed; or the loop
comes to its end with such an entry, and the transaction is not committed. -/
def BreaksOff : Prop := request.fails .begin = none ∧
  (request.fails .commit = none ∧ (∃ front entry back, request.req = front ++ entry :: back ∧
      (∀ earlier ∈ front, request.Passes earlier) ∧ request.Panics entry ∧
      ∃ changed ∈ front ++ [entry], Changes config changed) ∨
    request.fails .commit ≠ none ∧ (∀ entry ∈ request.req, request.Passes entry) ∧
      ∃ changed ∈ request.req, Changes config changed)

/-- The values when some entries have been written. -/
def store (entries : List (DumpField × Json)) : DumpField → String :=
  entries.foldl (fun config entry => (entry.1.text entry.2).elim config (update config entry.1)) config

end

section

variable {entries front back : List (DumpField × Json)} {entry : DumpField × Json}

private theorem store_of_not_mem {field : DumpField} (other : field ∉ entries.map Prod.fst) :
    store config entries field = config field := by
  induction entries generalizing config with
  | nil => rfl
  | cons entry rest ih =>
    obtain ⟨notFirst, notRest⟩ := not_or.mp (mem_cons.not.mp other)
    refine (ih notRest).trans ?_
    cases isText : entry.1.text entry.2 <;> simp [isText, notFirst]

private theorem store_of_mem (distinct : (entries.map Prod.fst).Nodup) (mem : entry ∈ entries) :
    store config entries entry.1 = (entry.1.text entry.2).getD (config entry.1) := by
  induction entries generalizing config with
  | nil => cases mem
  | cons first rest ih =>
    obtain ⟨apart, restDistinct⟩ := nodup_cons.mp distinct
    rcases mem_cons.mp mem with rfl | later
    · refine (store_of_not_mem apart).trans ?_
      cases isText : entry.1.text entry.2 <;> simp [isText]
    · have other : entry.1 ≠ first.1 := ne_of_mem_of_not_mem (mem_map_of_mem later) apart
      refine (ih restDistinct later).trans (congrArg _ ?_)
      cases isText : first.1.text first.2 <;> simp [isText, other]

private theorem store_ne_iff (distinct : (entries.map Prod.fst).Nodup) :
    store config entries ≠ config ↔ ∃ changed ∈ entries, Changes config changed := by
  constructor
  · intro differs
    obtain ⟨field, differs⟩ := ne_iff.mp differs
    have named : field ∈ entries.map Prod.fst := not_imp_comm.mp store_of_not_mem differs
    obtain ⟨entry, mem, rfl⟩ := mem_map.mp named
    rw [store_of_mem distinct mem] at differs
    cases isText : entry.1.text entry.2 with
    | none => simp [isText] at differs
    | some text => exact ⟨entry, mem, text, isText, by simpa [isText] using differs⟩
  · rintro ⟨entry, mem, text, isText, differs⟩ same
    have written : store config entries entry.1 = _ := store_of_mem distinct mem
    rw [isText, same] at written
    exact differs written.symm

private theorem setFields_append (pass : ∀ entry ∈ front, request.Passes entry) :
    request.setFields (front ++ back) config = request.setFields back (store config front) := by
  induction front generalizing config with
  | nil => rfl
  | cons entry rest ih =>
    obtain ⟨⟨⟨isText, works⟩, calm⟩, later⟩ := forall_mem_cons.mp pass
    obtain ⟨text, isText⟩ := Option.ne_none_iff_exists'.mp isText
    have goesOn : ¬ (entry.1 = .retentionPeriod ∧ (request.req.lookup .retentionPeriodUnit).bind
        DumpField.retentionPeriodUnit.text = none) := fun stops => calm (.inr ⟨works, stops⟩)
    rw [cons_append, setFields, store, foldl_cons]
    simp only [isText, works, if_neg goesOn]
    exact ih later

private theorem setFields_of_panics (panics : request.Panics entry) :
    request.setFields (entry :: back) config = (.panicked, store config [entry]) := by
  rw [setFields]
  cases isText : entry.1.text entry.2 with
  | none => simp [store, isText]
  | some text =>
    obtain ⟨works, stops⟩ := panics.resolve_left (by simp [isText])
    simp only [isText, works, if_pos stops, store, foldl_cons, foldl_nil, Option.elim]

private theorem setFields_of_fails (calm : ¬ request.Panics entry) (fails : ¬ request.Executes entry) :
    ∃ err, request.setFields (entry :: back) config = (.failed err, config) := by
  obtain ⟨isText, -⟩ := not_or.mp calm
  obtain ⟨err, refused⟩ := Option.ne_none_iff_exists'.mp fun works => fails ⟨isText, works⟩
  obtain ⟨text, isText⟩ := Option.ne_none_iff_exists'.mp isText
  exact ⟨err, by rw [setFields]; simp only [isText, refused]⟩

private theorem setFields_panicked (split : request.req = front ++ entry :: back)
    (pass : ∀ earlier ∈ front, request.Passes earlier) (panics : request.Panics entry) :
    request.setFields request.req config = (.panicked, store config (front ++ [entry])) ∧
      ((front ++ [entry]).map Prod.fst).Nodup := by
  refine ⟨?_, ?_⟩
  · rw [split, setFields_append pass, setFields_of_panics panics, store, store, store, foldl_append]
  · refine Nodup.sublist (Sublist.map _ ?_) request.distinct
    rw [split]
    simp

private theorem setFields_ended (pass : ∀ entry ∈ request.req, request.Passes entry) :
    request.setFields request.req config = (.success, store config request.req) := by
  rw [← append_nil request.req, setFields_append pass, append_nil]
  rfl

/-- Every entry passes, or there is a first one that does not. -/
private theorem pass_or_stops (request : DumpRequest) : (∀ entry ∈ request.req, request.Passes entry) ∨
    ∃ front entry back, request.req = front ++ entry :: back ∧ (∀ earlier ∈ front, request.Passes earlier) ∧
      ¬ request.Passes entry := by
  classical
  cases found : request.req.find? fun entry => decide (¬ request.Passes entry) with
  | none => exact .inl (by simpa using found)
  | some entry =>
    obtain ⟨stops, front, back, split, pass⟩ := find?_eq_some_iff_append.mp found
    exact .inr ⟨front, entry, back, split, by simpa using pass, of_decide_eq_true stops⟩

end

end DumpRequest

/-- A strategy is set as a whole, or not at all, exactly if no other values are committed in a panic or lost with the
commit. -/
theorem dump_strategy_whole_iff (request : DumpRequest) (config : DumpField → String) :
    AllOrNothing request config ↔ ¬ request.BreaksOff config := by
  constructor
  · rintro whole ⟨begun, ⟨committed, front, entry, back, split, pass, panics, changes⟩ | ⟨uncommitted, pass, changes⟩⟩
    · obtain ⟨ran, distinct⟩ : request.setFields request.req config = _ ∧ _ := setFields_panicked split pass panics
      simp only [AllOrNothing, setDumpStrategy, begun, ran, committed] at whole
      exact (store_ne_iff distinct).mpr changes (by simpa using whole)
    · simp only [AllOrNothing, setDumpStrategy, begun, setFields_ended pass,
        Option.isSome_iff_ne_none.mpr uncommitted] at whole
      obtain ⟨entry, mem, text, isText, differs⟩ := changes
      have kept := (whole.resolve_right (by simp)).2 entry mem
      exact differs (Option.some.inj (isText.symm.trans kept))
  · intro unbroken
    unfold AllOrNothing setDumpStrategy
    cases begun : request.fails .begin with
    | some err => simp
    | none =>
      rcases request.pass_or_stops with pass | ⟨front, entry, back, split, pass, stops⟩
      · simp only [setFields_ended pass]
        refine .inl ⟨trivial, fun entry mem => ?_⟩
        obtain ⟨text, isText⟩ := Option.ne_none_iff_exists'.mp (pass entry mem).1.1
        cases committed : request.fails .commit with
        | none => simp [store_of_mem request.distinct mem, isText]
        | some err =>
          have same : text = config entry.1 := by
            by_contra differs
            exact unbroken ⟨begun, .inr ⟨by simp [committed], pass, entry, mem, text, isText, differs⟩⟩
          simp [isText, same]
      · by_cases panics : request.Panics entry
        · obtain ⟨ran, distinct⟩ : request.setFields request.req config = _ ∧ _ := setFields_panicked split pass panics
          simp only [ran]
          refine .inr ⟨by simp, ?_⟩
          cases committed : request.fails .commit with
          | some err => rfl
          | none =>
            by_contra differs
            exact unbroken ⟨begun, .inl ⟨committed, front, entry, back, split, pass, panics,
              (store_ne_iff distinct).mp differs⟩⟩
        · have refused : ¬ request.Executes entry := fun executes => stops ⟨executes, panics⟩
          obtain ⟨err, ran⟩ : ∃ err, request.setFields (entry :: back) (store config front) = (.failed err, _) :=
            setFields_of_fails panics refused
          simp [split, setFields_append pass, ran]

namespace Sample

/-- A period of three, without a unit. -/
def periodOnly : DumpRequest := ⟨[(.retentionPeriod, .num 3)], nodup_singleton _, fun _ => none⟩

end Sample

/-- The request ends in a panic, and the period is stored. -/
theorem period_stored_in_panic : (Sample.periodOnly.setDumpStrategy fun _ => "1").1 = .panicked ∧
    (Sample.periodOnly.setDumpStrategy fun _ => "1").2 .retentionPeriod = "3" := by
  decide +kernel

end SecurityFabric.Auditlog
