import SecurityFabric.Model.Auditlog.DumpLog
import SecurityFabric.Proofs.Auditlog.QueryText
import SecurityFabric.ToMathlib.Guarantees
import SecurityFabric.ToMathlib.GoMap

/-! # What a read of a period returns

The query of a batch asks for the rows of a period, up to an id if it is positive, the largest id first. Its text has no
value between quotes, so it is read as it was meant. The times are rounded on their way into the text.
-/

namespace SecurityFabric.Auditlog

section

open SqlText List

/-- The number that a time becomes in a query. -/
def timeBound (time : Int64) : Int := goInt (float64 time.toInt)

private theorem goInt_intCast (value : Int) : goInt value = if isInt64 value then value else -2 ^ 63 := by
  have whole : truncated (value : ℚ) = value := by
    rw [truncated]
    split_ifs
    · exact Int.floor_intCast value
    · exact Int.ceil_intCast value
  rw [goInt, whole]

private theorem isInt64_iff {value : Int} : isInt64 value = true ↔ -2 ^ 63 ≤ value ∧ value < 2 ^ 63 := by
  simp [isInt64]

theorem timeBound_eq {time : Int64} (few : time.toInt.natAbs ≤ 2 ^ 53) : timeBound time = time.toInt := by
  have fits : isInt64 time.toInt = true := isInt64_iff.mpr ⟨Int64.le_toInt time, Int64.toInt_lt time⟩
  rw [timeBound, float64_eq_self (held_of_natAbs_le few), goInt_intCast, if_pos fits]

private theorem timeBound_le {first second : Int64} (before : first.toInt < timeBound second) :
    timeBound first ≤ timeBound second := by
  have low : -2 ^ 63 ≤ first.toInt := Int64.le_toInt first
  have lowest : Held (-2 ^ 63) := ⟨1, 63, by decide, by decide⟩
  rw [timeBound, timeBound, goInt_intCast, goInt_intCast] at *
  by_cases fits : isInt64 (float64 second.toInt) = true
  · rw [if_pos fits] at before ⊢
    have upTo : float64 first.toInt ≤ float64 second.toInt := float64_le (held_float64 _) before.le
    have fitsToo : isInt64 (float64 first.toInt) = true :=
      isInt64_iff.mpr ⟨le_float64 lowest low, upTo.trans_lt (isInt64_iff.mp fits).2⟩
    rwa [if_pos fitsToo]
  · rw [if_neg fits] at before
    omega

/-- The rows that a query asks for. -/
def inPeriod (maxLogID low high : Int) (row : LogPO) : Bool :=
  decide ((0 < maxLogID → row.logID.toInt ≤ maxLogID) ∧ low ≤ row.date.toInt ∧ row.date.toInt < high)

/-- The largest id first. -/
def newestFirst (rows : List LogPO) : List LogPO :=
  rows.insertionSort fun first second => second.logID.toInt ≤ first.logID.toInt

theorem perm_newestFirst (rows : List LogPO) : (newestFirst rows).Perm rows := perm_insertionSort _ rows

/-- Rows with distinct ids are sorted strictly. -/
theorem pairwise_newestFirst {rows : List LogPO} (distinct : (rows.map LogPO.logID).Nodup) :
    (newestFirst rows).Pairwise fun first second => second.logID.toInt < first.logID.toInt := by
  have sorted : (newestFirst rows).Pairwise fun first second => second.logID.toInt ≤ first.logID.toInt := by
    exact pairwise_insertionSort _ rows
  have apart :=
    pairwise_map.mp (((perm_newestFirst rows).map _).nodup_iff.mpr distinct)
  refine (sorted.and apart).imp fun {first second} both => lt_of_le_of_ne both.1 fun same => both.2 ?_
  exact Int64.toInt_inj.mp same.symm

/-- The conditions of a batch, as far as they are written. -/
def periodPiece (entry : Field × Value) : Option Piece :=
  match entry with
  | (.logID, .int maxLogID) => if maxLogID > 0 then some (.atMost .logID maxLogID) else none
  | (.date, .json (.arr [.num left, .num right])) => some (.range .date (goInt left) (goInt right))
  | _ => none

section Text

variable (format : ℚ → List Char) (maps : MapOrder) (maxLogID : Int) (left right : ℚ)

private theorem entryCondition_period :
    ∀ entry ∈ [(Field.logID, Value.int maxLogID), (.date, .json (.arr [.num left, .num right]))],
    entryCondition format rangeDates entry.1 entry.2 = .ok ((periodPiece entry).map Piece.text) := by
  rw [forall_mem_cons, forall_mem_singleton]
  refine ⟨?_, rfl⟩
  change Except.ok (if maxLogID > 0 then some _ else none) =
    Except.ok (Option.map _ (if maxLogID > 0 then some _ else none))
  split_ifs <;> rfl

/-- The conditions of a batch in the order in which they are written. -/
def periodPieces : List Piece :=
  (maps.range [(.logID, .int maxLogID), (.date, .json (.arr [.num left, .num right]))]).filterMap periodPiece

private theorem mem_periodPieces (piece : Piece) : piece ∈ periodPieces maps maxLogID left right ↔
    0 < maxLogID ∧ piece = .atMost .logID maxLogID ∨ piece = .range .date (goInt left) (goInt right) := by
  rw [periodPieces, mem_filterMap]
  simp only [(maps.perm _).mem_iff, mem_cons, exists_eq_or_imp]
  refine or_congr ?_ ?_
  · rw [periodPiece]
    split_ifs with positive
    · simp [positive, eq_comm]
    · simp [positive]
  · simp [periodPiece, eq_comm]

private theorem addWhere_period (sqlStr : List Char) :
    addWhere format rangeDates maps sqlStr [(.logID, .int maxLogID), (.date, .json (.arr [.num left, .num right]))] =
      .ok (replaceFirst "[where]".toList ((clauseSlot "[where]".toList (periodPieces maps maxLogID left right)).text
        sqlStr) sqlStr) := by
  have filled : periodPieces maps maxLogID left right ≠ [] :=
    ne_nil_of_mem ((mem_periodPieces maps maxLogID left right _).mpr (.inr rfl))
  refine addWhere_of_mapM format maps (cons_ne_nil _ _) (mapM_ok_map fun entry mem =>
    entryCondition_period format maxLogID left right entry ((maps.perm _).mem_iff.mp mem)) ?_ filled sqlStr
  change filterMap id _ = _
  rw [filterMap_map, periodPieces, map_filterMap]
  rfl

/-- The end of a query for a batch. -/
def periodEnding : Ending := ⟨(periodPieces maps maxLogID left right).map Piece.predicate, [⟨Field.logID.column, true⟩]⟩

/-- The text of a query for a batch is read as it was meant. -/
theorem statement_period :
    ∃ text, buildActiveCondition2 format maps [(.logID, .int maxLogID), (.date, .json (.arr [.num left, .num right]))]
        [⟨.logID, "desc"⟩] [] [] [] = .ok text ∧ statement text = some (periodEnding maps maxLogID left right) := by
  refine ⟨_, buildActive_of_where format maps (addWhere_period format maps maxLogID left right) _ [] [] [], ?_⟩
  have unquoted : ∀ piece ∈ periodPieces maps maxLogID left right,
      piece.quoted = [] ∧ piece.Filled ∧ piece.predicateBy unescaped = piece.predicate ∧ piece.predicate.Proper := by
    intro piece mem
    rcases (mem_periodPieces maps maxLogID left right piece).mp mem with ⟨-, rfl⟩ | rfl
    · exact ⟨rfl, trivial, rfl, trivial⟩
    · exact ⟨rfl, trivial, rfl, trivial⟩
  unfold periodEnding
  generalize periodPieces maps maxLogID left right = pieces at unquoted ⊢
  have nothing : maps.range ([] : List (Field × List String)) = [] := (range_eq_nil maps).mpr rfl
  have groups : activeGroups maps pieces [] [] [] = [("[where]".toList, pieces), ("[in]".toList, []),
      ("[not_in]".toList, [])] := by
    simp [activeGroups, enumEntry, included, excluded, nothing]
  have only : ∀ group ∈ activeGroups maps pieces [] [] [], ∀ piece ∈ group.2, piece ∈ pieces := by
    rw [groups]
    simp
  have read := @tokens_madeFrom [⟨.logID, "desc"⟩] (activeGroups maps pieces [] [] []) (.refl _)
    (fun group isGroup piece mem => (unquoted piece (only group isGroup piece mem)).2.1) (by decide) (by
      intro group isGroup piece mem value isValue
      rw [(unquoted piece (only group isGroup piece mem)).1] at isValue
      cases isValue) (by
      rw [groups]
      refine ⟨fun mark _ value isValue => ?_, by simp, by simp, trivial⟩
      obtain ⟨piece, mem, isQuoted⟩ := mem_flatMap.mp isValue
      rw [(unquoted piece mem).1] at isQuoted
      cases isQuoted)
  have meant : ((activeGroups maps pieces [] [] []).flatMap Prod.snd).map (Piece.predicateBy unescaped) =
      pieces.map Piece.predicate := by
    rw [groups]
    simpa using fun piece mem => (unquoted piece mem).2.2.1
  rw [meant] at read
  rw [statement]
  simp only [String.toList_ofList]
  change (tokens (madeFrom _ [⟨.logID, "desc"⟩])).bind _ = _
  rw [read]
  refine readEnding_tokens fun condition mem => ?_
  obtain ⟨piece, isPiece, rfl⟩ := mem_map.mp mem
  exact (unquoted piece isPiece).2.2.2

private theorem selects_periodEnding (row : LogPO) :
    (periodEnding maps maxLogID left right).selects logTable row = inPeriod maxLogID (goInt left)
    (goInt right) row := by
  rw [Bool.eq_iff_iff, Ending.selects, all_eq_true, inPeriod, decide_eq_true_eq]
  change (∀ condition ∈ (periodPieces maps maxLogID left right).map Piece.predicate, _) ↔ _
  have ofID : (Piece.atMost .logID maxLogID).predicate.holds (logTable.cell row) = true ↔
    row.logID.toInt ≤ maxLogID := decide_eq_true_iff
  have ofDate : (Piece.range .date (goInt left) (goInt right)).predicate.holds (logTable.cell row) = true ↔
      goInt left ≤ row.date.toInt ∧ row.date.toInt < goInt right := by
    change (decide (goInt left ≤ row.date.toInt) && decide (row.date.toInt < goInt right)) = true ↔ _
    rw [Bool.and_eq_true, decide_eq_true_iff, decide_eq_true_iff]
  rw [forall_mem_map, ← ofID, ← ofDate]
  constructor
  · intro all
    exact ⟨fun positive => all _ ((mem_periodPieces _ _ _ _ _).mpr (.inl ⟨positive, rfl⟩)),
      all _ ((mem_periodPieces _ _ _ _ _).mpr (.inr rfl))⟩
  · rintro ⟨upTo, within⟩ piece mem
    rcases (mem_periodPieces _ _ _ _ _).mp mem with ⟨positive, rfl⟩ | rfl
    · exact upTo positive
    · exact within

/-- The rows of the period are returned, the largest id first. -/
theorem run_periodEnding (rows : List LogPO) : (periodEnding maps maxLogID left right).run logTable rows =
    some (newestFirst (rows.filter (inPeriod maxLogID (goInt left) (goInt right)))) := by
  have columns : ∀ condition ∈ (periodEnding maps maxLogID left right).conditions,
      condition.column ∈ logTable.columns := by
    change ∀ condition ∈ (periodPieces maps maxLogID left right).map Piece.predicate, _
    rw [forall_mem_map]
    intro piece mem
    rcases (mem_periodPieces _ _ _ _ _).mp mem with ⟨-, rfl⟩ | rfl
    · change Field.logID.column ∈ logTable.columns
      decide
    · change Field.date.column ∈ logTable.columns
      decide
  have ordered : ∀ item ∈ (periodEnding maps maxLogID left right).order, item.column ∈ logTable.columns := by
    change ∀ item ∈ [(⟨Field.logID.column, true⟩ : OrderItem)], _
    decide
  rw [Ending.run, if_pos ⟨columns, ordered⟩, newestFirst]
  have selected : rows.filter ((periodEnding maps maxLogID left right).selects logTable) =
      rows.filter (inPeriod maxLogID (goInt left) (goInt right)) :=
    filter_congr fun row _ => selects_periodEnding maps maxLogID left right row
  have sortedBy : (fun first second : LogPO =>
      precedes (logTable.cell first) (logTable.cell second) (periodEnding maps maxLogID left right).order = true) =
      fun first second => second.logID.toInt ≤ first.logID.toInt := by
    funext first second
    change ((decide (second.logID.toInt ≤ first.logID.toInt) &&
      (!decide (first.logID.toInt ≤ second.logID.toInt) || true)) = true) = _
    simp
  congr!

private theorem findByCondition_period (rows : List LogPO) (limit : Nat) (breaksOff : Option Nat) {text : String}
    (isText : statement text = some (periodEnding maps maxLogID left right)) :
    findByCondition rows 0 limit text [] breaksOff =
      some (delivered breaksOff ((newestFirst (rows.filter (inPeriod maxLogID (goInt left) (goInt right)))).take
        limit)) := by
  rw [findByCondition, isText]
  change ((periodEnding maps maxLogID left right).run logTable rows).bind _ = _
  rw [run_periodEnding]
  simp [page]

end Text

end

/-! # What each part of a dump guarantees

While a dump reads, the table only grows, by rows with larger ids than at the first read. So what is written are the
rows that a cursor reads in that table. Behind the upload only rows are removed that are outdated with respect to the
first id that was read, and if nothing fails, all of them.

The guarantees say what holds if the dump is stopped, and that it is not if everything is `possible`: every call is
answered and there are rounds enough.
-/

open List

variable {env : Surroundings} {possible : Prop} (answers : possible → ∀ call, env.outcome call = .answered)
  {safe : List Effect → Prop} {before : World → Prop} {last : Int}
variable {storage : MapOrder} {table rows : List LogPO} {suffix : String} {rounds limit reads : Nat}
  {trace : List Effect}
  {logType : LogType} {partSize : Int} (distinct : (rows.map LogPO.logID).Nodup)
  (positive : ∀ row ∈ rows, 1 < row.logID.toInt) (upTo : ∀ row ∈ rows, row.logID.toInt ≤ last)

/-- Rows with larger ids were added. -/
structure Grown (rows : List LogPO) (last : Int) (world : World) : Prop where
  added : ∃ new, world.rows = rows ++ new ∧ ∀ row ∈ new, last < row.logID.toInt
  last_le : last ≤ world.lastID

variable {world : World}

private theorem Grown.insertRow (grown : Grown rows last world) (row : LogPO) :
    Grown rows last (world.insertRow row) := by
  obtain ⟨⟨new, isRows, larger⟩, upTo⟩ := grown
  rw [World.insertRow]
  split_ifs with isLarger
  · refine ⟨⟨new ++ [row], ?_, ?_⟩, by dsimp only; omega⟩
    · rw [isRows, append_assoc]
    · rw [forall_mem_append, forall_mem_singleton]
      exact ⟨larger, by omega⟩
  · exact ⟨⟨new, isRows, larger⟩, upTo⟩

private theorem insertRow_eq (world : World) (row : LogPO) :
    (world.insertRow row).calls = world.calls ∧ (world.insertRow row).reads = world.reads ∧
    (world.insertRow row).trace = world.trace := by
  rw [World.insertRow]
  split_ifs <;> exact ⟨rfl, rfl, rfl⟩

private theorem Grown.insert (grown : Grown rows last world) (arriving : List LogPO) :
    Grown rows last (world.insert arriving) := by
  induction arriving generalizing world with
  | nil => exact grown
  | cons row arriving ih => exact ih (grown.insertRow row)

private theorem insert_eq (world : World) (arriving : List LogPO) :
    (world.insert arriving).calls = world.calls ∧ (world.insert arriving).reads = world.reads ∧
      (world.insert arriving).trace = world.trace := by
  induction arriving generalizing world with
  | nil => exact ⟨rfl, rfl, rfl⟩
  | cons row arriving ih =>
    obtain ⟨calls, reads, trace⟩ := insertRow_eq world row
    obtain ⟨callsLater, readsLater, traceLater⟩ := ih (world.insertRow row)
    exact ⟨callsLater.trans calls, readsLater.trans reads, traceLater.trans trace⟩

/-- The table has grown, so many reads were made, and this was done. -/
structure Stage (rows : List LogPO) (last : Int) (reads : Nat) (trace : List Effect) (world : World) : Prop where
  grown : Grown rows last world
  reads_eq : world.reads = reads
  trace_eq : world.trace = trace

private theorem Stage.arrive (stage : Stage rows last reads trace world) (env : Surroundings) :
    Stage rows last reads trace (env.arrive world) := by
  obtain ⟨-, sameReads, sameTrace⟩ := insert_eq world (env.inserted world.calls)
  have grown := stage.grown.insert (env.inserted world.calls)
  exact ⟨⟨grown.added, grown.last_le⟩, sameReads.trans stage.reads_eq, sameTrace.trans stage.trace_eq⟩

section Calls

variable {α : Type} {effect : World → α × World}

/-- What is done is safe, and not everything was possible. -/
def Halted (possible : Prop) (safe : List Effect → Prop) (world : World) : Prop := safe world.trace ∧ ¬ possible

include answers

private theorem guarantees_ask {after : Option α → World → Prop} {stopped : World → Prop}
    (effects : ∀ world, before world → after (some (effect (env.arrive world)).1) (effect (env.arrive world)).2)
    (failing : ∀ world, before world → ¬ possible → after none (env.arrive world) ∧
      after none (effect (env.arrive world)).2) :
    Guarantees before (ask env effect) after stopped := by
  intro world holds
  cases goes : env.outcome world.calls with
  | answered =>
    simp only [EStateM.run, ask, goes]
    exact effects world holds
  | failed =>
    simp only [EStateM.run, ask, goes]
    refine (failing world holds fun isPossible => ?_).1
    cases goes.symm.trans (answers isPossible _)
  | lost =>
    simp only [EStateM.run, ask, goes]
    refine (failing world holds fun isPossible => ?_).2
    cases goes.symm.trans (answers isPossible _)

private theorem guarantees_call {after : α → World → Prop}
    (effects : ∀ world, before world → after (effect (env.arrive world)).1 (effect (env.arrive world)).2)
    (failing : ∀ world, before world → safe (env.arrive world).trace ∧ safe (effect (env.arrive world)).2.trace) :
    Guarantees before (call env effect) after (Halted possible safe) := by
  refine (?_ : Guarantees _ _ (fun answer world => answer.elim (Halted possible safe world) fun value =>
    after value world) _).bind
    fun answer => ?_
  · refine guarantees_ask answers effects fun world holds impossible => ?_
    exact ⟨⟨(failing world holds).1, impossible⟩, ⟨(failing world holds).2, impossible⟩⟩
  cases answer with
  | none => exact .throw fun _ => id
  | some value => exact .pure fun _ => id

variable (isSafe : safe trace)

include isSafe

private theorem guarantees_query (answer : α) :
    Guarantees (Stage rows last reads trace) (query env answer)
    (fun value world => value = answer ∧ Stage rows last reads trace world)
      (Halted possible safe) := by
  refine guarantees_call answers (fun world stage => ⟨rfl, stage.arrive env⟩) fun world stage => ?_
  have arrived := (stage.arrive env).trace_eq
  exact ⟨arrived ▸ isSafe, arrived ▸ isSafe⟩

private theorem guarantees_getLogPrefix :
    Guarantees (Stage rows last reads trace) (getLogPrefix env) (fun _ => Stage rows last reads trace)
    (Halted possible safe) := by
  refine (?_ : Guarantees _ _ (fun _ => Stage rows last reads trace) _).bind fun answer => ?_
  · exact guarantees_ask answers (fun world stage => stage.arrive env) fun world stage _ =>
      ⟨stage.arrive env, stage.arrive env⟩
  dsimp only
  split_ifs
  · exact (guarantees_query answers isSafe _).imp (fun _ => id) (fun _ _ both => both.2) fun _ => id
  · exact .pure fun _ => id

private theorem guarantees_uploadBlock (upload : Upload) (data : List UInt8) :
    Guarantees (Stage rows last reads trace) (uploadBlock env upload data)
      (fun sent world => sent = { upload with
          partInfos := upload.partInfos ++ [(upload.sn, data)]
          size := upload.size + data.length } ∧ Stage rows last reads trace world) (Halted possible safe) := by
  refine (guarantees_query answers isSafe ()).bind fun _ => .of_and fun _ => ?_
  refine (guarantees_query answers isSafe ()).bind fun _ => .of_and fun _ => ?_
  exact .pure fun _ stage => ⟨rfl, stage⟩

end Calls

section

variable (env : Surroundings) (suffix : String) (logType : LogType) (upload : Upload) (logs : List LogPO)
  (foot : List UInt8) (written : Upload)

/-- The line of a log. -/
def Surroundings.line (log : LogPO) : List UInt8 :=
  (env.logString suffix logType log).getD [] ++ newline

/-- Every log has a line, which fits into a part. -/
def Surroundings.LinesFit (partSize : Int) : Prop :=
  ∀ log, ∃ str, env.logString suffix logType log = some str ∧ ((str ++ newline ++ xmlFoot).length : Int) ≤ partSize

/-- Rows were written behind what was written before, and what stands in the parts are their lines. -/
structure Wrote : Prop where
  rows : written.rows = upload.rows ++ logs
  text : written.text ++ written.content = upload.text ++ upload.content ++
    logs.flatMap (env.line suffix logType) ++ foot

end

variable {logs : List LogPO} (fits : possible → env.LinesFit suffix logType partSize)

private theorem Wrote.trans {env : Surroundings} {logType : LogType} {upload middle written : Upload}
    {later : List LogPO} {foot : List UInt8}
    (first : Wrote env suffix logType upload logs [] middle)
    (second : Wrote env suffix logType middle later foot written) :
    Wrote env suffix logType upload (logs ++ later) foot written := by
  refine ⟨by rw [second.rows, first.rows, append_assoc], ?_⟩
  rw [second.text, first.text]
  simp

section Lines

variable (isSafe : safe trace)

include answers isSafe fits

private theorem guarantees_writeLog (upload : Upload) (log : LogPO) (isLast : Bool)
    (room : possible → (upload.content.length : Int) ≤ partSize) :
    Guarantees (Stage rows last reads trace) (writeLog env suffix logType partSize upload log isLast)
      (fun written world => (Wrote env suffix logType upload [log] (if isLast then xmlFoot else []) written ∧
        (possible → (written.content.length : Int) ≤ partSize)) ∧
        Stage rows last reads trace world) (Halted possible safe) := by
  rw [writeLog]
  cases isString : env.logString suffix logType log with
  | none =>
    refine .throw fun world stage => ⟨stage.trace_eq ▸ isSafe, fun isPossible => ?_⟩
    obtain ⟨str, isSome, -⟩ := fits isPossible log
    cases isString.symm.trans isSome
  | some str =>
    have line : env.line suffix logType log = str ++ newline := by rw [Surroundings.line, isString, Option.getD_some]
    have short : possible → ((str ++ newline ++ if isLast then xmlFoot else []).length : Int) ≤ partSize := by
      intro isPossible
      obtain ⟨other, isSome, upTo⟩ := fits isPossible log
      obtain rfl := Option.some.inj (isString.symm.trans isSome)
      cases isLast <;> simp at * <;> omega
    rw [orFail, pure_bind]
    dsimp only
    generalize (if isLast = true then xmlFoot else []) = foot at short ⊢
    split_ifs with tooLong panics
    · refine .throw fun world stage => ⟨stage.trace_eq ▸ isSafe, fun isPossible => ?_⟩
      have := room isPossible
      omega
    · refine (guarantees_uploadBlock answers isSafe upload _).bind fun sent => .of_and fun isSent =>
        .pure fun world stage => ?_
      refine ⟨⟨⟨?_, ?_⟩, fun isPossible => ?_⟩, stage⟩
      · rw [isSent]
      · simp only [isSent, Upload.text, flatMap_append, flatMap_singleton, append_assoc, take_append_drop, line]
      · have := short isPossible
        rw [length_drop]
        omega
    · refine .pure fun world stage => ⟨⟨⟨rfl, ?_⟩, fun isPossible => ?_⟩, stage⟩
      · simp only [Upload.text, flatMap_singleton, append_assoc, line]
      · rw [length_append]
        omega

private theorem guarantees_writeLogs (closes : Bool) (logs : List LogPO) (upload : Upload)
    (room : possible → (upload.content.length : Int) ≤ partSize) :
    Guarantees (Stage rows last reads trace) (writeLogs env suffix logType partSize closes logs upload)
      (fun written world => (Wrote env suffix logType upload logs (if closes &&
        !logs.isEmpty then xmlFoot else []) written ∧
        (possible → (written.content.length : Int) ≤ partSize)) ∧
        Stage rows last reads trace world) (Halted possible safe) := by
  induction logs generalizing upload with
  | nil =>
    have nothing : Wrote env suffix logType upload [] [] upload := ⟨by simp, by simp⟩
    exact .pure fun world stage => ⟨⟨by simpa using nothing, room⟩, stage⟩
  | cons log logs ih =>
    refine (guarantees_writeLog answers fits isSafe upload log (closes && logs.isEmpty) room).bind fun written =>
      .of_and fun ⟨first, roomLater⟩ => ?_
    refine (ih written roomLater).imp (fun _ => id) (fun final world => ?_) fun _ => id
    rintro ⟨⟨later, roomAtLast⟩, stage⟩
    refine ⟨⟨?_, roomAtLast⟩, stage⟩
    cases logs with
    | nil =>
      obtain ⟨laterRows, laterText⟩ := later
      simp only [append_nil] at first laterRows laterText
      refine ⟨laterRows.trans first.rows, ?_⟩
      rw [laterText, first.text]
      simp
    | cons next logs =>
      simp only [isEmpty_cons, Bool.and_false] at first
      exact first.trans later

end Lines

section Batches

/-- The rows of a period, the largest id first. -/
def listed (rows : List LogPO) (maxLogID low : Int) (time : Int64) : List LogPO :=
  newestFirst (rows.filter (inPeriod maxLogID low (timeBound time)))

variable {new : List LogPO}

/-- The row is still asked for behind a batch that ended with another one. -/
def keepsAsking (lastLog row : LogPO) : Bool := row.date.toInt < timeBound lastLog.date

include distinct

/-- Behind a full batch the rest of the rows is asked for, as far as their dates are before that of the last one. -/
theorem period_behind {maxLogID low : Int} {time : Int64} {lastLog : LogPO} {size : Nat}
    (isLast : ((listed rows maxLogID low time).take size).getLast? = some lastLog)
    (positive : 1 < lastLog.logID.toInt) (larger : ∀ row ∈ new, lastLog.logID.toInt < row.logID.toInt) :
    listed (rows ++ new) (lastLog.logID.toInt - 1) low lastLog.date =
      ((listed rows maxLogID low time).drop size).filter (keepsAsking lastLog) := by
  unfold listed at isLast ⊢
  have sortedAll := pairwise_newestFirst ((filter_sublist.map LogPO.logID).nodup distinct :
    ((rows.filter (inPeriod maxLogID low (timeBound time))).map LogPO.logID).Nodup)
  have members (row : LogPO) := (perm_newestFirst (rows.filter (inPeriod maxLogID low (timeBound time)))).mem_iff
    (a := row)
  generalize newestFirst (rows.filter (inPeriod maxLogID low (timeBound time))) = listed at *
  obtain ⟨first, isFirst⟩ := getLast?_eq_some_iff.mp isLast
  have split : listed = first ++ lastLog :: listed.drop size := by
    have parts := take_append_drop size listed
    rw [isFirst, append_assoc] at parts
    exact parts.symm
  have sortedParts := sortedAll
  rw [split, pairwise_append, pairwise_cons] at sortedParts
  obtain ⟨-, ⟨smaller, -⟩, above⟩ := sortedParts
  have behind (row : LogPO) : row ∈ listed.drop size ↔ row ∈ listed ∧ row.logID.toInt < lastLog.logID.toInt := by
    refine ⟨fun mem => ⟨mem_of_mem_drop mem, smaller row mem⟩, fun ⟨mem, isSmaller⟩ => ?_⟩
    rw [split] at mem
    rcases mem_append.mp mem with isAbove | isHere
    · have := above row isAbove lastLog mem_cons_self
      omega
    · rcases mem_cons.mp isHere with rfl | isBehind
      · omega
      · exact isBehind
  have lastWithin : (0 < maxLogID → lastLog.logID.toInt ≤ maxLogID) ∧ low ≤ lastLog.date.toInt ∧
      lastLog.date.toInt < timeBound time := by
    have mem : lastLog ∈ listed := by
      rw [split]
      exact mem_append_right _ mem_cons_self
    exact decide_eq_true_iff.mp (mem_filter.mp ((members lastLog).mp mem)).2
  have earlier := timeBound_le lastWithin.2.2
  have noneNew : new.filter (inPeriod (lastLog.logID.toInt - 1) low (timeBound lastLog.date)) = [] := by
    refine filter_eq_nil_iff.mpr fun row isNew isWithin => ?_
    have := larger row isNew
    have := (decide_eq_true_iff.mp isWithin).1 (by omega)
    omega
  rw [filter_append, noneNew, append_nil]
  refine (pairwise_newestFirst ((filter_sublist.map LogPO.logID).nodup distinct)).eq_of_mem_iff
    ((sortedAll.sublist (drop_sublist _ _)).filter _) fun row => ?_
  rw [(perm_newestFirst _).mem_iff, mem_filter, mem_filter, behind, members, mem_filter, inPeriod, inPeriod,
    keepsAsking, decide_eq_true_iff, decide_eq_true_iff, decide_eq_true_iff]
  constructor
  · rintro ⟨isRow, upTo, notBefore, isBefore⟩
    exact ⟨⟨⟨isRow, fun bounded => by have := lastWithin.1 bounded; omega, notBefore, by omega⟩, by omega⟩, isBefore⟩
  · rintro ⟨⟨⟨isRow, -, notBefore, -⟩, isSmaller⟩, isBefore⟩
    exact ⟨isRow, fun _ => by omega, notBefore, isBefore⟩

variable (isSafe : safe [])

omit distinct in
include answers in
/-- A read of a period, whatever is known about the table. -/
theorem guarantees_getPeriodsOfLogLimit {after : List LogPO → World → Prop} (maxLogID : Int)
    (beginLogTime endLogTime : Int64)
    (maxBatchSize : Nat) (reads : ∀ world, before world → after (delivered (env.breaksOff (env.arrive world).reads)
      ((listed (env.arrive world).rows maxLogID (timeBound beginLogTime) endLogTime).take maxBatchSize))
      { env.arrive world with reads := (env.arrive world).reads + 1 })
    (failing : ∀ world, before world → safe (env.arrive world).trace) :
    Guarantees before (getPeriodsOfLogLimit env maxLogID beginLogTime endLogTime maxBatchSize) after
      (Halted possible safe) := by
  obtain ⟨text, built, isText⟩ := statement_period env.format env.maps maxLogID (float64 beginLogTime.toInt)
    (float64 endLogTime.toInt)
  rw [getPeriodsOfLogLimit, built, Except.toOption, orFail, pure_bind]
  refine (?_ : Guarantees _ _ (fun logs world => ∃ found, logs = some found ∧ after found world) _).bind
    fun logs world holds => ?_
  · refine guarantees_call answers (fun world holds => ?_) fun world holds => ⟨failing world holds, failing world holds⟩
    exact ⟨_, findByCondition_period env.maps maxLogID _ _ _ maxBatchSize _ isText, reads world holds⟩
  obtain ⟨found, rfl, holds⟩ := holds
  exact holds

include answers isSafe fits positive upTo

/-- The batches write what a cursor reads. -/
theorem guarantees_dumpBatches (beginLogTime time : Int64) (maxLogID : Int) (rounds k : Nat)
    (logs : List LogPO) (upload : Upload)
    (isLogs : logs = delivered (env.breaksOff k) ((listed rows maxLogID (timeBound beginLogTime) time).take
      historyMaxBatchSize)) (enough : possible → (listed rows maxLogID (timeBound beginLogTime) time).length < rounds)
    (room : possible → (upload.content.length : Int) ≤ partSize) :
    Guarantees (Stage rows last (k + 1) []) (dumpBatches env suffix logType partSize beginLogTime rounds logs upload)
    (fun written world =>
        (∃ read foot, BatchRead keepsAsking historyMaxBatchSize env.breaksOff k
          (listed rows maxLogID (timeBound beginLogTime) time) read ∧
          Wrote env suffix logType upload read foot written) ∧
          ∃ reads, Stage rows last reads [] world) (Halted possible safe) := by
  induction rounds generalizing time maxLogID k logs upload with
  | zero => exact .throw fun world stage => ⟨stage.trace_eq ▸ isSafe, fun isPossible =>
      Nat.not_lt_zero _ (enough isPossible)⟩
  | succ rounds ih =>
    refine (guarantees_writeLogs answers fits isSafe _ logs upload room).bind fun written =>
      .of_and fun ⟨wrote, roomLater⟩ => ?_
    split_ifs with short
    · refine .pure fun world stage => ⟨⟨logs, _, ?_, wrote⟩, _, stage⟩
      rw [isLogs] at short ⊢
      exact .short short
    · have full : logs.length = historyMaxBatchSize := not_not.mp short
      have arrived :=
        delivered_eq_of_length (by rw [← isLogs, full]; exact length_take_le _ _)
      cases isLast : logs.getLast? with
      | none =>
        rw [getLast?_eq_none_iff.mp isLast] at full
        cases full
      | some lastLog =>
        have isLastTaken := isLast
        rw [isLogs, arrived] at isLastTaken
        have isRow : lastLog ∈ rows := by
          have mem := mem_of_mem_take (mem_of_getLast? isLastTaken)
          exact mem_of_mem_filter ((perm_newestFirst _).mem_iff.mp mem)
        have behind {new : List LogPO} (larger : ∀ row ∈ new, last < row.logID.toInt) :=
          period_behind distinct isLastTaken (positive lastLog isRow)
            (fun row isNew => lt_of_le_of_lt (upTo lastLog isRow) (larger row isNew))
        have here := @behind [] (by simp)
        rw [append_nil] at here
        refine (?_ : Guarantees _ _ (fun next world =>
          next = delivered (env.breaksOff (k + 1)) ((listed rows (lastLog.logID.toInt - 1)
          (timeBound beginLogTime) lastLog.date).take historyMaxBatchSize) ∧
            Stage rows last (k + 1 + 1) [] world) _).bind
          fun logs => .of_and fun isNext => ?_
        · refine guarantees_getPeriodsOfLogLimit answers _ _ _ _ (fun world stage => ?_) fun world stage =>
            (stage.arrive env).trace_eq ▸ isSafe
          have arrivedStage := stage.arrive env
          obtain ⟨new, isTable, larger⟩ := arrivedStage.grown.added
          refine ⟨?_, ⟨arrivedStage.grown.added, arrivedStage.grown.last_le⟩, by rw [arrivedStage.reads_eq],
            arrivedStage.trace_eq⟩
          rw [isTable, behind larger, here, arrivedStage.reads_eq]
        refine (ih _ _ _ _ _ isNext (fun isPossible => ?_) roomLater).imp (fun _ => id) (fun final world => ?_) fun _ =>
          id
        · have enoughHere := enough isPossible
          have long := full
          rw [isLogs, arrived, length_take] at long
          have some : 0 < historyMaxBatchSize := by decide
          rw [here]
          refine lt_of_le_of_lt (length_filter_le _ _) ?_
          rw [length_drop]
          omega
        rintro ⟨⟨read, foot, reads, later⟩, stage⟩
        refine ⟨⟨_, foot, .full (isLogs ▸ full) (isLogs ▸ isLast) (here ▸ reads), ?_⟩, stage⟩
        rw [← isLogs]
        refine Wrote.trans ?_ later
        simpa [full] using wrote

end Batches

section Clear

/-- Behind the upload of an archive outdated rows of the table were removed, and rows with larger ids were added. -/
structure Cleared (rows : List LogPO) (last logID date : Int) (done : List Effect) (removed : List LogPO)
    (world : World) : Prop where
  left : ∃ new, world.rows = rows.filter (· ∉ removed) ++ new ∧ ∀ row ∈ new, last < row.logID.toInt
  last_le : last ≤ world.lastID
  were_outdated : ∀ row ∈ removed, row ∈ rows ∧ isOutdated logID date row = true
  trace_eq : world.trace = done ++ removed.map Effect.removed

variable {removed : List LogPO} {logID date : Int} {done : List Effect}

variable (cleared : Cleared rows last logID date done removed world)

include cleared in
private theorem Cleared.arrive (env : Surroundings) : Cleared rows last logID date done removed (env.arrive world) := by
  obtain ⟨-, -, sameTrace⟩ := insert_eq world (env.inserted world.calls)
  have grown : Grown (rows.filter (· ∉ removed)) last world := ⟨cleared.left, cleared.last_le⟩
  have grownLater := grown.insert (env.inserted world.calls)
  exact ⟨grownLater.added, grownLater.last_le, cleared.were_outdated, sameTrace.trans cleared.trace_eq⟩

variable {row : LogPO}

private theorem mem_outdated (mem : row ∈ outdated storage logID date limit table) :
    row ∈ table ∧ isOutdated logID date row = true :=
  mem_filter.mp ((storage.perm _).mem_iff.mp (mem_of_mem_take mem))

private theorem mem_outdated_of_length_lt (fewer : (outdated storage logID date limit table).length < limit)
    (mem : row ∈ table) (isOld : isOutdated logID date row = true) : row ∈ outdated storage logID date limit table := by
  rw [outdated] at fewer ⊢
  rw [length_take] at fewer
  rw [take_of_length_le (by omega)]
  exact (storage.perm _).mem_iff.mpr (mem_filter.mpr ⟨mem, isOld⟩)

include cleared in
private theorem Cleared.mem_iff (within : logID ≤ last)
    (isOld : isOutdated logID date row = true) : row ∈ world.rows ↔ row ∈ rows ∧ row ∉ removed := by
  obtain ⟨new, isTable, larger⟩ := cleared.left
  rw [isTable, mem_append, mem_filter, decide_eq_true_iff]
  refine ⟨fun mem => mem.resolve_right fun isNew => ?_, .inl⟩
  have := larger row isNew
  rw [isOutdated, Bool.and_eq_true, decide_eq_true_iff] at isOld
  omega

include cleared in
/-- A statement removes outdated rows of the first table. -/
theorem Cleared.remove (within : logID ≤ last) (storage : MapOrder) (limit : Nat) :
    Cleared rows last logID date done (removed ++ outdated storage logID date limit world.rows) { world with
      rows := world.rows.filter (· ∉ outdated storage logID date limit world.rows)
      trace := world.trace ++ (outdated storage logID date limit world.rows).map Effect.removed } := by
  have ofTable (row : LogPO) (mem : row ∈ outdated storage logID date limit world.rows) :
      row ∈ rows ∧ isOutdated logID date row = true :=
    ⟨((cleared.mem_iff within (mem_outdated mem).2).mp (mem_outdated mem).1).1, (mem_outdated mem).2⟩
  obtain ⟨new, isTable, larger⟩ := cleared.left
  generalize outdated storage logID date limit world.rows = chosen at *
  refine ⟨⟨new.filter (· ∉ chosen), ?_, fun row isNew => larger row (mem_of_mem_filter isNew)⟩, cleared.last_le,
    forall_mem_append.mpr ⟨cleared.were_outdated, ofTable⟩, ?_⟩
  · rw [isTable]
    simp [Bool.and_comm]
  · rw [cleared.trace_eq, map_append, append_assoc]

variable (within : logID ≤ last) (isSafe : ∀ removed : List LogPO,
  (∀ row ∈ removed, row ∈ rows ∧ isOutdated logID date row = true) →
    safe (done ++ removed.map Effect.removed))

include answers within isSafe

private theorem guarantees_clearLoop (batchSize : Nat) (some : 0 < batchSize) (rounds : Nat) (removed : List LogPO)
    (enough : possible → (rows.filter fun row => isOutdated logID date row && row ∉ removed).length < rounds) :
    Guarantees (Cleared rows last logID date done removed) (clearLoop env logID date batchSize rounds)
      (fun _ world => ∃ removed, Cleared rows last logID date done removed world ∧
        ∀ row ∈ rows, isOutdated logID date row = true → row ∈ removed) (Halted possible safe) := by
  induction rounds generalizing removed with
  | zero =>
    refine .throw fun world cleared => ⟨?_, fun isPossible => Nat.not_lt_zero _ (enough isPossible)⟩
    rw [cleared.trace_eq]
    exact isSafe removed cleared.were_outdated
  | succ rounds ih =>
    refine (?_ : Guarantees _ _ (fun affected world => ∃ chosen, affected = chosen.length ∧
      Cleared rows last logID date done (removed ++ chosen) world ∧
        (∀ row ∈ chosen, row ∈ rows ∧ isOutdated logID date row = true ∧ row ∉ removed) ∧
        (chosen.length < batchSize → ∀ row ∈ rows, isOutdated logID date row = true → row ∈ removed ++ chosen)) _).bind
          fun affected => ?_
    · refine guarantees_call answers (fun world cleared => ?_) fun world cleared => ⟨?_, ?_⟩
      · have arrived := cleared.arrive env
        refine ⟨_, rfl, arrived.remove within env.storage batchSize, fun row mem => ?_, fun fewer row isRow isOld => ?_⟩
        · obtain ⟨isRow, notBefore⟩ := (arrived.mem_iff within (mem_outdated mem).2).mp (mem_outdated mem).1
          exact ⟨isRow, (mem_outdated mem).2, notBefore⟩
        · by_cases before : row ∈ removed
          · exact mem_append_left _ before
          · exact mem_append_right _ (mem_outdated_of_length_lt fewer
              ((arrived.mem_iff within isOld).mpr ⟨isRow, before⟩) isOld)
      · rw [(cleared.arrive env).trace_eq]
        exact isSafe _ cleared.were_outdated
      · have after := (cleared.arrive env).remove within env.storage batchSize
        exact after.trace_eq ▸ isSafe _ after.were_outdated
    split_ifs with fewer
    · refine .pure fun world => ?_
      rintro ⟨chosen, rfl, after, -, all⟩
      exact ⟨_, after, all fewer⟩
    · intro world
      rintro ⟨chosen, rfl, after, ofTable, -⟩
      refine ih (removed ++ chosen) (fun isPossible => ?_) world after
      -- the statement removed at least one row, so there are fewer left
      obtain ⟨row, isChosen⟩ := exists_mem_of_length_pos (lt_of_lt_of_le some (not_lt.mp fewer))
      obtain ⟨isRow, isOld, notBefore⟩ := ofTable row isChosen
      refine Nat.lt_of_lt_of_le (length_filter_lt (fun other _ => ?_) isRow ?_ ?_)
        (Nat.le_of_lt_succ (enough isPossible))
      · simp +contextual
      · simp [isOld, notBefore]
      · simp [isChosen]

end Clear

/-- The rows of a window, the largest id first. -/
def window (rows : List LogPO) (beginLogTime endLogTime : Int64) : List LogPO :=
  newestFirst (rows.filter (inPeriod (-1) (timeBound beginLogTime) (timeBound endLogTime)))

/-- The object is made of the lines of rows that a cursor reads in a window. -/
structure Dumped (env : Surroundings) (rows : List LogPO) (logType : LogType) (beginLogTime endLogTime : Int64)
    (archive : Archive) : Prop where
  reads : BatchRead keepsAsking historyMaxBatchSize env.breaksOff 0 (window rows beginLogTime endLogTime) archive.rows
  text : ∃ suffix head foot, archive.text = head ++ archive.rows.flatMap (env.line suffix logType) ++ foot

section Whole

variable {beginLogTime endLogTime : Int64}

variable (env rows logType beginLogTime endLogTime) in
/-- What may have been done behind a first read that found some row first. -/
inductive Reached (newest : LogPO) : List Effect → Prop where
  | nothing : Reached newest []
  | completed {archive : Archive} (isDumped : Dumped env rows logType beginLogTime endLogTime archive) :
    Reached newest [.completed archive]
  | cleared {archive : Archive} (isDumped : Dumped env rows logType beginLogTime endLogTime archive) (file : HistoryPO)
      {removed : List LogPO}
      (areOld : ∀ row ∈ removed, row ∈ rows ∧ isOutdated newest.logID.toInt endLogTime.toInt row = true) :
      Reached newest ([.completed archive, .recorded file] ++ removed.map Effect.removed)

variable (env rows logType beginLogTime endLogTime) in
/-- Everything was done. -/
def Completed (newest : LogPO) (world : World) : Prop :=
  ∃ (archive : Archive) (file : HistoryPO) (removed : List LogPO),
    Dumped env rows logType beginLogTime endLogTime archive ∧
    world.trace = [.completed archive, .recorded file] ++ removed.map Effect.removed ∧
    (∀ row ∈ removed, row ∈ rows ∧ isOutdated newest.logID.toInt endLogTime.toInt row = true) ∧
    ∀ row ∈ rows, isOutdated newest.logID.toInt endLogTime.toInt row = true → row ∈ removed

variable (env rows logType beginLogTime endLogTime) in
/-- What may have been done when a dump is looked at. -/
def Harmless (trace : List Effect) : Prop :=
  trace = [] ∨ env.breaksOff 0 ≠ some 0 ∧ ∃ newest, (window rows beginLogTime endLogTime).head? = some newest ∧
    Reached env rows logType beginLogTime endLogTime newest trace

include answers distinct positive upTo

private theorem guarantees_dumpFound {newest : LogPO}
    (isLogs : logs = delivered (env.breaksOff 0) ((window rows beginLogTime endLogTime).take historyMaxBatchSize))
    (isNewest : newest ∈ rows)
    (fits : possible → ∃ partSize : Int, env.partSize = some partSize ∧
      ((if suffix = "xml" then xmlHead else []).length : Int) ≤ partSize ∧
      env.LinesFit suffix logType partSize) (enough : possible → rows.length < rounds) :
    Guarantees (Stage rows last 1 [])
    (dumpFound env rounds logType suffix beginLogTime endLogTime logs newest.logID.toInt)
      (fun _ => Completed env rows logType beginLogTime endLogTime newest)
      (Halted possible (Reached env rows logType beginLogTime endLogTime newest)) := by
  refine (guarantees_query answers .nothing _).bind fun ossID => .of_and fun _ => ?_
  refine (guarantees_getLogPrefix answers .nothing).bind fun logPrefix => ?_
  generalize (if logPrefix ≠ "" then _ else _ : String) = objectName
  refine (guarantees_query answers .nothing _).bind fun answer => .of_and fun isAnswer => ?_
  subst isAnswer
  cases isPartSize : env.partSize.filter (0 ≤ ·) with
  | none =>
    refine .throw fun world stage => ⟨stage.trace_eq ▸ .nothing, fun isPossible => ?_⟩
    obtain ⟨partSize, isAnswer, room, -⟩ := fits isPossible
    rw [isAnswer, Option.filter_some, if_pos (decide_eq_true (le_trans (Int.natCast_nonneg _) room))] at isPartSize
    cases isPartSize
  | some partSize =>
    obtain ⟨isAnswer, -⟩ := Option.filter_eq_some_iff.mp isPartSize
    have fits (isPossible : possible) : ((if suffix = "xml" then xmlHead else []).length : Int) ≤ partSize ∧
        env.LinesFit suffix logType partSize := by
      obtain ⟨other, isOther, room⟩ := fits isPossible
      obtain rfl := Option.some.inj (isAnswer.symm.trans isOther)
      exact room
    refine (guarantees_dumpBatches answers distinct positive upTo (fun isPossible =>
      (fits isPossible).2) .nothing beginLogTime
      endLogTime (-1) rounds 0 logs _ isLogs (fun isPossible => ?_) fun isPossible =>
        (fits isPossible).1).bind fun written =>
        .of_and fun ⟨read, foot, reads, wrote⟩ => .of_exists fun readsMade => ?_
    · refine lt_of_le_of_lt ?_ (enough isPossible)
      rw [listed, (perm_newestFirst _).length_eq]
      exact length_filter_le _ _
    have isDumped (upload : Upload) (sameRows : upload.rows = written.rows) (whole : upload.text =
      written.text ++ written.content) :
        Dumped env rows logType beginLogTime endLogTime ⟨objectName, upload.rows, upload.text⟩ := by
      have isRead : upload.rows = read := sameRows.trans wrote.rows
      refine ⟨isRead ▸ reads, suffix, if suffix = "xml" then xmlHead else [], foot, ?_⟩
      rw [whole, wrote.text, isRead]
      rfl
    refine (?_ : Guarantees _ _ (fun upload world => Dumped env rows logType beginLogTime endLogTime
      ⟨objectName, upload.rows, upload.text⟩ ∧
      Stage rows last readsMade [] world) _).bind fun upload => .of_and fun isDumped => ?_
    · rw [uploadLastBlock]
      split_ifs with some
      · refine (guarantees_uploadBlock answers .nothing written written.content).imp (fun _ =>
          id) (fun upload world => ?_) fun _ => id
        rintro ⟨rfl, stage⟩
        exact ⟨isDumped _ rfl (by simp [Upload.text]), stage⟩
      · refine .pure fun world stage => ⟨isDumped written rfl ?_, stage⟩
        have empty : written.content = [] := eq_nil_of_length_eq_zero (by omega)
        rw [empty, append_nil]
    generalize archived : (⟨objectName, upload.rows, upload.text⟩ : Archive) = archive at isDumped
    refine (?_ : Guarantees _ _ (fun _ => Stage rows last readsMade [.completed archive]) _).bind fun _ => ?_
    · refine (guarantees_query answers .nothing ()).bind fun _ => .of_and fun _ => ?_
      refine guarantees_call answers (fun world stage => ?_) fun world stage => ?_
      · have arrived := stage.arrive env
        exact ⟨⟨arrived.grown.added, arrived.grown.last_le⟩, arrived.reads_eq, by rw [arrived.trace_eq, archived]; rfl⟩
      · have arrived := (stage.arrive env).trace_eq
        refine ⟨arrived ▸ .nothing, ?_⟩
        rw [arrived, archived]
        exact .completed isDumped
    generalize HistoryPO.mk _ _ _ _ _ _ _ = file
    refine (?_ : Guarantees _ _ (fun _ =>
      Cleared rows last newest.logID.toInt endLogTime.toInt [.completed archive, .recorded file] []) _).bind fun _ => ?_
    · refine guarantees_call answers (fun world stage => ?_) fun world stage => ?_
      · have arrived := stage.arrive env
        refine ⟨by simpa using arrived.grown.added, arrived.grown.last_le, by simp, ?_⟩
        rw [arrived.trace_eq]
        rfl
      · rw [(stage.arrive env).trace_eq]
        exact ⟨.completed isDumped, @Reached.cleared env rows logType beginLogTime endLogTime newest archive
          isDumped file [] (by simp)⟩
    refine (guarantees_clearLoop answers (upTo newest isNewest) (fun removed areOld => .cleared isDumped file areOld)
      _ ?_ rounds [] fun isPossible => ?_).imp (fun _ => id) (fun _ world => ?_) fun _ => id
    · split_ifs <;> omega
    · exact lt_of_le_of_lt (length_filter_le _ _) (enough isPossible)
    · rintro ⟨removed, cleared, all⟩
      exact ⟨archive, file, removed, isDumped, cleared.trace_eq, cleared.were_outdated, all⟩

/-- A dump, from the table as the first read finds it. -/
theorem guarantees_dumpLog {start : World} (untouched : start.reads = 0 ∧ start.trace = [])
    (isTable : (env.arrive (env.arrive start)).rows = rows) (isLast : (env.arrive (env.arrive start)).lastID = last)
    (fits : possible → ∃ partSize : Int, env.partSize = some partSize ∧ env.dumpFormat = "csv" ∧
      ∀ log, ∃ str, env.csvString logType log = some str ∧ ((str ++ newline ++ xmlFoot).length : Int) ≤ partSize)
    (enough : possible → rows.length < rounds) :
    Guarantees (· = start) (dumpLog env rounds logType beginLogTime endLogTime) (fun _ world => (world.trace = [] ∧
          delivered (env.breaksOff 0) ((window rows beginLogTime endLogTime).take historyMaxBatchSize) = []) ∨
        env.breaksOff 0 ≠ some 0 ∧ ∃ newest, (window rows beginLogTime endLogTime).head? = some newest ∧
          Completed env rows logType beginLogTime endLogTime newest world)
      (Halted possible (Harmless env rows logType beginLogTime endLogTime)) := by
  obtain ⟨noReads, nothingDone⟩ := untouched
  have arrive_eq (world : World) : (env.arrive world).reads = world.reads ∧ (env.arrive world).trace = world.trace :=
    (insert_eq world (env.inserted world.calls)).2
  refine (?_ : Guarantees _ _ (fun answer world => (possible → answer = some env.dumpFormat) ∧
    world = env.arrive start) _).bind
    fun answer => .of_and fun isAnswer => ?_
  · refine guarantees_ask answers (fun world isStart => ⟨fun _ => rfl, by rw [isStart]⟩) fun world isStart impossible =>
      ?_
    exact ⟨⟨fun isPossible => absurd isPossible impossible, by rw [isStart]⟩,
      ⟨fun isPossible => absurd isPossible impossible, by rw [isStart]⟩⟩
  have traceAfter : (env.arrive (env.arrive start)).trace = [] := by
    rw [(arrive_eq _).2, (arrive_eq _).2, nothingDone]
  have readsAfter : (env.arrive (env.arrive start)).reads = 0 := by
    rw [(arrive_eq _).1, (arrive_eq _).1, noReads]
  refine (?_ : Guarantees _ _ (fun logs world =>
      logs = delivered (env.breaksOff 0) ((window rows beginLogTime endLogTime).take historyMaxBatchSize) ∧
        Stage rows last 1 [] world) _).bind fun logs => .of_and fun isLogs => ?_
  · refine guarantees_getPeriodsOfLogLimit answers _ _ _ _ (fun world isArrived => ?_) fun world isArrived => ?_
    · subst isArrived
      rw [readsAfter, isTable]
      exact ⟨rfl, ⟨⟨[], by simp [isTable]⟩, isLast.ge⟩, rfl, traceAfter⟩
    · subst isArrived
      exact .inl traceAfter
  cases logs with
  | nil => exact .pure fun world stage => .inl ⟨stage.trace_eq, isLogs.symm⟩
  | cons newest logs =>
    have isNewest : (window rows beginLogTime endLogTime).head? = some newest := by
      obtain ⟨rest, begins⟩ := (delivered_begins (env.breaksOff 0) _).trans
        ( take_prefix historyMaxBatchSize (window rows beginLogTime endLogTime))
      rw [← begins, ← isLogs]
      rfl
    have begins : env.breaksOff 0 ≠ some 0 := by
      intro nothing
      rw [nothing] at isLogs
      cases isLogs
    have isRow : newest ∈ rows := mem_of_mem_filter ((perm_newestFirst _).mem_iff.mp (mem_of_head? isNewest))
    refine (guarantees_dumpFound answers distinct positive upTo isLogs isRow (fun isPossible => ?_) enough).imp
      (fun _ => id) (fun _ world done => .inr ⟨begins, newest, isNewest, done⟩) fun world halted =>
        ⟨.inr ⟨begins, newest, isNewest, halted.1⟩, halted.2⟩
    obtain ⟨partSize, isPartSize, isCsv, short⟩ := fits isPossible
    rw [isAnswer isPossible, isCsv]
    obtain ⟨str, -, upTo⟩ := short newest
    exact ⟨partSize, isPartSize, le_trans (Int.natCast_nonneg _) upTo, short⟩

end Whole

end SecurityFabric.Auditlog
