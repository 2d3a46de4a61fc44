import SecurityFabric.Model.Auditlog.Condition
import SecurityFabric.ToMathlib.BatchRead
import SecurityFabric.ToMathlib.Float64

/-! # Moving old logs into a file

`dumpLog` reads the logs of a window of time in batches, the largest id first, and writes a line for each into an object
that is uploaded in parts. Then it records the file and removes the logs from the table. Every call may fail, before or
after it has taken effect, and between two calls other handlers insert rows, with increasing ids.

What a row is printed as is a parameter. The loops of the source have no bound; here they stop after a number of rounds,
in a state in which the function still runs.
-/

namespace SecurityFabric.Auditlog

/-! ## Reading and clearing a log table

The three log tables are read and cleared by the same statements. The database refuses a text that is not the end of a
query, a column that is not there and a negative limit. The rows of an answer are scanned one by one; if the connection
breaks, the loop ends as if there were no more.
-/

open SqlText in
/-- The rows of the answer that are read: those asked for by id in the order of the ids, or all as they come. -/
def findByCondition (rows : List LogPO) (offset limit : Int) (condition : String) (ids : List String)
    (breaksOff : Option Nat) : Option (List LogPO) := do
  let ending ← statement condition
  let selected ← ending.run logTable rows
  guard (0 ≤ limit ∧ 0 ≤ offset)
  let scanned := delivered breaksOff (page selected offset.toNat limit.toNat)
  -- of two rows with one id the map keeps the later one
  return if ids.length > 0 then ids.filterMap fun id => scanned.reverse.find? fun log => toString log.logID.toInt = id
    else scanned

/-- `f_log_id <= ? AND f_date < ?`. -/
def isOutdated (logID date : Int) (row : LogPO) : Bool := row.logID.toInt ≤ logID && row.date.toInt < date

/-- The rows that a statement to delete outdated ones removes, some order of the table being gone through. -/
def outdated (storage : MapOrder) (logID date : Int) (limit : Nat) (rows : List LogPO) : List LogPO :=
  (storage.range (rows.filter (isOutdated logID date))).take limit

/-- Why `dumpLog` does not go on. -/
inductive Stop where
  | failed
  | panicked
  /-- It still runs. -/
  | unfinished
deriving DecidableEq, Repr

/-- How a call goes: it is answered, or fails, or its answer is lost after it has taken effect. -/
inductive CallOutcome where
  | answered
  | failed
  | lost
deriving DecidableEq, Repr

/-- An uploaded object: the rows it was written from, and its bytes. -/
structure Archive where
  name : String
  rows : List LogPO
  text : List UInt8

/-- What is done to the object storage and to the tables. -/
inductive Effect where
  | completed (archive : Archive)
  | recorded (file : HistoryPO)
  | removed (row : LogPO)

structure World where
  /-- The log table of the type that is dumped. -/
  rows : List LogPO
  /-- No row has a larger id so far. -/
  lastID : Int
  (calls reads : Nat)
  trace : List Effect

/-- A log table with ids as sonyflake makes them: no two are the same, and the time in their upper bits makes them
large. -/
structure LogTable where
  rows : List LogPO
  lastID : Int
  distinct : (rows.map LogPO.logID).Nodup
  large : ∀ row ∈ rows, 1 < row.logID.toInt
  upTo : ∀ row ∈ rows, row.logID.toInt ≤ lastID
  started : 1 ≤ lastID

/-- The world in which a dump begins. -/
def LogTable.world (table : LogTable) : World := ⟨table.rows, table.lastID, 0, 0, []⟩

/-- What is around a dump: how its calls go, what happens in between, and what it is told. -/
structure Surroundings where
  outcome : Nat → CallOutcome
  /-- The rows that arrive before a call. -/
  inserted : Nat → List LogPO
  /-- After how many rows a read breaks off. -/
  breaksOff : Nat → Option Nat
  /-- `LogInfo2XMLString`. -/
  xmlString : LogType → LogPO → Option (List UInt8)
  /-- `LogInfo2CSVString`. -/
  csvString : LogType → LogPO → Option (List UInt8)
  format : ℚ → List Char
  (maps storage : MapOrder)
  (dumpFormat fileName ossID logPrefix newPrefix accountID objID : String)
  /-- None if the answer has another status. -/
  partSize : Option Int
  (now dumpLogNum : Int)

def historyMaxBatchSize : Nat := 100000

def World.insertRow (world : World) (row : LogPO) : World :=
  if world.lastID < row.logID.toInt then { world with rows := world.rows ++ [row], lastID := row.logID.toInt }
    else world

def World.insert (world : World) (rows : List LogPO) : World := rows.foldl World.insertRow world

abbrev Dumping := EStateM Stop World

variable (env : Surroundings)

/-- The world when the next call is made. -/
def Surroundings.arrive (world : World) : World :=
  { world.insert (env.inserted world.calls) with calls := world.calls + 1 }

/-- A call whose failure is looked at. -/
def ask {α : Type} (effect : World → α × World) : Dumping (Option α) := fun world =>
  let arrived := env.arrive world
  match env.outcome world.calls with
  | .answered => .ok (some (effect arrived).1) (effect arrived).2
  | .failed => .ok none arrived
  | .lost => .ok none (effect arrived).2

/-- What the code has got, or none at an error, upon which it returns. -/
def orFail {α : Type} : Option α → Dumping α
  | some value => pure value
  | none => throw .failed

/-- What the code takes to be there. -/
def orPanic {α : Type} : Option α → Dumping α
  | some value => pure value
  | none => throw .panicked

/-- A call upon whose failure the function returns. -/
def call {α : Type} (effect : World → α × World) : Dumping α := do orFail (← ask env effect)

/-- A call that only asks for something. -/
def query {α : Type} (answer : α) : Dumping α := call env fun world => (answer, world)

def getPeriodsOfLogLimit (maxLogID : Int) (beginLogTime endLogTime : Int64) (maxBatchSize : Nat) :
    Dumping (List LogPO) := do
  let sqlStr ← orFail (buildActiveCondition2 env.format env.maps
    [(.logID, .int maxLogID), (.date, .json (.arr [.num (float64 beginLogTime.toInt),
      .num (float64 endLogTime.toInt)]))]
    [⟨.logID, "desc"⟩] [] [] []).toOption
  let logs ← call env fun world => (findByCondition world.rows 0 maxBatchSize sqlStr [] (env.breaksOff world.reads),
    { world with reads := world.reads + 1 })
  orFail logs

def getLogPrefix : Dumping String := do
  let logPrefix := (← ask env fun world => (env.logPrefix, world)).getD ""
  if logPrefix = "" then query env env.newPrefix else pure logPrefix

/-- An upload under way. -/
structure Upload where
  (sn size : Nat)
  content : List UInt8
  partInfos : List (Nat × List UInt8)
  /-- The rows written so far. -/
  rows : List LogPO

def xmlHead : List UInt8 := "<?xml version=\"1.0\" encoding=\"UTF-8\"?>\n<log>\n".toUTF8.data.toList

def xmlFoot : List UInt8 := "</log>\n".toUTF8.data.toList

def newline : List UInt8 := "\n".toUTF8.data.toList

/-- The parts put together in their order. -/
def Upload.text (upload : Upload) : List UInt8 := upload.partInfos.flatMap Prod.snd

/-- What is asked for is where to send the part, and then it is sent. -/
def uploadBlock (upload : Upload) (data : List UInt8) : Dumping Upload := do
  query env ()
  query env ()
  return { upload with partInfos := upload.partInfos ++ [(upload.sn, data)], size := upload.size + data.length }

def uploadLastBlock (upload : Upload) : Dumping Upload :=
  if upload.content.length > 0 then uploadBlock env upload upload.content else pure upload

def completeUpload (objectName : String) (upload : Upload) : Dumping Unit := do
  query env ()
  call env fun world =>
    ((), { world with trace := world.trace ++ [.completed ⟨objectName, upload.rows, upload.text⟩] })

/-- What a log is written as. -/
def Surroundings.logString (suffix : String) (logType : LogType) (log : LogPO) : Option (List UInt8) :=
  if suffix = "xml" then env.xmlString logType log else env.csvString logType log

/-- The line of a log is put into the current part, which is uploaded if the line does not fit. -/
def writeLog (suffix : String) (logType : LogType) (partSize : Int) (upload : Upload) (log : LogPO) (isLast : Bool) :
    Dumping Upload := do
  let str ← orFail (env.logString suffix logType log)
  let str := str ++ newline ++ (if isLast then xmlFoot else [])
  if ((upload.content.length + str.length : Nat) : Int) > partSize then
    let appendingSize := partSize - upload.content.length
    -- a slice with a negative end
    if appendingSize < 0 then throw .panicked
    else
      let sent ← uploadBlock env upload (upload.content ++ str.take appendingSize.toNat)
      return { sent with sn := sent.sn + 1, content := str.drop appendingSize.toNat, rows := sent.rows ++ [log] }
  else
    return { upload with content := upload.content ++ str, rows := upload.rows ++ [log] }

/-- The logs of a batch; the object is closed behind the last log of a batch that is not full. -/
def writeLogs (suffix : String) (logType : LogType) (partSize : Int) (closes : Bool) :
    List LogPO → Upload → Dumping Upload
  | [], upload => pure upload
  | log :: logs, upload => do
    let written ← writeLog env suffix logType partSize upload log (closes && logs.isEmpty)
    writeLogs suffix logType partSize closes logs written

/-- The batches, each of which tells where the next one begins. -/
def dumpBatches (suffix : String) (logType : LogType) (partSize : Int) (beginLogTime : Int64) :
    Nat → List LogPO → Upload → Dumping Upload
  | 0, _, _ => throw .unfinished
  | rounds + 1, logs, upload => do
    let written ← writeLogs env suffix logType partSize (suffix = "xml" && logs.length ≠
      historyMaxBatchSize) logs upload
    if logs.length ≠ historyMaxBatchSize then return written
    else
      let lastLog ← orPanic logs.getLast?
      let next ← getPeriodsOfLogLimit env (lastLog.logID.toInt - 1) beginLogTime lastLog.date historyMaxBatchSize
      dumpBatches suffix logType partSize beginLogTime rounds next written

def clearLoop (logID date : Int) (batchSize : Nat) : Nat → Dumping Unit
  | 0 => throw .unfinished
  | rounds + 1 => do
    let affected ← call env fun world =>
      let removed := outdated env.storage logID date batchSize world.rows
      (removed.length, { world with
        rows := world.rows.filter (· ∉ removed), trace := world.trace ++ removed.map Effect.removed })
    if affected < batchSize then return () else clearLoop logID date batchSize rounds

def clearOutdatedLog (logID date batchSize : Int) (rounds : Nat) : Dumping Unit :=
  clearLoop env logID date (if batchSize ≤ 0 then 50000 else batchSize).toNat rounds

/-- Behind the first read, which found some logs. -/
def dumpFound (rounds : Nat) (logType : LogType) (suffix : String) (beginLogTime endLogTime : Int64) (logs : List LogPO)
    (endLogID : Int) : Dumping Unit := do
  let ossID ← query env env.ossID
  let logPrefix ← getLogPrefix env
  let objectName := if logPrefix ≠ "" then logPrefix ++ "/" ++ env.accountID ++ "/" ++ env.objID
    else env.accountID ++ "/" ++ env.objID
  -- a missing answer is dereferenced, and a buffer cannot grow by a negative number
  let partSize ← orPanic ((← query env env.partSize).filter (0 ≤ ·))
  let upload : Upload := ⟨1, 0, if suffix = "xml" then xmlHead else [], [], []⟩
  let upload ← dumpBatches env suffix logType partSize beginLogTime rounds logs upload
  let upload ← uploadLastBlock env upload
  completeUpload env objectName upload
  let historyInfo : HistoryPO := { id := env.accountID ++ "/" ++ env.objID, name := env.fileName, size := upload.size,
                                   type := logType, date := beginLogTime.toInt, dumpDate := env.now, ossID := ossID }
  call env fun world => ((), { world with trace := world.trace ++ [.recorded historyInfo] })
  clearOutdatedLog env endLogID endLogTime.toInt env.dumpLogNum rounds

def dumpLog (rounds : Nat) (logType : LogType) (beginLogTime endLogTime : Int64) : Dumping Unit := do
  let suffix := (← ask env fun world => (env.dumpFormat, world)).getD "csv"
  let logs ← getPeriodsOfLogLimit env (-1) beginLogTime endLogTime historyMaxBatchSize
  match logs with
  | [] => return ()
  | newest :: _ => dumpFound env rounds logType suffix beginLogTime endLogTime logs newest.logID.toInt

/-! # Setting when and how logs are moved into files

`SetDumpStrategy` goes through a map of the named fields and their values and writes them in one transaction, which a
deferred function ends. The rows of all fields exist from the migration on.
-/

inductive DumpField where
  | retentionPeriod | retentionPeriodUnit | dumpTime | dumpFormat
deriving DecidableEq, Repr

/-- What the statement for a field stores, if the value has the type that is asserted. -/
def DumpField.text : DumpField → Json → Option String
  | .retentionPeriod, .num period => some (toString (goInt period))
  | .retentionPeriod, _ => none
  | _, .str text => some text
  | _, _ => none

inductive DumpStep where
  | begin | set (field : DumpField) | commit
deriving DecidableEq, Repr

/-- The map as it is gone through, and the errors of what fails. -/
structure DumpRequest where
  req : List (DumpField × Json)
  distinct : (req.map Prod.fst).Nodup
  fails : DumpStep → Option String

inductive DumpReply where
  | success
  | failed (err : String)
  | panicked
deriving DecidableEq, Repr

namespace DumpRequest

variable (request : DumpRequest)

/-- The loop. A period is printed with its unit to be logged, so the unit is taken to be there. -/
def setFields : List (DumpField × Json) → (DumpField → String) → DumpReply × (DumpField → String)
  | [], written => (.success, written)
  | (field, value) :: rest, written =>
    match field.text value, request.fails (.set field) with
    | none, _ => (.panicked, written)
    | _, some err => (.failed err, written)
    | some text, none =>
      if field = .retentionPeriod ∧ (request.req.lookup .retentionPeriodUnit).bind DumpField.retentionPeriodUnit.text =
        none then (.panicked, Function.update written field text)
      else setFields rest (Function.update written field text)

/-- The deferred function commits unless an error is set, which neither a panic nor its own failure does. -/
def setDumpStrategy (config : DumpField → String) : DumpReply × (DumpField → String) :=
  match request.fails .begin, request.setFields request.req config with
  | some err, _ | none, (.failed err, _) => (.failed err, config)
  | none, (reply, written) => (reply, if (request.fails .commit).isSome then config else written)

end DumpRequest

end SecurityFabric.Auditlog
