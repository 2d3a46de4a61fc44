import SecurityFabric.ToMathlib.SqlWhere
import Mathlib.Data.Rat.Floor
import SecurityFabric.Model.Json
import SecurityFabric.ToMathlib.Replace

/-! # Log tables and report fields

Three log tables of the same columns, one for each type of log, and a table of the files into which old logs were moved.
A report names a field without the `f_` of its column. The check of a request lets the empty name through, so it is a
field here too. The type of the user is never read, and is left out.
-/

namespace SecurityFabric.Auditlog

open SqlText

inductive LogType where
  | other
  | login
  | management
  | operation
deriving DecidableEq, Repr

/-- `LogTypeMap`. -/
def LogType.code : LogType → Int
  | other => 0
  | login => 10
  | management => 11
  | operation => 12

def allLogType : List LogType := [.login, .management, .operation]

/-- The names of fields, and those of the columns that only the service itself asks for. -/
inductive Field where
  | unnamed
  | logID
  | date
  | level
  | mac
  | ip
  | userName
  | userPaths
  | opType
  | msg
  | exMsg
  | id
  | name
  | size
  | dumpDate
  | operation
  | type
  | userID
deriving DecidableEq, Repr

def Field.text : Field → String
  | unnamed => ""
  | logID => "log_id"
  | date => "date"
  | level => "level"
  | mac => "mac"
  | ip => "ip"
  | userName => "user_name"
  | userPaths => "user_paths"
  | opType => "op_type"
  | msg => "msg"
  | exMsg => "exmsg"
  | id => "id"
  | name => "name"
  | size => "size"
  | dumpDate => "dump_date"
  | operation => "operation"
  | type => "type"
  | userID => "user_id"

def Field.column (field : Field) : List Char := "f_".toList ++ field.text.toList

/-- A row of a log table. -/
structure LogPO where
  logID : Int64
  (userID userName objID : String)
  (level opType : Int)
  date : Int64
  (ip mac msg exMsg userAgent additionalInfo userPaths objName : String)
  objType : Int
deriving DecidableEq, Repr

/-- A row of `t_history_log_info`. -/
structure HistoryPO where
  (id name : String)
  size : Int
  type : LogType
  (date dumpDate : Int)
  ossID : String
deriving DecidableEq, Repr

def LogPO.cells (log : LogPO) : List (List Char × Cell) :=
  [("f_log_id".toList, .int log.logID.toInt), ("f_user_id".toList, .text log.userID.toList),
    ("f_user_name".toList, .text log.userName.toList), ("f_obj_id".toList, .text log.objID.toList),
    ("f_level".toList, .int log.level), ("f_op_type".toList, .int log.opType), ("f_date".toList, .int log.date.toInt),
    ("f_ip".toList, .text log.ip.toList), ("f_mac".toList, .text log.mac.toList),
    ("f_msg".toList, .text log.msg.toList),
    ("f_exmsg".toList, .text log.exMsg.toList), ("f_user_agent".toList, .text log.userAgent.toList),
    ("f_additional_info".toList, .text log.additionalInfo.toList), ("f_user_paths".toList, .text log.userPaths.toList),
    ("f_obj_name".toList, .text log.objName.toList), ("f_obj_type".toList, .int log.objType)]

def HistoryPO.cells (file : HistoryPO) : List (List Char × Cell) :=
  [("f_id".toList, .text file.id.toList), ("f_name".toList, .text file.name.toList), ("f_size".toList, .int file.size),
    ("f_type".toList, .int file.type.code), ("f_date".toList, .int file.date),
    ("f_dump_date".toList, .int file.dumpDate),
    ("f_oss_id".toList, .text file.ossID.toList)]

/-- The table whose rows hold these cells. -/
def tableOf {Row : Type} (columns : List String) (cells : Row → List (List Char × Cell)) : Table Row where
  columns := columns.map String.toList
  cell row column := ((cells row).lookup column).getD (.text [])

def logTable : Table LogPO :=
  tableOf ["f_log_id", "f_user_id", "f_user_name", "f_obj_id", "f_level", "f_op_type", "f_date",
    "f_ip", "f_mac", "f_msg",
    "f_exmsg", "f_user_agent", "f_additional_info", "f_user_paths", "f_obj_name", "f_obj_type"] LogPO.cells

def historyTable : Table HistoryPO :=
  tableOf ["f_id", "f_name", "f_size", "f_type", "f_date", "f_dump_date", "f_oss_id"] HistoryPO.cells

/-- What `GetAvaliableParams` finds in the description of a report. -/
structure AvailableParam where
  (searchFields orderFields : List Field)

def activeParams : AvailableParam where
  searchFields := [.level, .date, .mac, .ip, .userName, .userPaths, .opType, .msg, .exMsg]
  orderFields := [.level, .date, .mac, .ip, .userName, .userPaths, .opType, .msg, .exMsg]

def historyParams : AvailableParam where
  searchFields := [.name]
  orderFields := [.name, .dumpDate, .size]

/-- Every field that has a name is one of the candidates. -/
def paramsCheck (entry candidates : List Field) : Bool := entry.all fun field => field = .unnamed ∨ field ∈ candidates

/-! # The conditions of a report as the end of a query

The end of a query is made from a template in which marks in brackets are replaced one after the other: conditions on
fields, lists of values a field has to be in or not, and the order. Whether a condition is the first one is found out by
looking for the word before it. The order in which Go ranges over a map is a parameter, and so is how `%v` prints a
number.
-/

/-- A value of a condition: a number of the service's own, or one decoded from a request. -/
inductive Value where
  | int (value : Int)
  | json (value : Json)

/-- `strings.ToUpper`, as far as it gives letters of the keywords, which two letters beyond ASCII have as capitals too.
-/
def toUpper (text : String) : List Char :=
  text.toList.map fun letter => if letter = 'ı' then 'I' else if letter = 'ſ' then 'S' else letter.toUpper

structure OrderField where
  field : Field
  direction : String
deriving DecidableEq, Repr

inductive BuildError where
  /-- A value does not have the shape that the code asserts. -/
  | panic
  /-- `Atoi` failed. -/
  | number
deriving DecidableEq, Repr

/-- The order in which a map with some entries is gone through. -/
structure MapOrder where
  range : {ε : Type} → List ε → List ε
  perm : ∀ {ε : Type} (entries : List ε), (range entries).Perm entries

/-- A sign, or none, and decimal digits. -/
def numeral : List Char → Option Int
  | '-' :: digits => (natural digits).map fun value => -(value : Int)
  | '+' :: digits => (natural digits).map Int.ofNat
  | digits => (natural digits).map Int.ofNat
where
  natural (digits : List Char) : Option Nat :=
    if digits ≠ [] ∧ digits.all Char.isDigit then some (Nat.ofDigitChars 10 digits 0) else none

/-- Whether a number fits into 64 bits. -/
def isInt64 (value : Int) : Bool := -2 ^ 63 ≤ value && value < 2 ^ 63

/-- `strconv.Atoi`. -/
def atoi (text : List Char) : Option Int := (numeral text).filter isInt64

/-- The part of a number before its decimal point. -/
def truncated (value : ℚ) : Int := if 0 ≤ value then ⌊value⌋ else ⌈value⌉

/-- `int(value)`, which is the least integer for what does not fit. -/
def goInt (value : ℚ) : Int := if isInt64 (truncated value) then truncated value else -2 ^ 63

section Print

variable (format : ℚ → List Char)

mutual
/-- `%v` of a decoded value. -/
def sprint : Json → List Char
  | .null => "<nil>".toList
  | .bool value => (toString value).toList
  | .num value => format value
  | .str value => value.toList
  | .arr items => "[".toList ++ sprintItems items ++ "]".toList
  | .obj fields => "map[".toList ++ sprintFields fields ++ "]".toList

def sprintItems : List Json → List Char
  | [] => []
  | [item] => sprint item
  | item :: next :: items => sprint item ++ " ".toList ++ sprintItems (next :: items)

def sprintFields : List (String × Json) → List Char
  | [] => []
  | [(key, value)] => key.toList ++ ":".toList ++ sprint value
  | (key, value) :: next :: fields => key.toList ++ ":".toList ++ sprint value ++ " ".toList ++
      sprintFields (next :: fields)
end

def Value.sprint : Value → List Char
  | .int value => printed value
  | .json value => Auditlog.sprint format value

end Print

/-- A closed interval. -/
def betweenDates (column : List Char) (left right : Int) : List Char :=
  "(".toList ++ column ++ " BETWEEN ".toList ++ printed left ++ " AND ".toList ++ printed right ++ ")".toList

/-- An interval without its right end. -/
def rangeDates (column : List Char) (left right : Int) : List Char :=
  "(".toList ++ column ++ " >= ".toList ++ printed left ++ " AND ".toList ++ " ".toList ++ column ++ " < ".toList ++
    printed right ++ ")".toList

def equalNumber (field : Field) (value : Int) : List Char := field.column ++ " = ".toList ++ printed value

section Where

variable (format : ℚ → List Char) (dates : List Char → Int → Int → List Char)

/-- The condition of an entry; none for a log id that is not positive. -/
def entryCondition (field : Field) (value : Value) : Except BuildError (Option (List Char)) :=
  if field = .date then match value with
    | .json (.arr (.num left :: .num right :: _)) => .ok (some (dates field.column (goInt left) (goInt right)))
    | _ => .error .panic
  else if field = .logID then match value with
    | .int value => .ok (if value > 0 then some (field.column ++ " <= ".toList ++ printed value) else none)
    | .json _ => .error .panic
  else if field ∈ [.level, .opType, .logID] then match value with
    | .int value => .ok (some (equalNumber field value))
    | .json (.str text) => match atoi text.toList with
      | some value => .ok (some (equalNumber field value))
      | none => .error .number
    | .json _ => .ok (some (equalNumber field 0))
  else if field ∈ [.userName, .mac, .ip, .userPaths] then
    .ok (some (field.column ++ " = ".toList ++ "'".toList ++ value.sprint format ++ "'".toList))
  else .ok (some (field.column ++ " LIKE ".toList ++ "'%".toList ++ value.sprint format ++ "%'".toList))

/-- Replaces a mark by a condition, behind the word that the text asks for. -/
def addClause (mark condition sqlStr : List Char) : List Char :=
  if "WHERE".toList <:+: sqlStr then replaceFirst mark ("AND ".toList ++ condition) sqlStr
  else replaceFirst mark ("WHERE ".toList ++ condition) sqlStr

/-- The two functions that add conditions on fields, which differ in the interval of dates. -/
def addWhere (order : MapOrder) (sqlStr : List Char) (condition : List (Field × Value)) :
    Except BuildError (List Char) :=
  if condition = [] then .ok (replaceFirst "[where]".toList [] sqlStr)
  else do
    let conditions ← (order.range condition).mapM fun entry => entryCondition format dates entry.1 entry.2
    return addClause "[where]".toList (" AND ".toList.intercalate conditions.reduceOption) sqlStr

end Where

def addWhereToSql (format : ℚ → List Char) := addWhere format betweenDates

def addWhereToSql2 (format : ℚ → List Char) := addWhere format rangeDates

/-- Values between quotes. -/
def enumText (operator : List Char) (field : Field) (values : List String) : List Char :=
  field.column ++ operator ++ "('".toList ++ "','".toList.intercalate (values.map String.toList) ++ "')".toList

/-- The two functions that add lists of values, which differ in the mark and the operator. -/
def addEnums (mark operator : List Char) (order : MapOrder) (sqlStr : List Char) (enums : List (Field × List String)) :
    List Char :=
  if enums = [] then replaceFirst mark [] sqlStr
  else
    let filled := (order.range enums).filter fun entry => entry.2.length > 0
    addClause mark (" AND ".toList.intercalate (filled.map fun entry => enumText operator entry.1 entry.2)) sqlStr

def addInToSql := addEnums "[in]".toList " IN ".toList

def addNotInToSql := addEnums "[not_in]".toList " NOT IN ".toList

def addOrderToSql (sqlStr : List Char) (orderBy : List OrderField) : List Char :=
  if orderBy = [] then replaceFirst "[order]".toList [] sqlStr
  else
    let orders := orderBy.map fun item => item.field.column ++ " ".toList ++ toUpper item.direction
    replaceFirst "[order]".toList ("ORDER BY ".toList ++ ",".toList.intercalate orders) sqlStr

def setDefaultSortField (orderBy : List OrderField) (ids : List String) : List OrderField :=
  if orderBy = [] ∧ ids = [] then [⟨.date, "desc"⟩] else orderBy

/-- An entry for a list that is not empty. -/
def enumEntry (field : Field) (values : List String) : List (Field × List String) :=
  if values.length > 0 then [(field, values)] else []

section Build

variable (format : ℚ → List Char) (order : MapOrder)

section

variable (category : LogType) (addWhere : MapOrder → List Char → List (Field × Value) → Except BuildError (List Char))
  (condition : List (Field × Value)) (orderBy : List OrderField)

/-- The two functions for active logs, which differ in the interval of dates. -/
def buildActive (ids inUserIDs exUserIDs : List String) : Except BuildError String := do
  let orderBy := setDefaultSortField orderBy ids
  let sqlStr ← addWhere order "[where] [in] [not_in] [order]".toList condition
  let sqlStr := addInToSql order sqlStr (enumEntry .logID ids ++ enumEntry .userID inUserIDs)
  let sqlStr := addNotInToSql order sqlStr (enumEntry .userID exUserIDs)
  return String.ofList (addOrderToSql sqlStr orderBy)

def buildActiveCondition := buildActive order (addWhereToSql format)

def buildActiveCondition2 := buildActive order (addWhereToSql2 format)

/-- `condition["type"] = ...`. -/
def setType : List (Field × Value) :=
  condition.filter (fun entry => entry.1 ≠ .type) ++ [(.type, .int category.code)]

def buildHistoryCondition (ids : List String) : Except BuildError String := do
  let orderBy := setDefaultSortField orderBy ids
  let sqlStr ← addWhereToSql format order "[where] [in] [order]".toList (setType category condition)
  let sqlStr := addInToSql order sqlStr (enumEntry .id ids)
  return String.ofList (addOrderToSql sqlStr orderBy)

end

end Build

def emptyLog : LogPO where
  logID := 0
  userID := ""
  userName := ""
  objID := ""
  level := 0
  opType := 0
  date := 0
  ip := ""
  mac := ""
  msg := ""
  exMsg := ""
  userAgent := ""
  additionalInfo := ""
  userPaths := ""
  objName := ""
  objType := 0

def emptyFile : HistoryPO where
  id := ""
  name := ""
  size := 0
  type := .other
  date := 0
  dumpDate := 0
  ossID := ""

/-- Maps gone through as they are written down. -/
def MapOrder.listed : MapOrder where
  range entries := entries
  perm _ := .refl _

end SecurityFabric.Auditlog
