import SecurityFabric.ToMathlib.GoMap
import SecurityFabric.Model.Json

/-! # Data of the authorization service

The records the policy store and the policy calculation exchange, with the fields those functions read or write. A row
of `t_policy` is a `PolicyInfo` whose rules are already decoded. `Services` collects what the modelled functions ask of
others; the condition evaluator and the sort are arbitrary, up to what their callers may rely on.
-/

namespace SecurityFabric.Authorization

/-- Kinds of visitor a token can belong to. -/
inductive VisitorType where
  | realName
  | anonymous
  | app
deriving DecidableEq, Repr

/-- Kinds of accessor a policy can name. -/
inductive AccessorType where
  | user
  | department
  | contactor
  | anonymous
  | group
  | app
  | groupInternal
  | role
deriving DecidableEq, Repr

/-- Built-in roles kept by user management. -/
inductive SystemRoleType where
  | superAdmin
  | systemAdmin
  | auditAdmin
  | securityAdmin
  | organizationAdmin
  | organizationAudit
  | normalUser
deriving DecidableEq, Repr

/-- Where an operation of a resource type applies. -/
inductive OperationScopeType where
  | scopeType
  | scopeInstance
deriving DecidableEq, Repr

/-- The optional part a policy calculation can be asked for. -/
inductive PolicCalcyIncludeType where
  | operationObligations
deriving DecidableEq, Repr

/-- Error classes of the modelled functions; `internal` covers failed calls and failed queries. -/
inductive ErrorCode where
  | publicBadRequest
  | publicForbidden
  | roleNotFound
  | internal
deriving DecidableEq, Repr

/-- An error with its message and, for missing roles, the ids it lists. -/
structure ServiceError where
  code : ErrorCode
  description : String
  ids : List String := []
deriving DecidableEq, Repr

structure Ancestor where
  (id type name : String)
deriving DecidableEq, Repr

structure PolicyObligationItem where
  (typeID id : String)
  value : Json
deriving Repr

structure PolicyOperationItem where
  id : String
  name : String := ""
  obligations : List PolicyObligationItem := []
deriving Repr

/-- One condition and the operations it guards. -/
structure PolicyRuleItem where
  condition : Json := .null
  operations : List PolicyOperationItem
deriving Repr

structure PolicyRules where
  (allow deny : List PolicyRuleItem)
deriving Repr

/-- A policy as requested, and as stored: `endTime = -1` never expires. -/
structure PolicyInfo where
  id : String := ""
  (resourceID resourceType : String)
  resourceName : String := ""
  ancestors : List Ancestor := []
  hasAncestors : Bool := false
  accessorID : String
  accessorType : AccessorType
  accessorName : String := ""
  rules : PolicyRules
  condition : String := ""
  endTime : Int
  createTime : Int := 0
  modifyTime : Int := 0
deriving Repr

structure PolicyDeleteResourceInfo where
  (id type : String)
deriving DecidableEq, Repr

structure CreatedByInfo where
  id : String := ""
deriving DecidableEq, Repr

/-- A resource to be judged; ancestors are listed from the root to the parent. -/
structure ResourceInfo where
  (id type : String)
  name : String := ""
  ancestors : List Ancestor := []
  createdBy : CreatedByInfo := {}
deriving DecidableEq, Repr

structure AccessorInfo where
  id : String
  type : VisitorType
deriving DecidableEq, Repr

/-- The caller of a management request, with the language its errors are written in. -/
structure Visitor where
  id : String := ""
  type : VisitorType
  language : String := ""
deriving DecidableEq, Repr

structure CheckResult where
  result : Bool
  operatrionOblist : GoMap String (List PolicyObligationItem)

structure ResourceTypeOperation where
  id : String
  scope : List OperationScopeType
deriving DecidableEq, Repr

structure ResourceType where
  id : String
  operation : List ResourceTypeOperation
deriving DecidableEq, Repr

/-- A resource type and, below it, the types of the resources it can contain. -/
inductive ResourceTypeHierarchy where
  | node (resourceTypeID : String) (children : List ResourceTypeHierarchy)
deriving Repr

structure RoleInfo where
  (id name : String)
deriving DecidableEq, Repr

/-- A row of `t_role_member`. -/
structure RoleMember where
  (roleID memberID : String)
deriving DecidableEq, Repr

structure ObligationInfo where
  (id typeID : String)
  value : Json
deriving Repr

/-- An obligation with the priority of the accessor it was configured for; lower wins. -/
structure PolicyObligationCalcItem extends PolicyObligationItem where
  priority : Nat
deriving Repr

/-- `sort.Slice` by priority: some ordered rearrangement, the order of equal elements being open. -/
structure PrioritySort where
  slice : List PolicyObligationCalcItem → List PolicyObligationCalcItem
  perm : ∀ items, (slice items).Perm items
  sorted : ∀ items, (slice items).Pairwise (fun x y => x.priority ≤ y.priority)

/-- The other tables and services that the policy store and the policy calculation call. -/
structure Services where
  /-- The ids a user acts under: the user, departments and groups. -/
  getAccessorIDsByUserID : String → Except ServiceError (List String)
  getUserRolesByUserID : String → Except ServiceError (List SystemRoleType)
  getNameByAccessorIDs : GoMap String AccessorType → Except ServiceError (GoMap String String)
  roles : List RoleInfo
  roleMembers : List RoleMember
  resourceTypes : List ResourceType
  resourceTypeHierarchys : GoMap String ResourceTypeHierarchy
  obligationGetByIDSInternal : List String → Except ServiceError (List ObligationInfo)
  /-- `jsonlogic.ApplyInterface` on a condition and its data. -/
  applyInterface : Json → Json → Except String Json
  /-- The text of the missing-role error in a language. -/
  accessorRoleNotFound : String → String
  sort : PrioritySort

/-- The id under which every user, department and organization is addressed. -/
def rootDepID : String := "00000000-0000-0000-0000-000000000000"

/-- A condition is empty when it is nil or a map without entries. -/
def isConditionEmpty : Json → Bool
  | .null => true
  | .obj [] => true
  | _ => false

@[simp] theorem isConditionEmpty_null : isConditionEmpty .null = true := rfl

/-! # The policy table and its queries

`t_policy` as the list of its rows in insertion order, with the statements of `dbaccess`. No key keeps policy ids or
resource keys unique. Writing a row encodes its rules and reading decodes them again; `PolicyRules.stored` is that round
trip. The queries of the policy calculation do not select ancestors and drop expired rows. A query with an empty `in ()`
list is a syntax error; failures of the connection are left out.
-/

open GoMap

variable (table : PolicyTable) (now : Int)

/-- The rows of `t_policy`, oldest first. -/
abbrev PolicyTable := List PolicyInfo

/-- Rows are not expired at their end time, only after it; `-1` never expires. -/
def PolicyInfo.expired (policy : PolicyInfo) : Bool := policy.endTime != -1 && decide (policy.endTime < now)

/-- The key under which a batch may name a policy only once. -/
def PolicyInfo.key (policy : PolicyInfo) : String × String × String :=
  (policy.resourceType, policy.resourceID, policy.accessorID)

/-- Run a query whose `in` list must not be empty. -/
def whereIn {α : Type} (ids : List String) (rows : α) : Except ServiceError α :=
  if ids = [] then .error { code := .internal, description := "SQL syntax error" } else .ok rows

/-- The columns the calculation queries select; `f_ancestors` is not among them. -/
def PolicyInfo.selected (policy : PolicyInfo) : PolicyInfo := { policy with ancestors := [], hasAncestors := false }

/-- Policies of one type held by the tokens. -/
def getPoliciesByResourceTypeAndAccessToken (resourceTypeID : String) (accessToken : List String) :
    Except ServiceError (List PolicyInfo) :=
  whereIn accessToken <| ((table.filter fun policy => policy.resourceType = resourceTypeID ∧
    policy.accessorID ∈ accessToken).filter
      fun policy => !policy.expired now).map PolicyInfo.selected

/-- Policies of the given resources and of `*`, all of the first resource's type. -/
def getPoliciesByResourcesAndAccessToken (resourceInfo : List ResourceInfo)
    (accessToken : List String) : Except ServiceError (List PolicyInfo) :=
  match resourceInfo with
  | [] => .ok []
  | first :: _ =>
    let resourceIDMap := collect ("*" :: resourceInfo.map (·.id))
    whereIn accessToken <| ((table.filter fun policy => policy.resourceID ∈ resourceIDMap ∧
      policy.resourceType = first.type ∧
          policy.accessorID ∈ accessToken).filter
        fun policy => !policy.expired now).map PolicyInfo.selected

/-- An operation as it reads back: its display name is not stored. -/
def PolicyOperationItem.stored (operation : PolicyOperationItem) : PolicyOperationItem := { operation with name := "" }

/-- A rule as it reads back: a nil condition becomes the empty map. -/
def PolicyRuleItem.stored (rule : PolicyRuleItem) : PolicyRuleItem where
  condition := match rule.condition with
    | .null => .obj []
    | condition => condition
  operations := rule.operations.map PolicyOperationItem.stored

/-- Rules as they read back after `rulesInfoToString`, which skips rules without operations. -/
def PolicyRules.stored (rules : PolicyRules) : PolicyRules where
  allow := (rules.allow.filter fun rule => !rule.operations.isEmpty).map PolicyRuleItem.stored
  deny := (rules.deny.filter fun rule => !rule.operations.isEmpty).map PolicyRuleItem.stored

namespace PolicyTable

/-- Insert new rows. -/
def create (policys : List PolicyInfo) : PolicyTable :=
  table ++ policys.map fun policy =>
    { policy with rules := policy.rules.stored, hasAncestors := false, createTime := now, modifyTime := now }

/-- Overwrite operation, end time and condition of every row with the policy's id. -/
def updateOne (policy : PolicyInfo) : PolicyTable :=
  table.map fun row =>
    if row.id = policy.id then
      { row with
        rules := policy.rules.stored, endTime := policy.endTime, condition := policy.condition,
        modifyTime := now }
    else row

/-- Apply the updates one after another. -/
def update (policys : List PolicyInfo) : PolicyTable :=
  policys.foldl (fun table policy => updateOne table now policy) table

def delete (ids : List String) : PolicyTable := table.filter fun row => row.id ∉ ids

/-- The rows of the given resources of one type, by resource id. -/
def getByResourceIDs (resourceType : String) (resourceIDs : List String) :
    Except ServiceError (GoMap String (List PolicyInfo)) :=
  whereIn resourceIDs <| groupBy (·.resourceID) <| table.filter fun row => row.resourceID ∈ resourceIDs ∧
    row.resourceType = resourceType

/-- The rows with the given ids, by id; of two rows with one id the later is kept. -/
def getByPolicyIDs (policyIDs : List String) : GoMap String PolicyInfo :=
  assign (·.id) id (table.filter fun row => row.id ∈ policyIDs) ∅

def deleteByResourceIDs (resources : List PolicyDeleteResourceInfo) : PolicyTable :=
  table.filter fun row => (⟨row.resourceID, row.resourceType⟩ : PolicyDeleteResourceInfo) ∉ resources

def deleteByAccessorIDs (accessorIDs : List String) : PolicyTable :=
  table.filter fun row => row.accessorID ∉ accessorIDs

def updateAccessorName (accessorID name : String) : PolicyTable :=
  table.map fun row => if row.accessorID = accessorID then { row with accessorName := name } else row

def updateResourceName (resourceID resourceType name : String) : PolicyTable :=
  table.map fun row =>
    if row.resourceID = resourceID ∧ row.resourceType = resourceType then { row with resourceName := name }
    else row

def updateResourceAncestors (resourceID resourceType : String) (ancestors : List Ancestor) : PolicyTable :=
  table.map fun row =>
    if row.resourceID = resourceID ∧ row.resourceType = resourceType then { row with ancestors }
    else row

/-- Drop the rows that expired before `curTime`. -/
def deleteByEndTime (curTime : Int) : PolicyTable := table.filter fun row => !row.expired curTime

end PolicyTable

/-! # The text of a policy's rules

A row keeps the rules of a policy as a JSON text, which the writer puts together by hand from untyped maps. There are
two readers, for managing policies and for judging requests; both take the text apart with unchecked type assertions. A
failed one is a panic, here an error of its own. The JSON libraries lose nothing, so that the text is the value it
stands for.
-/

/-- Why a text is not read: it is no object, or a value in it is not of the type asserted. -/
inductive ReadError where
  | unmarshal
  | typeAssertion
deriving Repr, DecidableEq

namespace Json

/-- `v.([]any)`. -/
def assertArray : Json → Except ReadError (List Json)
  | .arr items => .ok items
  | _ => .error .typeAssertion

/-- `v.(map[string]any)`. -/
def assertMap : Json → Except ReadError (List (String × Json))
  | .obj fields => .ok fields
  | _ => .error .typeAssertion

/-- `v.(string)`. -/
def assertString : Json → Except ReadError String
  | .str value => .ok value
  | _ => .error .typeAssertion

/-- `m[key]`, which is nil for a key that is missing. -/
def index (fields : List (String × Json)) (key : String) : Json := (fields.lookup key).getD .null

end Json

def makeObligations (obligations : List PolicyObligationItem) : Json :=
  .arr (obligations.map fun v => .obj [("type_id", .str v.typeID), ("id", .str v.id), ("value", v.value)])

def makeConditionItem (item : PolicyRuleItem) : Json := .obj
    [("condition", match item.condition with
      | .null => .obj []
      | condition => condition),
    ("operations", .arr (item.operations.map fun op =>
      .obj [("id", .str op.id), ("obligations", makeObligations op.obligations)]))]

/-- The rules of one side. Those without operations are skipped. -/
def sideToJson (rules : List PolicyRuleItem) : Json :=
  .arr ((rules.filter fun item => !item.operations.isEmpty).map makeConditionItem)

def rulesInfoToString (rulesInfo : PolicyRules) : Json :=
  .obj [("allow", sideToJson rulesInfo.allow), ("deny", sideToJson rulesInfo.deny)]

/-- One of the obligations of an operation. -/
def parseObligation (v : Json) : Except ReadError PolicyObligationItem := do
  let obligationMap ← Json.assertMap v
  let typeID ← Json.assertString (Json.index obligationMap "type_id")
  let id ← Json.assertString (Json.index obligationMap "id")
  return { typeID, id, value := Json.index obligationMap "value" }

def getObligations (obligationsJson : Json) : Except ReadError (List PolicyObligationItem) := do
  let obligations ← Json.assertArray obligationsJson
  obligations.mapM parseObligation

/-- One of the operations of a rule. Old rows have no obligations. -/
def parseOperation (opV : Json) : Except ReadError PolicyOperationItem := do
  let opMap ← Json.assertMap opV
  let id ← Json.assertString (Json.index opMap "id")
  match opMap.lookup "obligations" with
  | some obl => return { id, obligations := ← getObligations obl }
  | none => return { id }

def parseConditionItem (v : Json) : Except ReadError PolicyRuleItem := do
  let item ← Json.assertMap v
  let opsList ← Json.assertArray (Json.index item "operations")
  let operations ← opsList.mapM parseOperation
  let condition := match Json.index item "condition" with
    | .null => .obj []
    | condition => condition
  return { condition, operations }

/-- `policy.rulesStrToInfo`. -/
def rulesStrToInfo : Json → Except ReadError PolicyRules
  | .obj jsonReq => do
    let allowJson ← Json.assertArray (Json.index jsonReq "allow")
    let denyJson ← Json.assertArray (Json.index jsonReq "deny")
    let allow ← allowJson.mapM parseConditionItem
    let deny ← denyJson.mapM parseConditionItem
    return { allow, deny }
  | _ => .error .unmarshal

/-- `policyCalc.rulesStrToInfo`, which has copies of the other reader and of what it calls. -/
def calcRulesStrToInfo : Json → Except ReadError PolicyRules := rulesStrToInfo

end SecurityFabric.Authorization
