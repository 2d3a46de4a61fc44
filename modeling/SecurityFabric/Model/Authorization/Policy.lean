import SecurityFabric.Model.Authorization.PolicyCalc

/-! # Comparing and merging policies

How a requested policy is compared with the stored one of the same key and merged into it. Requests from the interface
carry unconditional rules only and are merged deny first; the stored conditional rules stay. The policies a service
brings along may carry conditions; their rules are merged with the stored rule of the same condition, allow and deny
apart, and nothing removes an operation from one side when the other has it.
-/

namespace SecurityFabric.Authorization

section

open GoMap

/-- The operations of the first unconditional rule. -/
def noConditionOperations (rules : List PolicyRuleItem) : List PolicyOperationItem :=
  ((rules.find? fun rule => isConditionEmpty rule.condition).map (·.operations)).getD []

/-- The unconditional operations of a policy, allowed and denied. -/
def getPolicyNoConditionOperations (policy : PolicyInfo) : List PolicyOperationItem × List PolicyOperationItem :=
  (noConditionOperations policy.rules.allow, noConditionOperations policy.rules.deny)

/-- Obligations are compared position by position; nil equals empty. -/
def obligationsEqual : List PolicyObligationItem → List PolicyObligationItem → Bool
  | [], [] => true
  | x :: xs, y :: ys =>
    x.typeID == y.typeID && x.id == y.id && x.value.deepEqual y.value && obligationsEqual xs ys
  | _, _ => false

section

variable (oldOps newOps : List PolicyOperationItem) (old newInfo : PolicyInfo)

/-- Every new operation is among the old ones, with equal obligations. -/
def operationsCovered : Bool :=
  let oldMap : GoMap String PolicyOperationItem := assign (·.id) id oldOps ∅
  newOps.all fun op => match oldMap.lookup op.id with
    | none => false
    | some oldOp => obligationsEqual op.obligations oldOp.obligations

/-- Whether an unconditional request changes nothing: same end time, operations already there. -/
def cmpPolicy : Bool :=
  old.endTime == newInfo.endTime && operationsCovered (getPolicyNoConditionOperations old).1
    (getPolicyNoConditionOperations newInfo).1 &&
    operationsCovered (getPolicyNoConditionOperations old).2 (getPolicyNoConditionOperations newInfo).2

/-- The earlier of two end times, `-1` being never. -/
def calcMinEndTime (endTime1 endTime2 : Int) : Int :=
  if endTime1 = -1 then endTime2
  else if endTime2 = -1 then endTime1
  else if endTime1 < endTime2 then endTime1 else endTime2

/-- One unconditional rule with the operations, or none without operations. -/
def unconditionalRule (operations : List PolicyOperationItem) : List PolicyRuleItem :=
  if operations.isEmpty then [] else [{ operations }]

/-- The rules that carry a condition. -/
def conditionalRules (rules : List PolicyRuleItem) : List PolicyRuleItem :=
  rules.filter fun rule => !isConditionEmpty rule.condition

/-- Merge an unconditional request into a stored policy, deny first and new before old. -/
def mergeNewPolicy : PolicyInfo :=
  let (oldAllow, oldDeny) := getPolicyNoConditionOperations old
  let (newAllow, newDeny) := getPolicyNoConditionOperations newInfo
  let denyMap : GoMap String PolicyOperationItem := assignMissing (·.id) id oldDeny (assign (·.id) id newDeny ∅)
  let allowMap : GoMap String PolicyOperationItem :=
    assignMissing (·.id) id (oldAllow.filter fun op =>
      op.id ∉ denyMap) (assign (·.id) id (newAllow.filter fun op => op.id ∉ denyMap) ∅)
  { id := old.id
    resourceID := old.resourceID
    resourceType := old.resourceType
    resourceName := old.resourceName
    accessorID := old.accessorID
    accessorType := old.accessorType
    accessorName := old.accessorName
    rules := {
      allow := unconditionalRule (GoMap.values allowMap) ++ conditionalRules old.rules.allow
      deny := unconditionalRule (GoMap.values denyMap) ++ conditionalRules old.rules.deny }
    endTime := calcMinEndTime old.endTime newInfo.endTime }

/-- Two rules guard with the same condition: both with none, or with equal ones. -/
def sameCondition (condition : Json) (rule : PolicyRuleItem) : Bool :=
  (isConditionEmpty rule.condition && isConditionEmpty condition) || rule.condition.deepEqual condition

/-- Every new rule has an old one of the same condition that covers its operations. -/
def rulesCovered (oldRules newRules : List PolicyRuleItem) : Bool :=
  newRules.all fun newRule => match oldRules.find? (sameCondition newRule.condition) with
    | none => false
    | some oldRule => operationsCovered oldRule.operations newRule.operations

/-- Whether a request with conditions changes nothing. -/
def cmpPolicyWithCondition : Bool :=
  old.endTime == newInfo.endTime && rulesCovered old.rules.allow newInfo.rules.allow &&
    rulesCovered old.rules.deny newInfo.rules.deny

/-- Operations of two rules with one condition: the new ones, then the old ones they do not replace. -/
def mergeOperations : List PolicyOperationItem :=
  if oldOps.isEmpty then newOps
  else if newOps.isEmpty then oldOps
  else
    let newMap : GoMap String PolicyOperationItem := assign (·.id) id newOps ∅
    GoMap.values newMap ++ oldOps.filter fun op => op.id ∉ newMap

/-- Merge rule by rule: a new rule joins the first unused old rule of its condition, and the old rules
that stay unused follow. -/
def mergeRuleItems : List PolicyRuleItem → List PolicyRuleItem → List PolicyRuleItem
  | oldItems, [] => oldItems
  | oldItems, newItem :: newItems =>
    match oldItems.find? (sameCondition newItem.condition) with
    | none => newItem :: mergeRuleItems oldItems newItems
    | some oldItem =>
      { condition := oldItem.condition
        operations := mergeOperations oldItem.operations newItem.operations } ::
      mergeRuleItems (oldItems.eraseP (sameCondition newItem.condition)) newItems

/-- Merge a request with conditions into a stored policy. -/
def mergeNewPolicyWithCondition : PolicyInfo :=
  { old with
    rules := {
      allow := mergeRuleItems old.rules.allow newInfo.rules.allow
      deny := mergeRuleItems old.rules.deny newInfo.rules.deny }
    endTime := calcMinEndTime old.endTime newInfo.endTime }

end

/-! # Listing policies

The policies of a resource, those with their obligations, and those of an accessor. Each list keeps the policies with an
unconditional operation, cuts a page out of them and completes its entries. An index out of range is `none`. Operations
with their names and the obligations that exist are given; parent departments are left out.
-/

/-- The slice of a page; a negative offset is refused before. -/
def applyPagination {α : Type} (list : List α) (offset : Nat) (limit : Int) : List α :=
  if limit = -1 then list
  else if list.length = 0 ∨ list.length ≤ offset then []
  else
    let stop : Int := if list.length < offset + limit then list.length else offset + limit
    (list.take stop.toNat).drop offset

/-- One rule of the unconditional operations stands for all; without such operations the rules stay. -/
def reducedRules (operations : List PolicyOperationItem) (rules : List PolicyRuleItem) : List PolicyRuleItem :=
  if operations.isEmpty then rules else [{ operations }]

def unconditionalPolicies (policies : List PolicyInfo) : List PolicyInfo :=
  policies.filterMap fun policy =>
    let (allow, deny) := getPolicyNoConditionOperations policy
    if allow.isEmpty && deny.isEmpty then none
    else some { policy with rules := ⟨reducedRules allow policy.rules.allow, reducedRules deny policy.rules.deny⟩ }

structure OperationInfo where
  (id name : String)

/-- The operations that are known, in their order and with their names. -/
def sortOperationAndFillName (operations : List PolicyOperationItem) (operationInfos : List OperationInfo) :
    List PolicyOperationItem :=
  let idMap : GoMap String PolicyOperationItem := GoMap.assign (·.id) id operations ∅
  operationInfos.filterMap fun info =>
    (idMap.lookup info.id).map fun operation =>
      { id := info.id, name := info.name, obligations := operation.obligations }

def fillNames (operationInfos : List OperationInfo) (policy : PolicyInfo) : PolicyInfo :=
  let (allow, deny) := getPolicyNoConditionOperations policy
  { policy with
    rules :=
      ⟨unconditionalRule (sortOperationAndFillName allow operationInfos),
        unconditionalRule (sortOperationAndFillName deny operationInfos)⟩ }

/-- Drops the obligations whose type or that themselves do not exist, if the page has any. -/
def validObligations (hasType : String → Bool) (obligations : List ObligationInfo) (page filled : List PolicyInfo) :
    List PolicyInfo :=
  let items := page.flatMap fun policy => (getPolicyNoConditionOperations policy).1.flatMap (·.obligations)
  let types := (items.map (·.typeID)).filter hasType
  let valid (item : PolicyObligationItem) : Bool :=
    item.typeID ∈ types ∧ (item.id = "" ∨ ∃ obligation ∈ obligations, obligation.id = item.id ∧
      obligation.typeID ∈ types)
  if items.isEmpty then filled
  else filled.map fun policy => { policy with
    rules := { policy.rules with allow := policy.rules.allow.map fun rule => { rule with
      operations := rule.operations.map fun operation =>
        { operation with obligations := operation.obligations.filter valid } } } }

variable (operationInfos : String → List OperationInfo) (hasType : String → Bool) (obligations : List ObligationInfo)
  (policiesTmp : List PolicyInfo) (offset : Nat) (limit : Int)

def getPagination : Option (Nat × List PolicyInfo) :=
  let policies := unconditionalPolicies policiesTmp
  if policies.length = 0 then some (0, policies)
  else match applyPagination policies offset limit with
    | [] => some (policies.length, [])
    | first :: page => some (policies.length, (first :: page).map (fillNames (operationInfos first.resourceType)))

def getAccessorPolicy : Option (Nat × List PolicyInfo) :=
  let policies := unconditionalPolicies policiesTmp
  if policies.length = 0 then some (0, policies)
  else match applyPagination policies offset limit with
    | [] => some (policies.length, [])
    | page => some (policies.length, validObligations hasType obligations page
        (page.map fun policy => fillNames (operationInfos policy.resourceType) policy))

/-- Reads the first entry of the page even if there is none. -/
def getResourcePolicy : Option (Nat × List PolicyInfo) :=
  let policies := unconditionalPolicies policiesTmp
  if policies.length = 0 then some (0, policies)
  else match applyPagination policies offset limit with
    | [] => none
    | first :: page => some (policies.length, validObligations hasType obligations (first :: page)
        ((first :: page).map (fillNames (operationInfos first.resourceType))))

end

/-! # Managing policies

The operations of `logics` that write `t_policy`. A creating request is validated, split into new and changed rows by
what a read before the transaction finds under each key, and written in one transaction (`plan…` and `writePlan`). An
operation that fails leaves the table as it was. The clock is read once a request.
-/

variable (svc : Services) (table : PolicyTable) (now : Int) (policys : List PolicyInfo)

/-- Identifiers for new rows: no two alike, none in use. -/
structure NewIDs (table : PolicyTable) where
  newV4 : Nat → String
  injective : Function.Injective newV4
  fresh : ∀ n, ∀ row ∈ table, row.id ≠ newV4 n

def simplifiedChinese : String := "zh-cn"
def authorizeOperation : String := "authorize"

def badRequest (description : String) : ServiceError := { code := .publicBadRequest, description }

/-- The first node below the given ones with the id, searched depth first. -/
def findInChildren : List ResourceTypeHierarchy → String → Option ResourceTypeHierarchy
  | [], _ => none
  | .node typeID children :: rest, resourceTypeID =>
    if typeID = resourceTypeID then some (.node typeID children)
    else match findInChildren children resourceTypeID with
      | some found => some found
      | none => findInChildren rest resourceTypeID

/-- A type has a hierarchy when it is the root of one or lies below a root. -/
def hasHierarchy (resourceTypeID : String) : Bool :=
  svc.resourceTypeHierarchys.entries.any fun entry =>
    entry.1 = resourceTypeID || match entry.2 with
      | .node _ children => (findInChildren children resourceTypeID).isSome

/-- A requested end time must lie in the future. -/
def checkEndTime (now endTime : Int) : Except ServiceError Unit :=
  if endTime ≠ -1 ∧ endTime ≤ now then
    .error (badRequest "The expiration time of permission cannot be earlier than the current time")
  else .ok ()

/-- Ids with a slash must read `parent/*` for the last ancestor, and no ancestor may be `*`. -/
def checkResourceIDAndAncestors (policy : PolicyInfo) : Except ServiceError Unit := do
  let mustSet := badRequest (" resource " ++ policy.resourceID ++ "  ancestors must set ")
  let invalid := badRequest (" resource id " ++ policy.resourceID ++ " is invalid")
  if hasHierarchy svc policy.resourceType && !policy.hasAncestors then throw mustSet
  if '/' ∈ policy.resourceID.toList then
    match policy.ancestors.getLast? with
    | none => throw mustSet
    | some parent =>
      match policy.resourceID.toList.splitOn '/' with
      | [first, second] =>
        if second ≠ ['*'] then throw invalid
        if first ≠ parent.id.toList then
          throw (badRequest (" resource id:" ++ policy.resourceID ++
            "  ancestors  set error, parentResourceID " ++ parent.id))
      | _ => throw invalid
  if policy.ancestors.any fun ancestor => ancestor.id = "*" then
    throw (badRequest (" resource id:" ++ policy.resourceID ++ "  ancestors set error, ancestor id can't be *"))

section

variable (operationIDMap : GoSet String) (isSame : PolicyInfo → PolicyInfo → Bool)
  (merge : PolicyInfo → PolicyInfo → PolicyInfo) (newV4 : Nat → String)

/-- The unconditional operations must exist, must not all be missing, and must not be both allowed
and denied. -/
def checkPolicyOperationValid (policy : PolicyInfo) : Except ServiceError Unit := do
  let (allowOperations, denyOperations) := getPolicyNoConditionOperations policy
  if allowOperations.isEmpty && denyOperations.isEmpty then
    throw (badRequest "allow and deny cannot be empty at the same time")
  denyOperations.forM fun deny =>
    if deny.id ∈ operationIDMap then .ok () else .error (badRequest ("operation " ++ deny.id ++ " not found"))
  allowOperations.forM fun allow =>
    if allow.id ∉ operationIDMap then .error (badRequest ("operation " ++ allow.id ++ " not found"))
    else if allow.id ∈ denyOperations.map (·.id) then
      .error (badRequest ("allow and deny cannot have the same operation: " ++ allow.id))
    else .ok ()

/-- The operations each of the resource types defines; all types must exist. -/
def getResourceTypeOperations (resourceTypeIDs : List String) : Except ServiceError (GoMap String (GoSet String)) := do
  let resourceTypeInfoMap := getByIDsInternal svc resourceTypeIDs
  resourceTypeIDs.forM fun id =>
    if id ∈ resourceTypeInfoMap then .ok () else .error (badRequest ("resource type " ++ id ++ " not found"))
  return GoMap.filterMap (fun _ info => some (GoMap.collect (info.operation.map (·.id)))) resourceTypeInfoMap

/-- The system roles of a visitor; only real users have any. -/
def visitorRoles (visitor : Visitor) : Except ServiceError (List SystemRoleType) :=
  match visitor.type with
  | .realName => svc.getUserRolesByUserID visitor.id
  | .anonymous | .app => .ok []

/-- May the visitor manage the policies of these resources? Three administrators may; others need the
operation `authorize` on each resource, which is checked without its ancestors. -/
def checkVisitorAuthorize (visitor : Visitor) (resources : GoSet (String × String)) : Except ServiceError Unit := do
  let roleTypes ← visitorRoles svc visitor
  if roleTypes.any fun role => role ∈ [SystemRoleType.superAdmin, .systemAdmin, .securityAdmin] then
    return ()
  resources.keys.forM fun (resourceType, resourceID) => do
    let checkResult ← check svc table now { id := resourceID, type := resourceType } ⟨visitor.id, visitor.type⟩
      [authorizeOperation] []
    if !checkResult.result then
      throw { code := .publicForbidden, description := "no permission to authorize" }

/-- What the validation of a batch has seen so far. -/
structure BatchCheck where
  resourceIDpolicysDup : GoSet (String × String × String)
  accessorTypeMap : GoMap String AccessorType
  accessorRoleMap : GoMap String String

/-- Validate one policy of a batch; each key may appear once. -/
def checkOnePolicy (operationMap : GoMap String (GoSet String))
    (seen : BatchCheck) (policy : PolicyInfo) : Except ServiceError BatchCheck := do
  checkEndTime now policy.endTime
  checkResourceIDAndAncestors svc policy
  if policy.key ∈ seen.resourceIDpolicysDup then
    throw (badRequest (" resource type " ++ policy.resourceType ++ ", resource " ++ policy.resourceName ++
      ", accessor " ++ policy.accessorName ++ " duplicate。resource.id " ++ policy.resourceID ++
      ", accessor.id " ++ policy.accessorID))
  checkPolicyOperationValid ((operationMap.lookup policy.resourceType).getD ∅) policy
  return {
    resourceIDpolicysDup := seen.resourceIDpolicysDup.insert policy.key ()
    accessorTypeMap := if policy.accessorType ≠ .role ∧ policy.accessorID ≠ rootDepID then
        seen.accessorTypeMap.insert policy.accessorID policy.accessorType
      else seen.accessorTypeMap
    accessorRoleMap := if policy.accessorType = .role then
        seen.accessorRoleMap.insert policy.accessorID policy.accessorName
      else seen.accessorRoleMap }

/-- The names of the accessors of a batch; all roles must exist. -/
def getAccessorName (language : String) (accessorTypeMap : GoMap String AccessorType)
    (accessorRoleMap : GoMap String String) : Except ServiceError (GoMap String String) := do
  let idNameMap ← if accessorTypeMap.keys = [] then .ok ∅ else svc.getNameByAccessorIDs accessorTypeMap
  let roleInfoMap : GoMap String RoleInfo := GoMap.assign (·.id) id (svc.roles.filter fun role =>
    role.id ∈ accessorRoleMap.keys) ∅
  let notExistRoleIDs := accessorRoleMap.keys.filter fun id => id ∉ roleInfoMap
  if notExistRoleIDs ≠ [] then
    throw { code := .roleNotFound, description := svc.accessorRoleNotFound language, ids := notExistRoleIDs }
  return GoMap.assign (·.id) (·.name) (GoMap.values roleInfoMap) idNameMap

/-- Validate a batch and look up its accessors' names. -/
def validatePolicys (language : String) (policys : List PolicyInfo) : Except ServiceError (GoMap String String) := do
  let operationMap ← getResourceTypeOperations svc (GoMap.collect (policys.map (·.resourceType))).keys
  let seen ← policys.foldlM (checkOnePolicy svc now operationMap) ⟨∅, ∅, ∅⟩
  getAccessorName svc language seen.accessorTypeMap seen.accessorRoleMap

/-- The stored policy of a requested policy's key, as the maps built from the rows of its resource
give it: of several rows the last. -/
def oldPolicyOf (resourceTypeMap : GoMap String (List String)) (policy : PolicyInfo) : Option PolicyInfo := do
  let resourceIDs ← resourceTypeMap.lookup policy.resourceType
  let oldPolicies ← (PolicyTable.getByResourceIDs table policy.resourceType resourceIDs).toOption
  let accessorPolicies ← oldPolicies.lookup policy.resourceID
  (GoMap.assign (·.accessorID) id accessorPolicies ∅).lookup policy.accessorID

/-- The rows a request inserts, the rows it changes, and the ids it answers with. -/
structure Plan where
  (newPolicy updatePolicy : List PolicyInfo)
  policyIDs : List String

/-- Plan one policy: skip it when nothing changes, else merge it into the stored one, else insert it
under a new id and the name found for its accessor. -/
def Plan.add (idNameMap : GoMap String String) (old : Option PolicyInfo) (plan : Plan) (policy : PolicyInfo) : Plan :=
  match old with
  | some oldPolicy =>
    { plan with
      updatePolicy := if isSame oldPolicy policy then plan.updatePolicy
        else plan.updatePolicy ++ [merge oldPolicy policy]
      policyIDs := plan.policyIDs ++ [oldPolicy.id] }
  | none =>
    { plan with
      newPolicy := plan.newPolicy ++ [{ policy with
        id := newV4 plan.newPolicy.length
        accessorName := (idNameMap.lookup policy.accessorID).getD policy.accessorID }]
      policyIDs := plan.policyIDs ++ [newV4 plan.newPolicy.length] }

/-- Plan a batch against the rows read before the transaction. -/
def planBatch
    (table : PolicyTable) (newV4 : Nat → String) (policys : List PolicyInfo) (idNameMap : GoMap String String) : Plan :=
  let resourceTypeMap := GoMap.concat (·.resourceType) (fun policy => [policy.resourceID]) policys ∅
  policys.foldl (fun plan policy =>
    plan.add isSame merge newV4 idNameMap (oldPolicyOf table resourceTypeMap policy) policy) ⟨[], [], []⟩

def getCreateAndUpdatePolicy : PolicyTable → (Nat → String) → List PolicyInfo → GoMap String String → Plan :=
  planBatch cmpPolicy mergeNewPolicy

def getCreateAndUpdatePolicyWithCondition :
    PolicyTable → (Nat → String) → List PolicyInfo → GoMap String String → Plan :=
  planBatch cmpPolicyWithCondition mergeNewPolicyWithCondition

/-- The write transaction of a plan. -/
def writePlan (plan : Plan) : PolicyTable :=
  PolicyTable.update (PolicyTable.create table now plan.newPolicy) now plan.updatePolicy

/-- The pairs of type and id a batch touches. -/
def touchedResources : GoSet (String × String) :=
  GoMap.collect (policys.map fun policy => (policy.resourceType, policy.resourceID))

/-- A creating request: of a visitor, who must be authorized, or of another service. -/
inductive CreateCall where
  | create (visitor : Visitor)
  | createPrivate
deriving DecidableEq, Repr

/-- The language the errors of a creating request are written in. -/
def CreateCall.language : CreateCall → String
  | .create visitor => visitor.language
  | .createPrivate => simplifiedChinese

/-- Only visitors are checked for the right to authorize. -/
def CreateCall.authorize : CreateCall → Except ServiceError Unit
  | .create visitor => checkVisitorAuthorize svc table now visitor (touchedResources policys)
  | .createPrivate => .ok ()

/-- Everything a creating request does before its transaction. -/
def CreateCall.plan (policys : List PolicyInfo) (call : CreateCall) : Except ServiceError Plan := do
  call.authorize svc table now policys
  let idNameMap ← validatePolicys svc now call.language policys
  return getCreateAndUpdatePolicy table newV4 policys idNameMap

/-- A whole creating request: the ids it answers with and the table it leaves. -/
def CreateCall.run
    (policys : List PolicyInfo) (call : CreateCall) : Except ServiceError (List String × PolicyTable) := do
  if policys.isEmpty then return ([], table)
  let plan ← call.plan svc table now newV4 policys
  return (plan.policyIDs, writePlan table now plan)

/-- `Create` for a visitor. -/
def create (svc : Services) (table : PolicyTable) (now : Int) (newV4 : Nat → String) (visitor : Visitor)
    (policys : List PolicyInfo) : Except ServiceError (List String × PolicyTable) :=
  (CreateCall.create visitor).run svc table now newV4 policys

/-- `CreatePrivate` for another service. -/
def createPrivate (svc : Services) (table : PolicyTable) (now : Int) (newV4 : Nat → String)
    (policys : List PolicyInfo) : Except ServiceError PolicyTable :=
  (CreateCall.createPrivate.run svc table now newV4 policys).map (·.2)

/-- Replace the operations of the first unconditional rule, or put one in front. -/
def replaceNoCondition (operations : List PolicyOperationItem) (rules : List PolicyRuleItem) : List PolicyRuleItem :=
  if rules.any fun rule => isConditionEmpty rule.condition then
    rules.takeWhile (fun rule => !isConditionEmpty rule.condition) ++
      match rules.dropWhile (fun rule => !isConditionEmpty rule.condition) with
      | [] => []
      | first :: rest => { first with operations } :: rest
  else { operations } :: rules

/-- The rules an update leaves: the request's unconditional operations, the stored conditional rules. -/
def updatedRules (old newInfo : PolicyInfo) : PolicyRules where
  allow := replaceNoCondition (getPolicyNoConditionOperations newInfo).1 old.rules.allow
  deny := replaceNoCondition (getPolicyNoConditionOperations newInfo).2 old.rules.deny

/-- Each id at most once, each end time in the future. -/
def checkUpdateIDs : Except ServiceError (GoSet String) :=
  policys.foldlM (fun (idDupCheck : GoSet String) policy => do
    if policy.id ∈ idDupCheck then throw (badRequest ("policy id duplicate, policy.id " ++ policy.id))
    checkEndTime now policy.endTime
    return idDupCheck.insert policy.id ()) ∅

/-- `Update` of policies by id; ids that are not stored are passed over. -/
def update (svc : Services) (table : PolicyTable) (now : Int) (visitor : Visitor) (policys : List PolicyInfo) :
    Except ServiceError PolicyTable := do
  if policys.isEmpty then return table
  let _ ← checkUpdateIDs now policys
  let oldPoliciesMap := PolicyTable.getByPolicyIDs table (policys.map (·.id))
  if oldPoliciesMap.keys = [] then return table
  let oldPolicies := GoMap.values oldPoliciesMap
  checkVisitorAuthorize svc table now visitor (touchedResources oldPolicies)
  let operationMap ← getResourceTypeOperations svc (GoMap.collect (oldPolicies.map (·.resourceType))).keys
  policys.forM fun policy => match oldPoliciesMap.lookup policy.id with
    | none => .ok ()
    | some old => checkPolicyOperationValid ((operationMap.lookup old.resourceType).getD ∅) policy
  return PolicyTable.update table now <| policys.map fun policy =>
    match oldPoliciesMap.lookup policy.id with
    | none => policy
    | some old => { policy with rules := updatedRules old policy }

/-- `Delete` by id: a policy with conditional rules keeps just these, any other goes. -/
def delete (svc : Services) (table : PolicyTable) (now : Int) (visitor : Visitor) (ids : List String) :
    Except ServiceError PolicyTable := do
  if ids.isEmpty then return table
  let oldPolicies := GoMap.values (PolicyTable.getByPolicyIDs table ids)
  checkVisitorAuthorize svc table now visitor (touchedResources oldPolicies)
  let hasCondition := fun policy : PolicyInfo =>
    (policy.rules.allow ++ policy.rules.deny).any fun rule => !isConditionEmpty rule.condition
  let updatePolicys := (oldPolicies.filter hasCondition).map fun policy =>
    { policy with rules := ⟨conditionalRules policy.rules.allow, conditionalRules policy.rules.deny⟩ }
  let deletePolicyIDs := (oldPolicies.filter fun policy => !hasCondition policy).map (·.id)
  return PolicyTable.delete (PolicyTable.update table now updatePolicys) deletePolicyIDs

/-- `InitPolicy` with the policies a service brings along; nothing is validated. -/
def initPolicy (policys : List PolicyInfo) : PolicyTable :=
  let idNameMap := GoMap.assign (·.accessorID) (·.accessorName) (policys.filter fun policy =>
    policy.accessorID ≠ rootDepID) ∅
  writePlan table now (getCreateAndUpdatePolicyWithCondition table newV4 policys idNameMap)

end

def deleteByResourceIDs (table : PolicyTable) (resources : List PolicyDeleteResourceInfo) : PolicyTable :=
  PolicyTable.deleteByResourceIDs table resources

def deletePolicyByAccessorID (accessorID : String) : PolicyTable := PolicyTable.deleteByAccessorIDs table [accessorID]

def deleteByEndTime (table : PolicyTable) (curTime : Int) : PolicyTable := PolicyTable.deleteByEndTime table curTime

/-- One operation on a store, with its arguments, the clock, the answers of the other services and the
identifiers it is given. -/
inductive StoreOp (table : PolicyTable) where
  | create (svc : Services) (call : CreateCall) (now : Int) (new : NewIDs table) (policys : List PolicyInfo)
  | update (svc : Services) (visitor : Visitor) (now : Int) (policys : List PolicyInfo)
  | delete (svc : Services) (visitor : Visitor) (now : Int) (ids : List String)
  | initPolicy (now : Int) (new : NewIDs table) (policys : List PolicyInfo)
  | deleteByResourceIDs (resources : List PolicyDeleteResourceInfo)
  | deletePolicyByAccessorID (accessorID : String)
  | deleteByEndTime (curTime : Int)
  | updateAccessorName (accessorID name : String)
  | updateResourceName (resourceID resourceType name : String)
  | updateResourceAncestors (resourceID resourceType : String) (ancestors : List Ancestor)

/-- The store an operation leaves; one that fails leaves it as it was. -/
def StoreOp.run {table : PolicyTable} : StoreOp table → PolicyTable
  | .create svc call now new policys => match call.run svc table now new.newV4 policys with
    | .ok (_, after) => after
    | .error _ => table
  | .update svc visitor now policys => match Authorization.update svc table now visitor policys with
    | .ok after => after
    | .error _ => table
  | .delete svc visitor now ids => match Authorization.delete svc table now visitor ids with
    | .ok after => after
    | .error _ => table
  | .initPolicy now new policys => Authorization.initPolicy table now new.newV4 policys
  | .deleteByResourceIDs resources => Authorization.deleteByResourceIDs table resources
  | .deletePolicyByAccessorID accessorID => Authorization.deletePolicyByAccessorID table accessorID
  | .deleteByEndTime curTime => Authorization.deleteByEndTime table curTime
  | .updateAccessorName accessorID name => table.updateAccessorName accessorID name
  | .updateResourceName resourceID resourceType name => table.updateResourceName resourceID resourceType name
  | .updateResourceAncestors resourceID resourceType ancestors =>
    table.updateResourceAncestors resourceID resourceType ancestors

/-- The stores that operations meeting a condition can lead to, from the empty one. -/
inductive Reachable (meets : ∀ table, StoreOp table → Prop) : PolicyTable → Prop
  | empty : Reachable meets []
  | step {table : PolicyTable} (before : Reachable meets table) (op : StoreOp table) (met : meets table op) :
    Reachable meets op.run

/-! # Two creating requests at once

A creating request reads the store to authorize the visitor and to find the rows of its keys. Only the write is a
transaction, and nothing in `t_policy` keeps a second row of a key out. The steps of two requests interleave in any
order.
-/

/-- A creating request with all it is given: the answers of the other services, the clock and its new
identifiers. -/
structure CreateRequest where
  svc : Services
  call : CreateCall
  now : Int
  newV4 : Nat → String
  policys : List PolicyInfo

/-- How far a request has got, with the stores it was checked at and read from. -/
inductive Phase where
  | waiting
  | checked (idNameMap : GoMap String String) (checkedAt : PolicyTable)
  | planned (plan : Plan) (checkedAt readAt : PolicyTable)
  | finished

namespace CreateRequest

section

variable (request : CreateRequest) (table : PolicyTable)

/-- Authorize the visitor and validate the batch. Nothing is left to do for an empty batch or after an
error. -/
def check : Option (GoMap String String) :=
  if request.policys.isEmpty then none
  else (do
    request.call.authorize request.svc table request.now request.policys
    validatePolicys request.svc request.now request.call.language request.policys).toOption

/-- Read the rows of the batch's keys and plan the write. -/
def plan (idNameMap : GoMap String String) : Plan :=
  getCreateAndUpdatePolicy table request.newV4 request.policys idNameMap

/-- One step of a request: check, read, or write. -/
def advance : Phase → PolicyTable × Phase
  | .waiting => match request.check table with
    | none => (table, .finished)
    | some idNameMap => (table, .checked idNameMap table)
  | .checked idNameMap checkedAt => (table, .planned (request.plan table idNameMap) checkedAt table)
  | .planned plan _ _ => (writePlan table request.now plan, .finished)
  | .finished => (table, .finished)

/-- The store the whole request leaves when nothing comes between. -/
def apply : PolicyTable :=
  match request.call.run request.svc table request.now request.newV4 request.policys with
  | .ok (_, after) => after
  | .error _ => table

end

end CreateRequest

/-- The store and the phases of the two requests. -/
structure TwoRequests where
  table : PolicyTable
  (first second : Phase)

/-- One step of the first request, or of the second. -/
def TwoRequests.step (a b : CreateRequest) (state : TwoRequests) (isFirst : Bool) : TwoRequests :=
  if isFirst then
    let (table, first) := a.advance state.table state.first
    { state with table, first }
  else
    let (table, second) := b.advance state.table state.second
    { state with table, second }

/-- The run of a schedule from a store. -/
def interleave (a b : CreateRequest) (table : PolicyTable) (schedule : List Bool) : TwoRequests :=
  schedule.foldl (TwoRequests.step a b) ⟨table, .waiting, .waiting⟩

/-- A row up to its generated id and its timestamps. -/
def PolicyInfo.content (row : PolicyInfo) : PolicyInfo := { row with id := "", createTime := 0, modifyTime := 0 }

/-- The same rows, up to generated ids, timestamps and order. -/
def SameRows (left right : PolicyTable) : Prop := (left.map PolicyInfo.content).Perm (right.map PolicyInfo.content)

/-! # A small instance of the services

One application, one ordinary user without departments, and a resource type with three operations. Conditions are
evaluated for the shape `{"==": [{"var": path}, value]}`, as the rule library does: a missing variable is null and
equals no string.
-/

namespace Sample

open List

/-- Sorting by merge is one of the orders `sort.Slice` may produce. -/
def sort : PrioritySort where
  slice items := items.mergeSort fun x y => decide (x.priority ≤ y.priority)
  perm items := mergeSort_perm items _
  sorted items := by
    have ordered : (items.mergeSort fun x y => decide (x.priority ≤ y.priority)).Pairwise
        fun x y => decide (x.priority ≤ y.priority) = true :=
      pairwise_mergeSort (by simp only [decide_eq_true_eq]; omega)
        (by simp only [Bool.or_eq_true, decide_eq_true_eq]; omega) items
    simpa only [decide_eq_true_eq] using ordered

/-- Follow a path through nested objects; a missing step reads as null. -/
def follow : List String → Json → Json
  | [], data => data
  | step :: rest, .obj fields => (fields.lookup step).elim .null (follow rest)
  | _ :: _, _ => .null

/-- The paths of the condition data. -/
def path : String → List String
  | "accessor.id" => ["accessor", "id"]
  | "resource.created_by.id" => ["resource", "created_by", "id"]
  | _ => ["?"]

/-- The condition `{"==": [{"var": name}, value]}`. -/
def varEquals (name value : String) : Json := .obj [("==", .arr [.obj [("var", .str name)], .str value])]

def applyInterface : Json → Json → Except String Json
  | .obj [("==", .arr [.obj [("var", .str name)], value])], data =>
    .ok (.bool ((follow (path name) data).deepEqual value))
  | _, _ => .error "unsupported rule"

def services : Services where
  getAccessorIDsByUserID id := .ok [id]
  getUserRolesByUserID _ := .ok [.normalUser]
  getNameByAccessorIDs _ := .ok ∅
  roles := []
  roleMembers := []
  resourceTypes := [⟨"doc", [⟨"read", [.scopeInstance]⟩, ⟨"write", [.scopeInstance]⟩,
    ⟨"authorize", [.scopeType, .scopeInstance]⟩]⟩]
  resourceTypeHierarchys := ∅
  obligationGetByIDSInternal _ := .ok []
  applyInterface := applyInterface
  accessorRoleNotFound _ := "role not found"
  sort := sort

/-- The application all the sample requests are made for. -/
def app : AccessorInfo := ⟨"app", .app⟩

/-- A permanent row for the application. -/
def row (resourceID : String) (allow deny : List PolicyRuleItem) : PolicyInfo where
  id := resourceID
  resourceID := resourceID
  resourceType := "doc"
  accessorID := "app"
  accessorType := .app
  rules := ⟨allow, deny⟩
  endTime := -1

/-- A rule that names one operation under a condition. -/
def ruleWhen (condition : Json) (operation : String) : PolicyRuleItem where
  condition := condition
  operations := [{ id := operation }]

/-- An unconditional rule that names one operation. -/
def rule : String → PolicyRuleItem := ruleWhen (.obj [])

/-- A watermark with a text. -/
def watermark (text : String) : PolicyObligationItem := ⟨"watermark", "", .str text⟩

/-- Reading, with one watermark for each text. -/
def readMarked (texts : List String) : PolicyRuleItem where
  operations := texts.map fun text => { id := "read", obligations := [watermark text] }

/-- Identifiers of one letter, told apart by their length. -/
def newV4 (letter : Char) (n : Nat) : String := String.ofList (replicate (n + 1) letter)

/-- They are new to a table whose identifiers avoid the letter. -/
def newIDs (letter : Char) (table : PolicyTable) (avoided : ∀ row ∈ table, letter ∉ row.id.toList) : NewIDs table where
  newV4 := newV4 letter
  injective m n same := by
    have length := congrArg (fun id : String => id.toList.length) same
    simpa [newV4] using length
  fresh n row member same := by
    refine avoided row member ?_
    simp [same, newV4]

theorem getAccessorIDs_app : getAccessorIDs services app = .ok ["app"] := rfl

end Sample

end SecurityFabric.Authorization
