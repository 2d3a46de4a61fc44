import SecurityFabric.Model.Authorization.PolicyTable

/-! # The policy calculation

`policyCalc` of `logics`: the tokens of an accessor, the permissions one level grants, the walk over the levels of a
resource, and the five entry points. A level is judged deny first; the walk takes the nearest level that speaks about an
operation.

`check` judges every level with the data of the requested resource. The batch entry points judge a level with the data
of the requested resource of that id, or an empty map, and the whole-type level once for each requested resource under
the synthetic key `id_*`.
-/

namespace SecurityFabric.Authorization

variable (svc : Services) (acc : InheritedOperation) (resource : ResourceInfo) (batch : Batch) (table : PolicyTable)
    (data : Option Json) (now : Int) (resources : List ResourceInfo)

/-- What one level grants: allowed operations with their obligations, and denied operations. -/
structure ResourcePerm where
  allow : GoMap String (List PolicyObligationCalcItem)
  deny : GoSet String

/-- The zero value, which a missing level reads as. -/
def ResourcePerm.zero : ResourcePerm := ⟨∅, ∅⟩

def superAdminRoleID : String := "7dcfcc9c-ad02-11e8-aa06-000c29358ad6"
def systemAdminRoleID : String := "d2bd2082-ad03-11e8-aa06-000c29358ad6"
def securityAdminRoleID : String := "d8998f72-ad03-11e8-aa06-000c29358ad6"
def auditAdminRoleID : String := "def246f2-ad03-11e8-aa06-000c29358ad6"
def organizationAdminRoleID : String := "e63e1c88-ad03-11e8-aa06-000c29358ad6"
def organizationAuditRoleID : String := "f06ac18e-ad03-11e8-aa06-000c29358ad6"

def rootDepObligationPriority : Nat := 5

/-- Priority of an obligation by the accessor it is configured for. -/
def obligationPriority : AccessorType → Nat
  | .user | .app => 1
  | .role => 2
  | .group => 3
  | .department => 4
  | .contactor | .anonymous | .groupInternal => 0

/-- The fixed token of a system role; ordinary users have none. -/
def systemRoleID : SystemRoleType → Option String
  | .superAdmin => some superAdminRoleID
  | .systemAdmin => some systemAdminRoleID
  | .securityAdmin => some securityAdminRoleID
  | .auditAdmin => some auditAdminRoleID
  | .organizationAdmin => some organizationAdminRoleID
  | .organizationAudit => some organizationAuditRoleID
  | .normalUser => none

/-- Roles of which one of the ids is a member. -/
def getRoleByMembers (memberIDs : List String) : Except ServiceError (List String) :=
  whereIn memberIDs <| (svc.roleMembers.filter fun member => member.memberID ∈ memberIDs).map (·.roleID)

section

variable (policy : PolicyInfo) (ope : PolicyOperationItem) (accessor : AccessorInfo)

/-- The ids an accessor acts under itself; everyone with a real name also acts under the root id. -/
def ownTokens : Except ServiceError (List String) :=
  match accessor.type with
  | .realName => (svc.getAccessorIDsByUserID accessor.id).map (· ++ [rootDepID])
  | .app => .ok [accessor.id]
  | .anonymous => .ok []

/-- The system roles of a user, which user management keeps, as tokens. -/
def systemRoleTokens : Except ServiceError (List String) :=
  match accessor.type with
  | .realName => (svc.getUserRolesByUserID accessor.id).map (·.filterMap systemRoleID)
  | .app | .anonymous => .ok []

/-- The access tokens: the accessor, its departments and groups, and the roles of all of these. -/
def getAccessorIDs : Except ServiceError (List String) := do
  let accessTokens ← ownTokens svc accessor
  let roles ← getRoleByMembers svc accessTokens
  let systemRoles ← systemRoleTokens svc accessor
  return (accessTokens ++ roles ++ systemRoles).eraseDups

/-- Ancestors as `ancestor/*` levels from the root down, then the resource itself. -/
def createAncestorsResource : List ResourceInfo :=
  (resource.ancestors.map fun ancestor => { id := ancestor.id ++ "/*", type := resource.type }) ++ [resource]

/-- A condition holds only on non-nil data and only when it evaluates to the boolean `true`. -/
def checkCondition (condition : Json) : Option Json → Bool
  | none => false
  | some data => match svc.applyInterface condition data with
    | .ok (.bool result) => result
    | _ => false

/-- The data conditions see: the accessor and, when known, the creator of the resource. -/
def makeDataInfo : Json := .obj <| ("accessor", .field "id" (.str accessor.id)) ::
    if resource.createdBy.id ≠ "" then
      [("resource", .field "created_by" (.field "id" (.str resource.createdBy.id)))]
    else []

/-- A request for `*` carries no data, so that no condition holds. -/
def requestData : Option Json :=
  if resource.id = "*" then none else some (makeDataInfo resource accessor)

/-- A rule takes part when its condition is empty or holds. -/
def ruleApplies (rule : PolicyRuleItem) : Bool :=
  isConditionEmpty rule.condition || checkCondition svc rule.condition data

/-- The obligations of an operation, with the priority of the accessor they are set for. -/
def obligationCalcItems : List PolicyObligationCalcItem :=
  ope.obligations.map fun obl =>
    { obl with
      priority := if policy.accessorID = rootDepID then rootDepObligationPriority
        else obligationPriority policy.accessorType }

end

/-- The operations that the applicable rules of one side name. -/
def ruleOperations (rules : List PolicyRuleItem) : List PolicyOperationItem :=
  (rules.filter (ruleApplies svc data)).flatMap (·.operations)

/-- The permissions of one level, deny first. -/
def calcOneResourcePerm (policies : List PolicyInfo) : ResourcePerm :=
  let denyMap : GoSet String := GoMap.collect <| policies.flatMap fun policy =>
    (ruleOperations svc data policy.rules.deny).map (·.id)
  let granted := policies.flatMap fun policy =>
    ((ruleOperations svc data policy.rules.allow).filter fun ope => ope.id ∉ denyMap).map fun ope =>
      (ope.id, obligationCalcItems policy ope)
  { allow := GoMap.concat (·.1) (·.2) granted ∅, deny := denyMap }

/-- Judge every level that has policies, each with its own data. -/
def calcEach (data : String → Option Json) (policyMap : GoMap String (List PolicyInfo)) : GoMap String ResourcePerm :=
  GoMap.filterMap (fun resourceID policies =>
    if policies.isEmpty then none else some (calcOneResourcePerm svc (data resourceID) policies)) policyMap

/-- The walk's accumulators. An operation once denied is never allowed, nor the other way round. -/
structure InheritedOperation where
  (allowMap denyMap : GoSet String)
  allowMapWithObligation : GoMap String (List PolicyObligationCalcItem)
  disjoint : ∀ v ∈ denyMap, v ∉ allowMap

namespace InheritedOperation

def empty : InheritedOperation := ⟨∅, ∅, ∅, fun v member => absurd member (AList.notMem_empty v)⟩

/-- The body of the deny loop: only an open operation is denied. -/
def addDeny (v : String) : InheritedOperation :=
  if unsettled : v ∉ acc.denyMap ∧ v ∉ acc.allowMap then
    { acc with
      denyMap := acc.denyMap.insert v ()
      disjoint := by
        intro w member
        rcases AList.mem_insert _ |>.mp member with rfl | member
        · exact unsettled.2
        · exact acc.disjoint w member }
  else acc

/-- The body of the allow loop: obligations add up until the operation is denied. -/
def addAllow (v : String) (value : List PolicyObligationCalcItem) : InheritedOperation :=
  if undenied : v ∉ acc.denyMap then
    { acc with
      allowMapWithObligation := GoMap.append acc.allowMapWithObligation v value
      allowMap := if v ∈ acc.allowMap then acc.allowMap else acc.allowMap.insert v ()
      disjoint := by
        intro w member allowed
        split_ifs at allowed with already
        · exact acc.disjoint w member allowed
        · rcases AList.mem_insert _ |>.mp allowed with rfl | allowed
          · exact undenied member
          · exact acc.disjoint w member allowed }
  else acc

/-- One level of the walk: its denials, then its permissions. -/
def addLevel (perm : ResourcePerm) : InheritedOperation :=
  perm.allow.entries.foldl (fun acc entry => acc.addAllow entry.1 entry.2) (perm.deny.keys.foldl addDeny acc)

/-- Whether every requested operation is allowed. -/
def allows (operation : List String) : Bool :=
  operation.all fun v => !(decide (v ∈ acc.denyMap) || decide (v ∉ acc.allowMap))

end InheritedOperation

/-- The id of the last resource; the empty string when there is none. -/
def lastID : String := (resources.getLast?.map (·.id)).getD ""

section

variable (typeLevel : String → String) (resourceTypeID : String) (accessor : AccessorInfo)

/-- The ids the walk visits, nearest first. The slice is made with its length and then appended to,
so as many empty ids as there are resources come first. -/
def walkIDs (resources : List ResourceInfo) : List String :=
  List.replicate resources.length "" ++ (resources.map (·.id)).reverse ++
    if lastID resources ≠ "*" then [typeLevel (lastID resources)] else []

/-- The walk over the levels, given the key under which the whole type is kept. -/
def inheritedOperation (resources : List ResourceInfo)
    (resourcePermMap : GoMap String ResourcePerm) : InheritedOperation :=
  (walkIDs typeLevel resources).foldl
    (fun acc id => acc.addLevel ((resourcePermMap.lookup id).getD .zero)) .empty

/-- The walk of `check`: the whole type is the level `*`. -/
def calcResourceInheritedOperation : List ResourceInfo → GoMap String ResourcePerm → InheritedOperation :=
  inheritedOperation fun _ => "*"

/-- The synthetic key of the whole-type level as one resource sees it. -/
def calcResourceID (resourceID : String) : String := resourceID ++ "_*"

/-- The walk of the batch entry points. -/
def calcResourceInheritedOperationEx : List ResourceInfo → GoMap String ResourcePerm → InheritedOperation :=
  inheritedOperation calcResourceID

/-- Of the obligations in priority order, the first of each type. -/
def firstOfEachType (obligations : List PolicyObligationCalcItem) : GoMap String PolicyObligationItem :=
  obligations.foldl (fun rTmp obligation =>
    if obligation.typeID ∈ rTmp then rTmp
    else rTmp.insert obligation.typeID obligation.toPolicyObligationItem) ∅

/-- For each operation the winning obligation of each type; deleted obligations are dropped, unless
their lookup fails. -/
def calcObligationWithPriority (allowMapWithObligation : GoMap String (List PolicyObligationCalcItem)) :
    GoMap String (List PolicyObligationItem) :=
  let result : GoMap String (List PolicyObligationItem) := GoMap.filterMap
    (fun _ obligations => some (GoMap.values (firstOfEachType (svc.sort.slice obligations)))) allowMapWithObligation
  let obligationMap := GoMap.collect <| ((GoMap.values result).flatten.map (·.id)).filter fun id => id ≠ ""
  if obligationMap.keys = [] then result
  else match svc.obligationGetByIDSInternal obligationMap.keys with
    | .error _ => result
    | .ok obligations =>
      let obligationInfMap : GoMap String Json := GoMap.assign (·.id) (·.value) obligations ∅
      GoMap.filterMap (fun _ oblist =>
        let kept := oblist.filterMap fun ob =>
          if ob.id = "" then some ob
          else (obligationInfMap.lookup ob.id).map fun value => { ob with value }
        if kept.isEmpty then none else some kept) result

/-- May the accessor perform every operation on the resource? -/
def check (resource : ResourceInfo) (accessor : AccessorInfo)
    (operation : List String) (includes : List PolicCalcyIncludeType) : Except ServiceError CheckResult := do
  let accessTokens ← getAccessorIDs svc accessor
  let resources := createAncestorsResource resource
  let policies ← getPoliciesByResourcesAndAccessToken table now resources accessTokens
  let policyMap := GoMap.groupBy (·.resourceID) policies
  let resourcePermMap := calcEach svc (fun _ => requestData resource accessor) policyMap
  let inherited := calcResourceInheritedOperation resources resourcePermMap
  if !inherited.allows operation then return { result := false, operatrionOblist := ∅ }
  return {
    result := true
    operatrionOblist := if .operationObligations ∈ includes then
        calcObligationWithPriority svc inherited.allowMapWithObligation
      else ∅ }

/-- The resources of a type with policies for the accessor on which it may perform every operation. -/
def getResourceList (operation : List String) (includes : List PolicCalcyIncludeType) :
    Except ServiceError (List ResourceInfo × GoMap String (GoMap String (List PolicyObligationItem))) := do
  let accessTokens ← getAccessorIDs svc accessor
  let policies ← getPoliciesByResourceTypeAndAccessToken table now resourceTypeID accessTokens
  let policyMap := GoMap.groupBy (·.resourceID) policies
  let resourcesAncestorsMap : GoMap String (List Ancestor) := GoMap.assign (·.resourceID) (·.ancestors) policies ∅
  let resourcePermMap := calcEach svc (fun _ => none) policyMap
  let walk := fun resourceID => calcResourceInheritedOperation (createAncestorsResource
    { id := resourceID, type := resourceTypeID, ancestors := (resourcesAncestorsMap.lookup resourceID).getD [] })
      resourcePermMap
  let kept := resourcePermMap.keys.filter fun resourceID => (walk resourceID).allows operation
  return (kept.map fun resourceID => { id := resourceID, type := "" },
    if .operationObligations ∈ includes then GoMap.assign id
      (fun resourceID => calcObligationWithPriority svc (walk resourceID).allowMapWithObligation) kept ∅
    else ∅)

/-- What the batch entry points share: the levels of each requested resource by its id, and the
policies of all of them, those on the whole type apart. -/
structure Batch where
  resourceTmpMap : GoMap String (List ResourceInfo)
  resourceDataMap : GoMap String ResourceInfo
  policyMap : GoMap String (List PolicyInfo)
  typePolicies : List PolicyInfo

/-- Collect a batch. Of two resources with one id the later replaces the earlier, and the query asks
for the type of the first resource only. -/
def collectBatch (accessTokens : List String) : Except ServiceError Batch := do
  let allResources := resources.flatMap createAncestorsResource
  let policies ← getPoliciesByResourcesAndAccessToken table now allResources accessTokens
  return {
    resourceTmpMap := GoMap.assign (·.id) createAncestorsResource resources ∅
    resourceDataMap := GoMap.assign (·.id) id resources ∅
    policyMap := GoMap.groupBy (·.resourceID) (policies.filter fun policy => policy.resourceID ≠ "*")
    typePolicies := policies.filter fun policy => policy.resourceID = "*" }

/-- A level below `*` sees the data of the requested resource of its id, else an empty map. -/
def Batch.levelData (resourceID : String) : Option Json :=
  match batch.resourceDataMap.lookup resourceID with
  | some resource => some (makeDataInfo resource accessor)
  | none => some (.obj [])

/-- Judge the levels below `*`. -/
def Batch.levelPerms : GoMap String ResourcePerm :=
  calcEach svc (batch.levelData accessor) batch.policyMap

/-- The key under which the whole-type level is entered for a requested resource. -/
def typeKey : String :=
  if resource.id = "*" then "*" else calcResourceID resource.id

/-- Judge the whole-type level once for each requested resource, under its synthetic key. -/
def Batch.addTypePerms (resources : List ResourceInfo) (resourcePermMap : GoMap String ResourcePerm) :
    GoMap String ResourcePerm :=
  GoMap.assign typeKey (fun resource => calcOneResourcePerm svc (requestData resource accessor) batch.typePolicies)
    resources resourcePermMap

structure ResourceFilterResult where
  result : List ResourceInfo
  resourceOperationMap : GoMap String (List String)
  resourceOperationObligationMap : GoMap String (GoMap String (List PolicyObligationItem))

/-- The resources of a batch on which the accessor may perform every operation. -/
def resourceFilter (operation : List String) (includes : List PolicCalcyIncludeType) :
    Except ServiceError ResourceFilterResult := do
  if resources.isEmpty then return ⟨[], ∅, ∅⟩
  let accessTokens ← getAccessorIDs svc accessor
  let batch ← collectBatch table now resources accessTokens
  let resourcePermMap := batch.addTypePerms svc accessor resources (batch.levelPerms svc accessor)
  let walk := fun resource : ResourceInfo => calcResourceInheritedOperationEx
    ((batch.resourceTmpMap.lookup resource.id).getD []) resourcePermMap
  let result := resources.filter fun resource => (walk resource).allows operation
  return {
    result
    resourceOperationMap := GoMap.assign (·.id) (fun resource => (walk resource).allowMap.keys) result ∅
    resourceOperationObligationMap := if .operationObligations ∈ includes then
        GoMap.assign (·.id) (fun resource => calcObligationWithPriority svc (walk resource).allowMapWithObligation)
          result ∅
      else ∅ }

/-- The stored resource types with the given ids. -/
def getByIDsInternal (resourceTypeIDs : List String) : GoMap String ResourceType :=
  GoMap.assign (·.id) id (svc.resourceTypes.filter fun resourceType => resourceType.id ∈ resourceTypeIDs) ∅

/-- The operations of a resource type that apply to the whole type and those that apply to instances. -/
def getTypeAndInstanceOperation (resourceType : ResourceType) : GoSet String × GoSet String :=
  (GoMap.collect ((resourceType.operation.filter fun operation => .scopeType ∈ operation.scope).map (·.id)),
    GoMap.collect ((resourceType.operation.filter fun operation => .scopeInstance ∈ operation.scope).map (·.id)))

def checkOperationScope (resourceID operationID : String) (typeOperationMap instanceOperationMap : GoSet String) :
    Bool :=
  if resourceID = "*" then operationID ∈ typeOperationMap else operationID ∈ instanceOperationMap

/-- The operations allowed on each resource of a batch, within the scope of the first one's type. -/
def getResourceOperation : Except ServiceError
    (GoMap String (List String) × GoMap String (GoMap String (List PolicyObligationItem))) := do
  match resources with
  | [] => return (∅, ∅)
  | first :: _ =>
    let accessTokens ← getAccessorIDs svc accessor
    let batch ← collectBatch table now resources accessTokens
    -- unlike the filter, nothing is entered for the whole type when it has no policies
    let resourcePermMap := if batch.typePolicies.isEmpty then batch.levelPerms svc accessor
      else batch.addTypePerms svc accessor resources (batch.levelPerms svc accessor)
    let resourceType := ((getByIDsInternal svc [first.type]).lookup first.type).getD { id := "", operation := [] }
    let (typeOperationMap, instanceOperationMap) := getTypeAndInstanceOperation resourceType
    let walk := fun resource : ResourceInfo => calcResourceInheritedOperationEx
      ((batch.resourceTmpMap.lookup resource.id).getD []) resourcePermMap
    return (GoMap.assign (·.id) (fun resource => (walk resource).allowMap.keys.filter fun key =>
          checkOperationScope resource.id key typeOperationMap instanceOperationMap) resources ∅,
      GoMap.assign (·.id) (fun resource => calcObligationWithPriority svc (walk resource).allowMapWithObligation)
        resources ∅)

end

end SecurityFabric.Authorization
