import SecurityFabric.ToMathlib.GoMap
import SecurityFabric.Machine.Run

/-! # Networks and the data built from them

`t_network_restriction` and `t_network_accessor_relation`, and the full rebuild of the decision data. A relation binds a
network to a user or a department and may outlive its network. The bounds of a network, stored as decimal text, are
numbers here. A field that the JSON encoding leaves out is the empty list.
-/

namespace SecurityFabric.PolicyManagement

section

inductive IpType where
  | ipv4
  | ipv6
deriving DecidableEq, Repr

inductive AccessorType where
  | user
  | department
deriving DecidableEq, Repr

/-- A row of `t_network_restriction`. -/
structure NetworkRestriction where
  id : String
  (segmentStart segmentEnd : Int)
  ipType : IpType
deriving DecidableEq, Repr

/-- A row of `t_network_accessor_relation`. -/
structure NetworkAccessorRelation where
  (networkId accessorId : String)
  accessorType : AccessorType
deriving DecidableEq, Repr

/-- The two tables; the id is the primary key of the first. -/
structure NetworkTables where
  networks : List NetworkRestriction
  relations : List NetworkAccessorRelation
  nodup : (networks.map (·.id)).Nodup

/-- What user management answers. -/
structure Directory where
  (getDepartUserIds getBelongDepartByUserId : String → Except String (List String))

structure NetSegment where
  (startIP endIP : Int)
deriving DecidableEq, Repr

structure UserNetworkInfo where
  departments : List String := []
  netSegements : List NetSegment := []
deriving DecidableEq, Repr

/-- The data of one address type. -/
structure NetworkData where
  users : GoMap String UserNetworkInfo
  departments : GoMap String (List NetSegment)

section

variable (tables : NetworkTables) (directory : Directory) (accessorType : AccessorType)

def getNetsByType : List NetworkAccessorRelation :=
  tables.relations.filter fun relation => relation.accessorType = accessorType

/-- The networks of each user and of each department, and the departments with a network that each user
lies in. -/
def getAllPolicies :
    Except String (GoMap String (GoSet String) × GoMap String (GoSet String) × GoMap String (GoSet String)) := do
  let useridNetsMap := GoMap.collectBy (·.accessorId) (·.networkId) (getNetsByType tables .user)
  let departmentRelations := getNetsByType tables .department
  let departmentidNetsMap := GoMap.collectBy (·.accessorId) (·.networkId) departmentRelations
  let departmentUseridsMap ← GoMap.load directory.getDepartUserIds (departmentRelations.map (·.accessorId)) ∅
  let useridDepartmentidsMap := GoMap.collectBy Prod.fst Prod.snd <|
    departmentUseridsMap.entries.flatMap fun entry => entry.2.map fun userid => (userid, entry.1)
  return (useridNetsMap, departmentidNetsMap, useridDepartmentidsMap)

/-- The segments of the networks of one address type, by id. -/
def getNetidSegMap (ipType : IpType) : GoMap String NetSegment :=
  GoMap.assign (·.id) (fun network => ⟨network.segmentStart, network.segmentEnd⟩)
    (tables.networks.filter fun network => network.ipType = ipType) ∅

/-- The segments of the ids that have one. -/
def segmentsOf (netIDSegmentMap : GoMap String NetSegment) (netIDs : GoSet String) : List NetSegment :=
  netIDs.keys.filterMap netIDSegmentMap.lookup

def convertDepartmentData (departmentidNetsMap : GoMap String (GoSet String))
    (netIDSegmentMap : GoMap String NetSegment) : GoMap String (List NetSegment) :=
  GoMap.filterMap (fun _ netIDs => some (segmentsOf netIDSegmentMap netIDs)) departmentidNetsMap

/-- The departments of each user first, then the networks of each user. -/
def convertUserData (useridNetsMap useridDepartmentidsMap : GoMap String (GoSet String))
    (netIDSegmentMap : GoMap String NetSegment) : GoMap String UserNetworkInfo :=
  GoMap.overlay (fun user netIDs => { user.getD {} with netSegements := segmentsOf netIDSegmentMap netIDs })
    useridNetsMap
    (GoMap.filterMap (fun _ departmentMap => some { departments := departmentMap.keys }) useridDepartmentidsMap)

/-- The full rebuild; an address type without networks has no data. -/
def getNetworkData : Except String (IpType → Option NetworkData) := do
  let (useridNetsMap, departmentidNetsMap, useridDepartmentidsMap) ← getAllPolicies tables directory
  return fun ipType =>
    let netIDSegmentMap := getNetidSegMap tables ipType
    if netIDSegmentMap.keys = [] then none
    else some {
      users := convertUserData useridNetsMap useridDepartmentidsMap netIDSegmentMap
      departments := convertDepartmentData departmentidNetsMap netIDSegmentMap }

end

/-! # The network decision and its incremental update

The decision engine holds the network data as one document. `accessible` is the rule set of `allow.rego` over it. A
change of a user's departments is turned into patches of the user's entries; a patch whose path is missing is skipped. A
path is the list of department ids from the root.
-/

variable (info : NetworkInfo) (accessorID : String)

/-- The document under `/network_info`. -/
structure NetworkInfo where
  data : IpType → Option NetworkData
  noPolicyAccessorEnabled : Option Bool
  isEnabled : Bool

section

variable (tables : NetworkTables) (directory : Directory) (isEnabled noPolicyEnabled : Bool)

/-- The document for the two switches; a disabled restriction loads nothing. -/
def getOPAData : Except String NetworkInfo := do
  if isEnabled then
    let data ← getNetworkData tables directory
    return { data, noPolicyAccessorEnabled := some noPolicyEnabled, isEnabled }
  else return { data := fun _ => none, noPolicyAccessorEnabled := none, isEnabled }

/-- The super, system, security and audit administrators. -/
def adminIDs : List String := ["234562BE-88FF-4440-9BFF-447F139871A2", "266c6a42-6131-4d62-8f39-853e7093701c",
    "4bb41612-a040-11e6-887d-005056920bea", "94752844-BDD0-4B9E-8927-1CA8D427E699"]

def NetSegment.contains (segment : NetSegment) (ip : Int) : Bool :=
  decide (ip ≥ segment.startIP) && decide (ip ≤ segment.endIP)

/-- A network of the user holds the address. -/
def userNetAllows (ipType : IpType) (ip : Int) : Bool :=
  (info.data ipType).any fun data => (data.users.lookup accessorID).any fun user =>
    user.netSegements.any fun segment => segment.contains ip

/-- A network of a department of the user holds the address. -/
def departmentNetAllows (ipType : IpType) (ip : Int) : Bool :=
  (info.data ipType).any fun data => (data.users.lookup accessorID).any fun user =>
    user.departments.any fun department =>
      ((data.departments.lookup department).getD []).any fun segment => segment.contains ip

/-- The user has an entry for some address type. -/
def checkUserExist : Bool :=
  [IpType.ipv4, .ipv6].any fun ipType => (info.data ipType).any fun data => (data.users.lookup accessorID).isSome

/-- `data.network.accessible`: true when one of the rules holds. -/
def accessible (ipType : IpType) (ip : Int) : Bool :=
  !info.isEnabled || decide (accessorID ∈ adminIDs) || userNetAllows info accessorID ipType ip ||
    departmentNetAllows info accessorID ipType ip ||
    (!checkUserExist info accessorID && info.noPolicyAccessorEnabled == some true)

/-- A change to the entry of a user for an address type. -/
inductive OPADataPatch where
  | addDepartments (ipType : IpType) (userId : String) (departments : List String)
  | addUser (ipType : IpType) (userId : String) (departments : List String)
  | removeDepartments (ipType : IpType) (userId : String)
  | removeUser (ipType : IpType) (userId : String)
deriving DecidableEq, Repr

/-- The department relations with the address type of their network; a missing network has none. -/
def departmentRelations : List (String × Option IpType) :=
  (getNetsByType tables .department).map fun relation =>
    (relation.accessorId, (tables.networks.find? fun network => network.id = relation.networkId).map (·.ipType))

/-- Scan the joined rows; a null address type is an error. -/
def scanRelations (rows : List (String × Option IpType)) : Except String (List (String × IpType)) :=
  rows.mapM fun (accessorId, ipType) => match ipType with
    | some ipType => .ok (accessorId, ipType)
    | none => .error "rows Scan error"

/-- The patches for one address type, given the bound departments of it and whether both types have
none. -/
def patchesFor (userId : String) (hasOwn nothing : Bool) (ipType : IpType) (ids : List String) : List OPADataPatch :=
  if ids ≠ [] then
    if hasOwn then [.addDepartments ipType userId ids] else [.addUser ipType userId ids]
  else if nothing then
    if hasOwn then [.removeDepartments ipType userId] else [.removeUser ipType userId]
  else []

/-- The patches for a user after a change that concerns the given department paths. -/
def updateUserDepartmentRelation (userId : String)
    (departmentPaths : List (List String)) : Except String (List OPADataPatch) := do
  let updateInfo := departmentPaths.any fun path =>
    tables.relations.any fun relation => decide (relation.accessorId ∈ path)
  let relations ← scanRelations (if updateInfo then departmentRelations tables else [])
  let hasOwn := tables.relations.any fun relation => decide (relation.accessorId = userId)
  if relations = [] then return []
  let departIds ← directory.getBelongDepartByUserId userId
  let idsOf := fun ipType => relations.flatMap fun relation =>
    (departIds.filter fun value => relation.2 = ipType ∧ relation.1 = value).map fun _ => relation.1
  let nothing := (idsOf .ipv4).isEmpty && (idsOf .ipv6).isEmpty
  return patchesFor userId hasOwn nothing .ipv4 (idsOf .ipv4) ++ patchesFor userId hasOwn nothing .ipv6 (idsOf .ipv6)

/-- Write one patch; if its parent, or what it removes, is missing nothing is written. -/
def NetworkData.write (data : NetworkData) : OPADataPatch → NetworkData
  | .addDepartments _ userId departments => match data.users.lookup userId with
    | some user => { data with users := data.users.insert userId { user with departments } }
    | none => data
  | .addUser _ userId departments => { data with users := data.users.insert userId { departments } }
  | .removeDepartments _ userId => match data.users.lookup userId with
    | some user => { data with users := data.users.insert userId { user with departments := [] } }
    | none => data
  | .removeUser _ userId => { data with users := data.users.erase userId }

def OPADataPatch.ipType : OPADataPatch → IpType
  | .addDepartments ipType .. | .addUser ipType .. | .removeDepartments ipType .. | .removeUser ipType .. => ipType

/-- The patch at the data of its address type; without data it is skipped. -/
def NetworkInfo.write (info : NetworkInfo) (patch : OPADataPatch) : NetworkInfo :=
  { info with data := fun ipType =>
      if ipType = patch.ipType then (info.data ipType).map fun data => data.write patch else info.data ipType }

def incrementalUpdateData (patches : List OPADataPatch) : NetworkInfo := patches.foldl NetworkInfo.write info

/-- The document after a user's departments have changed; a failed update leaves it. -/
def incrementalUpdatePolicy (userId : String)
    (departmentPaths : List (List String)) (info : NetworkInfo) : NetworkInfo :=
  match updateUserDepartmentRelation tables directory userId departmentPaths with
  | .ok patches => incrementalUpdateData info patches
  | .error _ => info

end

end

/-! # Product authorization under a quota

`t_product_relation` holds a row for each account and product it is authorized for; no key keeps a second row out. A
request sets the products of some users, the events of a created or enabled user add every product, and those of a
deleted or disabled user remove all. Each handler reads in queries of its own, decides, and writes in one transaction.
Any step before the end can fail, which leaves the table. The licences do not change.
-/

variable (quotas : GoMap String Int)

inductive VisitorType where
  | realName
  | anonymous
  | app
deriving DecidableEq, Repr

inductive Language where
  | simplifiedChinese
  | traditionalChinese
  | americanEnglish
deriving DecidableEq, Repr

inductive Role where
  | superAdmin
  | sysAdmin
  | secAdmin
  | auditAdmin
  | orgManager
  | orgAudit
  | normalUser
deriving DecidableEq, Repr

structure Visitor where
  id : String
  type : VisitorType
  language : Language
deriving DecidableEq, Repr

/-- What user management knows of a user. -/
structure UserInfo where
  name : String
  roles : GoSet Role

structure License where
  product : String
  totalUserQuota : Int
deriving DecidableEq, Repr

/-- A row of `t_product_relation`; its account type is always that of a user. -/
structure ProductInfo where
  (accountID product : String)
deriving DecidableEq, Repr

/-- Error classes of the handlers; `internal` covers failed calls, queries and transactions. -/
inductive LicenseErrorCode where
  | publicForbidden
  | productAuthorizedNotValid
  | internal
deriving DecidableEq, Repr

structure LicenseError where
  code : LicenseErrorCode
  description : String
deriving DecidableEq, Repr

/-- The licences of the given quotas, each under its product. -/
def getLicenses : GoMap String License := GoMap.filterMap (fun product quota => some ⟨product, quota⟩) quotas

/-- The licences a new user gets: those named by the `default_user_license` option, or all of them if it
is empty or cannot be read. -/
def getLicensesFromDefaultConfig (config : Option (List String)) : GoMap String License :=
  match config with
  | none => getLicenses quotas
  | some productList =>
    GoMap.assign License.product id ((GoMap.values (getLicenses quotas)).filter fun license =>
      license.product ∈ productList) ∅

/-- The products of each of the users that has any. -/
def getAuthorizedProducts (rows : List ProductInfo) (userIDs : List String) : GoMap String (List String) :=
  GoMap.concat ProductInfo.accountID (fun row => [row.product]) (rows.filter fun row => row.accountID ∈ userIDs) ∅

def getProductsAuthorizedCount (rows : List ProductInfo) (product : String) : Nat :=
  rows.countP fun row => row.product = product

/-- Product by product, remove the rows of its accounts. -/
def deleteAuthorizedProducts (rows products : List ProductInfo) : List ProductInfo :=
  (GoMap.concat ProductInfo.product (fun info => [info.accountID]) products ∅).entries.foldl
    (fun rows group => rows.filter fun row => ¬ (row.accountID ∈ group.2 ∧ row.product = group.1)) rows

def addAuthorizedProducts (rows products : List ProductInfo) : List ProductInfo := rows ++ products

def deleteUserAuthorizedProducts (rows : List ProductInfo) (userID : String) : List ProductInfo :=
  rows.filter fun row => row.accountID ≠ userID

structure LogProductInfo where
  (currentProducts futureProducts : List String)
deriving DecidableEq, Repr

/-- An audit entry, put into the outbox by the transaction. -/
inductive ProductLog where
  | added (name : String) (products : List String) (visitor : Visitor)
  | deleted (name : String) (products : List String) (visitor : Visitor)
  | updated (name : String) (products : LogProductInfo) (visitor : Visitor)
deriving DecidableEq, Repr

/-- The rows to add and to delete, the change this makes to each product, and the audit entries. -/
structure Plan where
  needAddProducts : List ProductInfo := []
  needDeleteProducts : List ProductInfo := []
  mapProductChange : GoMap String Int := ∅
  addProductUserInfos : GoMap String (List String) := ∅
  deleteProductUserInfos : GoMap String (List String) := ∅
  updateProductUserInfos : GoMap String LogProductInfo := ∅

/-- Take one user, with the products they have and those they shall have, into the plan. -/
def Plan.addUser (plan : Plan) (name userID : String) (userCurProducts userFutureProducts : List String) : Plan :=
  let added := userFutureProducts.filter (· ∉ userCurProducts)
  let deleted := userCurProducts.filter (· ∉ userFutureProducts)
  { needAddProducts := plan.needAddProducts ++ added.map (ProductInfo.mk userID)
    needDeleteProducts := plan.needDeleteProducts ++ deleted.map (ProductInfo.mk userID)
    mapProductChange := GoMap.tally (-1) deleted (GoMap.tally 1 added plan.mapProductChange)
    addProductUserInfos :=
      if userCurProducts = [] ∧ userFutureProducts ≠ [] then plan.addProductUserInfos.insert name userFutureProducts
      else plan.addProductUserInfos
    deleteProductUserInfos :=
      if userCurProducts ≠ [] ∧ userFutureProducts = [] then plan.deleteProductUserInfos.insert name userCurProducts
      else plan.deleteProductUserInfos
    updateProductUserInfos :=
      if userCurProducts ≠ [] ∧ userFutureProducts ≠ [] then
        plan.updateProductUserInfos.insert name ⟨userCurProducts, userFutureProducts⟩
      else plan.updateProductUserInfos }

/-- A request of a visitor to set the products of users, with what user management answers about them. -/
structure UpdateRequest where
  visitor : Visitor
  products : GoMap String (List String)
  userInfos : GoMap String UserInfo

/-- The roles that may set products. -/
def managingRoles : List Role := [.superAdmin, .sysAdmin, .secAdmin, .auditAdmin, .orgManager, .orgAudit]

namespace UpdateRequest

def userIDs (request : UpdateRequest) : List String := request.products.entries.map (·.1)

/-- The visitor is a real user with a managing role. -/
def authorize (request : UpdateRequest) : Except LicenseError Unit :=
  if request.visitor.type ≠ .realName then
    throw ⟨.publicForbidden, "only real name user is supported"⟩
  else if ¬ ∃ role ∈ managingRoles, ∃ info ∈ request.userInfos.lookup request.visitor.id, role ∈ info.roles then
    throw ⟨.publicForbidden, "this user has no permission to access this resource"⟩
  else pure ()

def plan (request : UpdateRequest) (curUserProducts : GoMap String (List String)) : Plan :=
  request.userIDs.foldl (fun plan userID =>
    plan.addUser (((request.userInfos.lookup userID).map UserInfo.name).getD "") userID
      ((curUserProducts.lookup userID).getD []) ((request.products.lookup userID).getD [])) {}

/-- Requested products without a licence. -/
def notExistProducts (request : UpdateRequest) (licenses : GoMap String License) : List String :=
  ((request.products.entries.flatMap (·.2)).filter (· ∉ licenses)).eraseDups

end UpdateRequest

/-- The products whose rows have to be counted: those that grow and have a quota. -/
def Plan.countedProducts (plan : Plan) (licenses : GoMap String License) : List String :=
  plan.mapProductChange.keys.filter fun product =>
    match licenses.lookup product, plan.mapProductChange.lookup product with
    | some license, some change => 0 < change ∧ license.totalUserQuota ≠ -1
    | _, _ => false

/-- The counted products the plan would take over their quota, in the order they were counted. -/
def Plan.overQuotaProducts (plan : Plan) (licenses : GoMap String License) (counts : List (String × Nat)) :
    List String :=
  (counts.filter fun entry =>
    match licenses.lookup entry.1 with
    | some license => (entry.2 : Int) + (plan.mapProductChange.lookup entry.1).getD 0 > license.totalUserQuota
    | none => false).map (·.1)

def productAuthorizedOverQuota (names : String) : Language → String
  | .simplifiedChinese => "产品“" ++ names ++ "” 用户授权数已达上限。"
  | .traditionalChinese => "產品“" ++ names ++ "” 用戶授權數已達上限。"
  | .americanEnglish => "The user license limit for products \"" ++ names ++ "\" has been reached."

def productAuthorizedNotValid (names : String) : Language → String
  | .simplifiedChinese => "产品“" ++ names ++ "” 无有效授权。"
  | .traditionalChinese => "產品“" ++ names ++ "” 無有效授權。"
  | .americanEnglish => "Product \"" ++ names ++ "\" has no valid license."

/-- The message about products over their quota and products without a licence. -/
def quotaMessage (language : Language) (overQuotaProducts notExistProducts : List String) : String :=
  (if overQuotaProducts ≠ [] then
    productAuthorizedOverQuota (",".intercalate overQuotaProducts) language ++
      (if notExistProducts ≠ [] then "\n" else "")
  else "") ++
  (if notExistProducts ≠ [] then productAuthorizedNotValid (",".intercalate notExistProducts) language else "")

/-- The audit entries of a plan. -/
def Plan.logs (plan : Plan) (visitor : Visitor) : List ProductLog :=
  plan.addProductUserInfos.entries.map (fun entry => .added entry.1 entry.2 visitor) ++
    plan.deleteProductUserInfos.entries.map (fun entry => .deleted entry.1 entry.2 visitor) ++
    plan.updateProductUserInfos.entries.map (fun entry => .updated entry.1 entry.2 visitor)

/-- The event of a created or enabled user, with the default licences configured when it is handled. -/
structure UserEvent where
  userID : String
  config : Option (List String)

inductive Handler where
  | updateAuthorizedProducts (request : UpdateRequest)
  | userAddAllProducts (event : UserEvent)
  | userDeleteAllProducts (userID : String)

/-- How far a handler has got. -/
inductive HandlerPhase where
  | waiting
  /-- Reading the products of these users, a thousand a query. -/
  | reading (userIDs : List String) (curUserProducts : GoMap String (List String))
  /-- Counting the rows of these products, one a query; those counted stand with their number. -/
  | counting (plan : Plan) (todo : List String) (counts : List (String × Nat))
  | writing (plan : Plan) (counts : List (String × Nat))
  | deleting (userID : String)
  | finished (result : Except LicenseError Unit)

/-- The table and the audit entries in the outbox. -/
structure LicenseStore where
  rows : List ProductInfo
  logs : List ProductLog

/-- The transaction of a plan. -/
def Plan.write (plan : Plan) (rows : List ProductInfo) : List ProductInfo :=
  addAuthorizedProducts (deleteAuthorizedProducts rows plan.needDeleteProducts) plan.needAddProducts

/-- The products of an event's licences that the user does not have yet. -/
def UserEvent.missingProducts (event : UserEvent) (infos : GoMap String License)
    (userAuthorizedProducts : GoMap String (List String)) : List String :=
  infos.keys.filter (· ∉ (userAuthorizedProducts.lookup event.userID).getD [])

/-- The counted products that have room for one more. -/
def UserEvent.productes (event : UserEvent) (infos : GoMap String License) (counts : List (String × Nat)) :
    List ProductInfo :=
  (counts.filter fun entry =>
    match infos.lookup entry.1 with
    | some license => ¬ (license.totalUserQuota ≠ -1 ∧ (entry.2 : Int) + 1 > license.totalUserQuota)
    | none => false).map fun entry => ⟨event.userID, entry.1⟩

namespace Handler

/-- Up to the first query on the table. -/
def begin : Handler → HandlerPhase
  | .updateAuthorizedProducts request => match request.authorize with
    | .error failure => .finished (.error failure)
    | .ok () => .reading request.userIDs ∅
  | .userAddAllProducts event =>
    if (getLicensesFromDefaultConfig quotas event.config).entries = [] then .finished (.ok ())
    else .reading [event.userID] ∅
  | .userDeleteAllProducts userID => .deleting userID

/-- From the products read to those to count. -/
def afterReading (curUserProducts : GoMap String (List String)) : Handler → HandlerPhase
  | .updateAuthorizedProducts request =>
    let plan := request.plan curUserProducts
    .counting plan (plan.countedProducts (getLicenses quotas)) []
  | .userAddAllProducts event =>
    .counting {} (event.missingProducts (getLicensesFromDefaultConfig quotas event.config) curUserProducts) []
  | .userDeleteAllProducts userID => .deleting userID

/-- From the counts to the transaction. A request over a quota is refused; an event leaves such products
out. -/
def afterCounting (plan : Plan) (counts : List (String × Nat)) : Handler → HandlerPhase
  | .updateAuthorizedProducts request =>
    let overQuotaProducts := plan.overQuotaProducts (getLicenses quotas) counts
    let notExistProducts := request.notExistProducts (getLicenses quotas)
    if notExistProducts ≠ [] ∨ overQuotaProducts ≠ [] then
      .finished (.error ⟨.productAuthorizedNotValid, quotaMessage request.visitor.language
        overQuotaProducts notExistProducts⟩)
    else .writing plan counts
  | .userAddAllProducts event =>
    let productes := event.productes (getLicensesFromDefaultConfig quotas event.config) counts
    if productes = [] then .finished (.ok ()) else .writing { needAddProducts := productes } counts
  | .userDeleteAllProducts userID => .deleting userID

/-- The audit entries a handler writes with its plan. -/
def logs (plan : Plan) : Handler → List ProductLog
  | .updateAuthorizedProducts request => plan.logs request.visitor
  | _ => []

end Handler

/-- What is open in a step: whether it fails, and which product is counted next. -/
inductive HandlerChoice where
  | proceed
  | count (product : String)
  | fail
deriving DecidableEq, Repr

/-- One step of a handler. -/
def Handler.advance (handler : Handler) :
    HandlerChoice → LicenseStore → HandlerPhase → Option (LicenseStore × HandlerPhase)
  | _, _, .finished _ => none
  | .fail, store, _ => some (store, .finished (.error ⟨.internal, ""⟩))
  | .proceed, store, .waiting => some (store, handler.begin quotas)
  | .proceed, store, .reading [] curUserProducts => some (store, handler.afterReading quotas curUserProducts)
  | .proceed, store, .reading userIDs curUserProducts =>
    some (store, .reading (userIDs.drop 1000)
      (GoMap.overlay (fun _ products => products) (getAuthorizedProducts store.rows (userIDs.take 1000))
        curUserProducts))
  | .count product, store, .counting plan todo counts =>
    if product ∈ todo then
      some (store, .counting plan (todo.erase product) (counts ++
        [(product, getProductsAuthorizedCount store.rows product)]))
    else none
  | .proceed, store, .counting plan [] counts => some (store, handler.afterCounting quotas plan counts)
  | .proceed, store, .writing plan _ =>
    some (⟨plan.write store.rows, store.logs ++ handler.logs plan⟩, .finished (.ok ()))
  | .proceed, store, .deleting userID =>
    some ({ store with rows := deleteUserAuthorizedProducts store.rows userID }, .finished (.ok ()))
  | _, _, _ => none

/-- Any number of handlers at work on one table. -/
def licenseStep (handlers : Nat → Handler) :
    Machine.Shared Nat LicenseStore HandlerPhase → Nat × HandlerChoice →
    Option (Machine.Shared Nat LicenseStore HandlerPhase) :=
  Machine.Shared.step fun i => (handlers i).advance quotas

/-- A table on which no handler has started. -/
def licenseStart (rows : List ProductInfo) : Machine.Shared Nat LicenseStore HandlerPhase :=
  ⟨⟨rows, []⟩, fun _ => .waiting⟩

/-- No product with a quota has more rows than that. -/
def WithinQuota (rows : List ProductInfo) : Prop :=
  ∀ product quota, quotas.lookup product = some quota → quota ≠ -1 →
    (getProductsAuthorizedCount rows product : Int) ≤ quota

end SecurityFabric.PolicyManagement
