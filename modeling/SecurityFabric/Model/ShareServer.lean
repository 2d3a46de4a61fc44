import Mathlib.Data.List.Dedup
import SecurityFabric.ToMathlib.PrefixOrder
import Mathlib.Data.List.Basic

/-! # Permissions on documents

A document is named by its path, whose text is `gns://` and the names on the way to it, parted by slashes. Names have a
fixed number of letters. A row of the permission table allows or denies an accessor some permissions on a document, or
stops the document from inheriting. The queries group the rows of a document and order the groups by the length of the
text, and otherwise in any way.

Two loops go through the groups from the document upwards, level by level: one computes the permissions, the other
checks requested ones. Times, accessor types and the expiry of rows are left out.
-/

namespace SecurityFabric.ShareServer

section

/-- A name in a path. -/
structure GnsName (size : Nat) where
  letters : List Char
  length_letters : letters.length = size + 1
  plain : ∀ letter ∈ letters, letter ≠ '/' ∧ letter ≠ ':'
deriving DecidableEq

/-- The names on the way to a document, from the document library downwards. -/
abbrev GnsPath (size : Nat) := List (GnsName size)

/-- The text of a path. -/
def GnsPath.text {size : Nat} (path : GnsPath size) : List Char :=
  "gns://".toList ++ List.intercalate ['/'] (path.map (·.letters))

def getPathDepth {size : Nat} (docId : GnsPath size) : Nat := docId.length

def getPathByDepth {size : Nat} (docId : GnsPath size) (depth : Nat) : GnsPath size := docId.take depth

/-- `f_doc_id like 'docId/%'`. -/
def below {size : Nat} (docId other : GnsPath size) : Bool := docId.isPrefixOf other && docId.length < other.length

/-- Sets of permissions, as an `int` has them. -/
abbrev PermValue := BitVec 32

def acsApDisplay : PermValue := 0x00000001

def acsApRead : PermValue := 0x00000004

def acsCpMax : PermValue := 0x000003FF

/-- `f_type`. -/
inductive PermType where
  | deny
  | allow
  | disableInherit
deriving DecidableEq, Repr

/-- A row of `t_acs_custom_perm`. -/
structure PermRow (size : Nat) where
  docId : GnsPath size
  accessorId : String
  type : PermType
  permValue : PermValue

/-- A row of `t_acs_owner`. -/
structure OwnerRow (size : Nat) where
  gnsPath : GnsPath size
  ownerId : String

variable {size : Nat}

section

variable (type : PermType) (rows : List (PermRow size)) (owners : List (OwnerRow size))

/-- `bit_or(case f_type when type then f_perm_value else 0 end)`. -/
def bitOr : PermValue :=
  rows.foldr (fun row value => (if row.type = type then row.permValue else 0) ||| value) 0

def disablesInherit : Bool := rows.any fun row => row.type = .disableInherit

/-- What the queries look at: the rows of the accessors and, for real-name users, those that stop inheriting. -/
def selected (isAnonymous : Bool) (accessToken : List String) (row : PermRow size) : Bool :=
  (!isAnonymous && row.type = .disableInherit) || row.accessorId ∈ accessToken

/-- `dbPermConfig`: what the rows of an accessor on a document come to. -/
structure DbPermConfig (size : Nat) where
  docId : GnsPath size
  accessorId : String
  (denyValue allowValue : PermValue)
  disableInherit : Bool

/-- `group by f_doc_id, f_accessor_id`. -/
def groupByAccessor : List (DbPermConfig size) :=
  (rows.map fun row => (row.docId, row.accessorId)).dedup.map fun (docId, accessorId) =>
    let group := rows.filter fun row => row.docId = docId ∧ row.accessorId = accessorId
    ⟨docId, accessorId, bitOr .deny group, bitOr .allow group, disablesInherit group⟩

/-- `order by length(f_doc_id) desc, disable_inherit asc`. -/
def deepestFirst (first second : DbPermConfig size) : Prop := first.docId.text.length > second.docId.text.length ∨
    first.docId.text.length = second.docId.text.length ∧ (first.disableInherit = true → second.disableInherit = true)

instance : DecidableRel (@deepestFirst size) := fun _ _ => inferInstanceAs (Decidable (_ ∨ _))

/-- The document and, if asked for, the documents above it. -/
def docIds (docId : GnsPath size) (withInheritedPerm : Bool) : List (GnsPath size) := docId :: if withInheritedPerm then
      ((List.range' 1 (getPathDepth docId - 1)).reverse).map (getPathByDepth docId)
    else []

/-- The rows that the query looks at. -/
def rowsFor (accessToken : List String) (docId : GnsPath size) (withInheritedPerm isAnonymous : Bool) :
    List (PermRow size) :=
  rows.filter fun row => selected isAnonymous accessToken row && row.docId ∈ docIds docId withInheritedPerm

def getPermConfigsByAccessToken (order : OrderBy (@deepestFirst size)) (rows : List (PermRow size))
    (docId : GnsPath size)
    (accessToken : List String) (withInheritedPerm isAnonymous : Bool) : List (DbPermConfig size) :=
  if getPathDepth docId = 0 ∨ accessToken = [] then []
  else
    let results := order.list <| groupByAccessor <| rowsFor rows accessToken docId withInheritedPerm isAnonymous
    results.takeWhile fun result => !result.disableInherit

/-- `dbAccessPerm`: what the rows on a document come to. -/
structure DbAccessPerm (size : Nat) where
  docId : GnsPath size
  (denyValue allowValue : PermValue)
  inherit : Bool

/-- `group by f_doc_id`, and a denial outweighs a permission. -/
def groupByDoc : List (DbAccessPerm size) :=
  (rows.map (·.docId)).dedup.map fun docId =>
    let group := rows.filter fun row => row.docId = docId
    ⟨docId, bitOr .deny group, bitOr .allow group &&& ~~~bitOr .deny group, !disablesInherit group⟩

/-- `order by length(f_doc_id) asc`. -/
def shallowFirst (first second : DbAccessPerm size) : Prop := first.docId.text.length ≤ second.docId.text.length

instance : DecidableRel (@shallowFirst size) := fun _ _ => inferInstanceAs (Decidable (_ ≤ _))

def getAccessPermsOfSubObjs (order : OrderBy (@shallowFirst size)) (rows : List (PermRow size)) (docId : GnsPath size)
    (accessToken : List String) (isAnonymous : Bool) : List (DbAccessPerm size) :=
  if accessToken = [] then []
  else order.list <| groupByDoc <|
    rows.filter fun row => selected isAnonymous accessToken row && (getPathDepth docId = 0 || below docId row.docId)

def isOwner (docId : GnsPath size) (userId : String) : Bool :=
  owners.any fun row => row.ownerId = userId ∧ row.gnsPath ∈
    (List.range' 1 (getPathDepth docId)).map (getPathByDepth docId)

/-- `GetSubObjsByUserId`. Its order by length makes no difference to its callers. -/
def getSubObjsByUserId (docId : GnsPath size) (userId : String) : List (GnsPath size) :=
  (owners.filter fun row => row.ownerId = userId ∧ (getPathDepth docId = 0 ∨ below docId row.gnsPath)).map (·.gnsPath)

end

/-- What the rows of one level come to. -/
structure Level where
  (denyValue allowValue : PermValue)
deriving DecidableEq

/-- The rows of a level are put together. -/
def Level.add (level : Level) (info : DbPermConfig size) : Level :=
  ⟨level.denyValue ||| info.denyValue, level.allowValue ||| info.allowValue⟩

/-- The loop over groups: those of one depth are put together, and each level is settled when the next one begins and at
the end. -/
def byLevel {σ ρ : Type} (settle : σ → Level → Except ρ σ) : σ → Level → Nat → List (DbPermConfig size) → Except ρ σ
  | state, tmp, _, [] => settle state tmp
  | state, tmp, tmpDepth, info :: rest =>
    if getPathDepth info.docId = tmpDepth then byLevel settle state (tmp.add info) tmpDepth rest
    else do byLevel settle (← settle state tmp) ⟨info.denyValue, info.allowValue⟩ (getPathDepth info.docId) rest

/-- `ncAccessPerm`. -/
structure AccessPerm where
  (allowValue denyValue : PermValue)
deriving DecidableEq

/-- The nearest level decides, and on one level a denial outweighs a permission. -/
def AccessPerm.settle (final : AccessPerm) (tmp : Level) : AccessPerm :=
  let tmpAllowValue := tmp.allowValue &&& ~~~tmp.denyValue
  let tmpDenyValue := tmp.denyValue &&& ~~~final.allowValue
  let tmpAllowValue := tmpAllowValue &&& ~~~final.denyValue
  ⟨final.allowValue ||| tmpAllowValue, final.denyValue ||| tmpDenyValue⟩

def calcPerm (permInfos : List (DbPermConfig size)) : AccessPerm :=
  match byLevel (fun final tmp => (.ok (final.settle tmp) : Except Empty AccessPerm)) ⟨0, 0⟩ ⟨0, 0⟩ 0 permInfos with
  | .ok final => final

inductive CheckPermCode where
  | checkOk
  | checkDeny
  | checkNotAllow
deriving DecidableEq, Repr

/-- What is still to be allowed after a level, unless that decides. -/
def checkLevel (permValue : PermValue) (tmp : Level) : Except CheckPermCode PermValue :=
  let tmpAllowValue := tmp.allowValue &&& ~~~tmp.denyValue
  if tmp.denyValue &&& permValue ≠ 0 then .error .checkDeny
  else if permValue &&& ~~~tmpAllowValue = 0 then .error .checkOk
  else .ok (permValue &&& ~~~tmpAllowValue)

def checkPerm (permInfos : List (DbPermConfig size)) (permValue : PermValue) : CheckPermCode :=
  match byLevel checkLevel permValue ⟨0, 0⟩ 0 permInfos with
  | .ok _ => .checkNotAllow
  | .error code => code

/-- The tables, the limits by address and the orders of the queries. -/
structure PermServer (size : Nat) where
  perms : List (PermRow size)
  owners : List (OwnerRow size)
  getNetDocsLimitStatus : Bool
  checkNetDocLimit : GnsPath size → String → Bool
  filterByNetDocLimit : List (GnsPath size) → String → List (GnsPath size)
  configOrder : OrderBy (@deepestFirst size)
  permOrder : OrderBy (@shallowFirst size)

/-- The order of a `set<String>`. -/
def textFirst (first second : GnsPath size) : Prop := SqlText.textLe first.text second.text = true

instance : DecidableRel (@textFirst size) := fun _ _ => inferInstanceAs (Decidable (_ = true))

/-- `curStr.find (lastFilterStr) != NO_POSITION`. -/
def holds (lastFilterStr curStr : GnsPath size) : Bool :=
  curStr.text.tails.any fun rest => lastFilterStr.text.isPrefixOf rest

/-- `subObjPermMap`. -/
def subObjPermMap (subObjPerms : List (DbAccessPerm size)) (docId : GnsPath size) : Option (DbAccessPerm size) :=
  subObjPerms.find? fun perm => perm.docId = docId

/-- The loop from a document upwards, over what the rows on each document come to. -/
def calcEntryPerm (permMap : GnsPath size → Option (DbAccessPerm size)) (docId : GnsPath size) :
    Nat → AccessPerm → AccessPerm
  | 0, final => final
  | i + 1, final =>
    match permMap (getPathByDepth docId (i + 1)) with
    | none => calcEntryPerm permMap docId i final
    | some accessPerm =>
      let tmpDenyValue := accessPerm.denyValue &&& ~~~final.allowValue
      let tmpAllowValue := accessPerm.allowValue &&& ~~~final.denyValue
      let final := ⟨final.allowValue ||| tmpAllowValue, final.denyValue ||| tmpDenyValue⟩
      if !accessPerm.inherit then final else calcEntryPerm permMap docId i final

/-- The path of the document library of a document. -/
def getCIDPath (docId : GnsPath size) : GnsPath size := docId.take 1

namespace PermServer

variable (server : PermServer size)

def getPermission (userId : String) (accessToken : List String) (gnsPath : GnsPath size) : AccessPerm :=
  if isOwner server.owners gnsPath userId then ⟨acsCpMax, 0⟩
  else calcPerm (getPermConfigsByAccessToken server.configOrder server.perms gnsPath accessToken true false)

section

variable (userId accessIp : String) (isAnonymous : Bool) (accessToken : List String)

def checkPermission (docId : GnsPath size) (reqPerm : PermValue) : CheckPermCode :=
  if !isAnonymous && server.getNetDocsLimitStatus && !server.checkNetDocLimit (getCIDPath docId)
    accessIp then .checkDeny
  else if !isAnonymous && isOwner server.owners docId userId then .checkOk
  else
    let permConfigs := getPermConfigsByAccessToken server.configOrder server.perms docId accessToken true isAnonymous
    let checkCode := checkPerm permConfigs reqPerm
    if isAnonymous ∨ checkCode = .checkOk ∨ (reqPerm ≠ acsApDisplay ∧
      reqPerm ≠ acsApDisplay ||| acsApRead) then checkCode
    else if !(getSubObjsByUserId server.owners docId userId).isEmpty then .checkOk
    else if (getAccessPermsOfSubObjs server.permOrder server.perms docId accessToken isAnonymous).any fun perm =>
      reqPerm &&& ~~~perm.allowValue = 0 then .checkOk
    else checkCode

/-- The permissions with which `listEntryDocsWithLongPath` begins. -/
def entryPerms : List (DbAccessPerm size) :=
  getAccessPermsOfSubObjs server.permOrder server.perms [] accessToken isAnonymous

/-- `docIdSet`, before documents are dropped from it. -/
def docIdSet (userId : String) (isAnonymous : Bool) (accessToken : List String) : List (GnsPath size) :=
  let displayed := (server.entryPerms isAnonymous accessToken).filter fun perm => perm.allowValue &&& acsApDisplay ≠ 0
  (displayed.map (·.docId) ++ getSubObjsByUserId server.owners [] userId).dedup.insertionSort textFirst

def listEntryDocsWithLongPath : List (GnsPath size × AccessPerm) :=
  let docIds := keepUncovered holds (server.docIdSet userId isAnonymous accessToken)
  let docIds := if accessIp ≠ "" ∧ server.getNetDocsLimitStatus then server.filterByNetDocLimit docIds accessIp
    else docIds
  docIds.map fun docId =>
    if docId ∈ getSubObjsByUserId server.owners [] userId then (docId, ⟨acsCpMax, 0⟩)
    else (docId, calcEntryPerm (subObjPermMap (server.entryPerms isAnonymous accessToken)) docId
      (getPathDepth docId) ⟨0, 0⟩)

end

end PermServer

end

/-! # Searching within the scope of a sharer

A search lists users and fills its page up with departments. Users are tested for the scope behind the query, and a page
is cut out of those that pass. The query for departments cuts out the page itself, and its rows are tested afterwards.
Where it starts is told by a count of the users, which has a loop of its own.

The queries are taken with the order in which they find rows. Where the code returns for want of organisations, no row
has one of them.
-/

/-- A row of `t_user`, with those for the user in `t_ou_user` and `t_user_department_relation`. -/
structure UserRow where
  (id loginName displayName mailAddress : String)
  csfLevel : Int
  (status autoDisableStatus : Nat)
  (ouIds departmentIds : List String)

/-- A row of `t_department`, with its row in `t_ou_department`. -/
structure DepartmentRow where
  (id name ouId parentPath : String)

structure ACSUserInfo where
  (id account visionName email : String)
  csfLevel : Int
  belongDepartId : String

structure ACSDepartInfo where
  (id name path : String)

structure PermScopeObjInfo where
  (id parentId : String)
  isUser : Bool

structure SearchConfig where
  (exactSearch onlyShareToUser showLoginAndDisplay : Bool)

/-- What a search for a sharer reads. -/
structure ScopeSearch where
  scopeInfos : List PermScopeObjInfo
  getOrgInfoByDeptId : String → List String
  getDeptRootPath : String → List String
  findUsers : String → List UserRow
  findDepartments : String → List DepartmentRow

def UserRow.info (config : SearchConfig) (user : UserRow) (belongDepartId : String) : ACSUserInfo :=
  ⟨user.id, if config.showLoginAndDisplay then user.loginName
    else "", user.displayName, user.mailAddress, user.csfLevel, belongDepartId⟩

def DepartmentRow.info (department : DepartmentRow) : ACSDepartInfo :=
  ⟨department.id, department.name, department.parentPath⟩

/-- Users that are not assigned have the department `-1`. -/
def UserRow.directDepartments (user : UserRow) : List String := user.departmentIds.filter (· ≠ "-1")

namespace ScopeSearch

variable (search : ScopeSearch) (config : SearchConfig)

def getOrgIdsByScopeInfo : List String :=
  search.scopeInfos.flatMap fun info => search.getOrgInfoByDeptId (if info.isUser then info.parentId else info.id)

def inScope (id : String) : Bool := search.scopeInfos.any (·.id = id)

def selectUsers (key : String) : List UserRow := (search.findUsers key).filter fun user =>
  user.status = 0 ∧ user.autoDisableStatus = 0 ∧ ∃ ouId ∈ user.ouIds, ouId ∈ search.getOrgIdsByScopeInfo

def selectDepartments (key : String) : List DepartmentRow :=
  (search.findDepartments key).filter (·.ouId ∈ search.getOrgIdsByScopeInfo)

def getUserRootPath (user : UserRow) : List (List String) := user.directDepartments.map search.getDeptRootPath

/-- The department that a user is shown with, if the user is in the scope. -/
def belongDepartId (user : UserRow) : Option String :=
  if search.inScope user.id then some (user.directDepartments.headD "")
  else ((search.getUserRootPath user).find? (·.any search.inScope)).map (·.getLastD "")

def viewsDepartment (department : DepartmentRow) : Bool :=
  search.inScope department.id || (search.getDeptRootPath department.id).any search.inScope

/-- The loop over users, with the number of those that have passed. -/
def pickUsers (start limit : Nat) : Nat → List UserRow → List ACSUserInfo
  | _, [] => []
  | count, user :: rest =>
    match search.belongDepartId user with
    | none => if count = start + limit then [] else pickUsers start limit count rest
    | some depart =>
      (if start ≤ count then [user.info config depart] else []) ++
        if count + 1 = start + limit then [] else pickUsers start limit (count + 1) rest

/-- The loop that counts users. It ends with the first one that is an object of the scope itself. -/
def countUsers : List UserRow → Nat
  | [] => 0
  | user :: rest =>
    if search.inScope user.id then 1
    else if (search.getUserRootPath user).any (·.any search.inScope) then countUsers rest + 1
    else countUsers rest

def searchScopeOrganizationCount (key : String) (searchDepart : Bool) : Nat :=
  search.countUsers (search.selectUsers key) +
    if !config.exactSearch && searchDepart then ((search.selectDepartments key).filter search.viewsDepartment).length
    else 0

def searchScopeOrganization (key : String) (start : Nat) (limit : Int) : List ACSUserInfo × List ACSDepartInfo :=
  if key = "" ∨ limit = 0 then ([], [])
  else
    let limit := if limit = -1 then 0x7fffffff else limit.toNat
    let userInfos := search.pickUsers config start limit 0 (search.selectUsers key)
    if !config.exactSearch && !config.onlyShareToUser && userInfos.length < limit then
      let limit := limit - userInfos.length
      let start := if 0 < userInfos.length then 0 else start - search.searchScopeOrganizationCount config key false
      let results := ((search.selectDepartments key).drop start).take limit
      (userInfos, ((results.filter search.viewsDepartment).take limit).map (·.info))
    else (userInfos, [])

end ScopeSearch

end SecurityFabric.ShareServer
