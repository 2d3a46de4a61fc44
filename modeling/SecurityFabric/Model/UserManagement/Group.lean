import Mathlib.Data.List.Dedup
import SecurityFabric.Model.UserManagement.Department

/-! # Groups and the accessors of a user

A group has users and departments as members; a department stands for everyone below it. The groups of a user are those
with the user's own id or a department on their paths as a member. The query joins the names of the groups, and a row of
a group without a name cannot be read.
-/

namespace SecurityFabric.UserManagement

open GoMap

/-- A row of `t_group`. -/
structure GroupInfo where
  (id name notes : String)
deriving DecidableEq, Repr

/-- A row of `t_group_member`. Type 1 is a user and type 2 a department. -/
structure GroupMember where
  (groupID memberID : String)
  memberType : Int
deriving DecidableEq, Repr

structure GroupTables where
  groups : List GroupInfo
  members : List GroupMember
deriving DecidableEq, Repr

/-- What a request about users or groups can fail with. -/
inductive QueryError where
  | http (error : HTTPError) (ids : List String)
  /-- A column that may be null was read into a string. -/
  | scan
deriving DecidableEq, Repr

namespace GroupTables

/-- The names that the left join finds for a group; null if there is no such group. -/
def joinedNames (tables : GroupTables) (groupID : String) : List (Option String) :=
  match tables.groups.filter fun info => info.id = groupID with
  | [] => [none]
  | infos => infos.map fun info => some info.name

/-- The distinct rows of the query: the groups with one of these as a member, whatever type of member. -/
def belongRows (tables : GroupTables) (memberIDs : List String) : List (String × Option String) :=
  ((tables.members.filter fun member => member.memberID ∈ memberIDs).flatMap fun member =>
    (tables.joinedNames member.groupID).map fun name => (member.groupID, name)).dedup

/-- Read a row. -/
def scanGroup : String × Option String → Except QueryError GroupInfo
  | (id, some name) => pure ⟨id, name, ""⟩
  | (_, none) => throw .scan

def getMembersBelongGroupIDs (tables : GroupTables) (memberIDs : List String) :
    Except QueryError (List String × List GroupInfo) := do
  let groups ← (tables.belongRows memberIDs).mapM scanGroup
  pure (groups.map (·.id), groups)

end GroupTables

namespace Organisation

/-- The departments on the paths of a user; the path of the unassigned is left out. -/
def getAllBelongDepartmentIDs (org : Organisation) (userID : String) : List String :=
  removeDuplicatStrs (((((org.getUsersPath [userID]).lookup userID).getD []).filter (· ≠ unDistribute)).flatMap pathIDs)

end Organisation

/-! # What is told about users

`GetUsersBaseInfo` answers for a list of users at once. Duplicate ids are removed, and rows are read in batches. The
groups of one user after the other are found in a loop that collects the ids to look for in one variable.
-/

/-- What is asked for about a user. -/
structure UserBaseInfoRange where
  (showRoles showName showGroups : Bool)
deriving DecidableEq, Repr

structure UserBaseInfo where
  (id name : String)
  vecRoles : List Role
  groups : List GroupInfo
deriving DecidableEq, Repr

def sameUsers : QueryError := .http ⟨.badRequest, "there are same users"⟩ []

def notExisting (ids : List String) : QueryError := .http ⟨.notFound, "those users are not existing"⟩ ids

namespace Organisation

section

variable (org : Organisation) (tables : GroupTables) (userIDs : List String)

/-- The rows of users, batch after batch. -/
def getUserDBInfo : List UserDBInfo :=
  (splitArray userIDs).flatMap fun ids => org.users.filter fun info => info.id ∈ ids

/-- One round of the loop over users: the ids looked for and the groups found so far. -/
def findGroups (found : List String × GoMap String (List GroupInfo))
    (userID : String) : Except QueryError (List String × GoMap String (List GroupInfo)) := do
  let accessorIDs := found.1 ++ [userID] ++ org.getAllBelongDepartmentIDs userID
  let (_, groups) ← tables.getMembersBelongGroupIDs accessorIDs
  pure (accessorIDs, found.2.insert userID groups)

def handleUserInfo (info : UserBaseInfoRange) (groups : GoMap String (List GroupInfo))
    (userDBInfo : UserDBInfo) : UserBaseInfo where
  id := userDBInfo.id
  name := if info.showName then userDBInfo.name else ""
  vecRoles := if info.showRoles then (org.getRolesByUserID userDBInfo.id).keys else []
  groups := if info.showGroups then (groups.lookup userDBInfo.id).getD [] else []

def getUsersBaseInfo (info : UserBaseInfoRange) (bStrict : Bool) : Except QueryError (List UserBaseInfo) := do
  let distinctIDs := removeDuplicatStrs userIDs
  if bStrict ∧ userIDs.length ≠ distinctIDs.length then throw sameUsers
  let userDBInfo := org.getUserDBInfo distinctIDs
  if bStrict ∧ userDBInfo.length ≠ distinctIDs.length then
    throw (notExisting (difference distinctIDs (userDBInfo.map (·.id))))
  let (_, groups) ←
    if info.showGroups then (userDBInfo.map (·.id)).foldlM (org.findGroups tables) ([], ∅) else pure ([], ∅)
  pure (userDBInfo.map (org.handleUserInfo info groups))

end

end Organisation

/-! # Changing groups

A new group is inserted in a transaction, but the members it takes over from other groups are inserted outside of it.
The other calls use no transaction. Checks and queries that can only refuse a call before it writes are one flag.
-/

/-- Which parts of a call succeed; `writes` is about the statement for one member. -/
structure GroupStatements where
  passes : Bool := true
  addGroup : Bool := true
  addGroupMembers : Bool := true
  addOutboxInfo : Bool := true
  commit : Bool := true
  deleteGroupMemberByID : Bool := true
  deleteGroup : Bool := true
  writes : String × Int → Bool := fun _ => true

namespace GroupTables

variable (statements : GroupStatements) (tables : GroupTables)

def hasGroup (groupID : String) : Bool := groupID ∈ tables.groups.map (·.id)

/-- The members of the groups, each id once. -/
def getGroupMembers (initalGroupIDs : List String) : List GroupMember :=
  GoMap.values (assign (·.memberID) id (tables.members.filter fun member => member.groupID ∈ initalGroupIDs) ∅)

def addGroup (id name notes : String) (initalGroupIDs : List String) : GroupTables × Bool :=
  if !statements.passes || name ∈ tables.groups.map (·.name) || !decide initalGroupIDs.Nodup ||
      !initalGroupIDs.all tables.hasGroup || !statements.addGroup then (tables, false)
  else
    let memberInfos := tables.getGroupMembers initalGroupIDs
    if memberInfos ≠ [] ∧ !statements.addGroupMembers then (tables, false)
    else
      let members := tables.members ++ memberInfos.map fun info => { info with groupID := id }
      if statements.addOutboxInfo && statements.commit then (⟨tables.groups ++ [⟨id, name, notes⟩], members⟩, true)
      else (⟨tables.groups, members⟩, false)

variable (write : GroupTables → String × Int → GroupTables)

/-- One statement for each member, until one fails. -/
def forMembers : List (String × Int) → GroupTables → GroupTables × Bool
  | [], tables => (tables, true)
  | info :: infos, tables => if statements.writes info then forMembers infos (write tables info) else (tables, false)

def changeMembers (groupID : String) (infos : List (String × Int)) : GroupTables × Bool :=
  if !statements.passes || !tables.hasGroup groupID then (tables, false) else forMembers statements write infos tables

def addGroupMembers (groupID : String) : List (String × Int) → GroupTables × Bool :=
  tables.changeMembers statements (fun tables info =>
    let member : GroupMember := ⟨groupID, info.1, info.2⟩
    if member ∈ tables.members then tables else { tables with members := tables.members ++ [member] }) groupID

def deleteGroupMembers (groupID : String) : List (String × Int) → GroupTables × Bool :=
  tables.changeMembers statements (fun tables info =>
    { tables with members := tables.members.filter (· ≠ ⟨groupID, info.1, info.2⟩) }) groupID

def deleteGroup (groupID : String) : GroupTables × Bool :=
  if !statements.passes then (tables, false)
  else if !tables.hasGroup groupID then (tables, true)
  else if !statements.deleteGroupMemberByID then (tables, false)
  else
    let members := tables.members.filter fun member => member.groupID ≠ groupID
    if statements.deleteGroup then (⟨tables.groups.filter fun info => info.id ≠ groupID, members⟩, true)
      else (⟨tables.groups, members⟩, false)

end GroupTables

inductive GroupCall where
  | addGroup (id name notes : String) (initalGroupIDs : List String)
  | addGroupMembers (groupID : String) (infos : List (String × Int))
  | deleteGroupMembers (groupID : String) (infos : List (String × Int))
  | deleteGroup (groupID : String)

def GroupCall.run (tables : GroupTables) (statements : GroupStatements) : GroupCall → GroupTables × Bool
  | addGroup id name notes initalGroupIDs => tables.addGroup statements id name notes initalGroupIDs
  | addGroupMembers groupID infos => tables.addGroupMembers statements groupID infos
  | deleteGroupMembers groupID infos => tables.deleteGroupMembers statements groupID infos
  | deleteGroup groupID => tables.deleteGroup statements groupID

/-! # Users in a group

Three answers to whether a user is in a group. `UserMatch` takes the user with a display name and lists the members
through which they are in it. `SearchInAllGroupOrg` does so for all users whose names contain a key, page by page.
`GetAccessorIDsOfUser` lists the groups among everything that may be granted access in a user's stead.
-/

variable (org : Organisation) (currentTime : Int) (visitor : TypedVisitor) (userID : String)

structure NameInfo where
  (id name : String)
deriving DecidableEq, Repr

/-- A member of a group with the departments above it. -/
structure GroupMemberInfo where
  id : String
  memberType : Int
  name : String
  parentDeps : List (List NameInfo)
deriving DecidableEq, Repr

inductive VisitorType where
  | realName
  | anonymous
  | app
deriving DecidableEq, Repr

structure TypedVisitor extends Visitor where
  type : VisitorType
deriving DecidableEq, Repr

/-- A row of `t_org_perm_app`; an end of -1 stands for none. -/
structure AppOrgPerm where
  subject : String
  object : Int
  value : BitVec 32
  endTime : Int
deriving DecidableEq, Repr

/-- A row of `t_contact_person`. -/
structure ContactPerson where
  (groupID userID : String)
deriving DecidableEq, Repr

/-- A row of `t_internal_group_member`. -/
structure InternalGroupMember where
  (internalGroupID memberID : String)
  memberType : Int
deriving DecidableEq, Repr

/-- The tables that the three answers read. -/
structure Directory where
  org : Organisation
  tables : GroupTables
  appPerms : List AppOrgPerm
  contactPersons : List ContactPerson
  internalMembers : List InternalGroupMember
  upper : String → String

namespace Organisation

/-- The paths of users, batch after batch. -/
def getUsersPath2 (ids : List String) : GoMap String (List String) :=
  (splitArray ids).foldl (fun paths batch => overlay (fun _ v => v) (org.getUsersPath batch) paths) ∅

def getDepartmentInfoByIDs (deptIDs : List String) : List DepartmentDBInfo :=
  (splitArray deptIDs).flatMap org.getDepartmentInfo

/-- The id of the last row with the name, empty if there is none. -/
def getUserInfoByName (name : String) : String :=
  ((org.users.filter fun info => info.name = name).getLast?.map (·.id)).getD ""

/-- The users whose names contain the key, first those who have it as their name. -/
def searchUserInfoByName (upper : String → String) (name : String) : List UserDBInfo :=
  (org.users.filter fun info => like (("%" ++ name ++ "%").toList) info.name.toList).mergeSort fun a b =>
    if a.name = name then true else if b.name = name then false else upper a.name ≤ upper b.name

def getUserName (userIDs : List String) : List UserDBInfo :=
  (splitArray userIDs).flatMap fun ids => org.users.filter fun info => info.id ∈ ids

end Organisation

/-- The members of each of the groups. -/
def GroupTables.getGroupMembersByGroupIDs2 (tables : GroupTables) (groupIDs : List String) :
    GoMap String (List GroupMemberInfo) :=
  GoMap.concat GroupMember.groupID (fun member => [⟨member.memberID, member.memberType, "", []⟩])
    (tables.members.filter fun member => member.groupID ∈ groupIDs) ∅

/-- The last row with the id. -/
def GroupTables.getGroupByID2 (tables : GroupTables) (id : String) : GroupInfo :=
  ((tables.groups.filter fun info => info.id = id).getLast?).getD ⟨"", "", ""⟩

def noGroupAuthority (code : ErrorCode) : QueryError := .http ⟨code, "this user do not has the authority"⟩ []

namespace Directory

variable (dir : Directory)

/-- Some administrators may look at groups, and applications with the permission to read them. -/
def checkGroupGetAuth2 : Except QueryError Unit :=
  match visitor.type with
  | .realName =>
    let roleIDs := dir.org.getRolesByUserID visitor.id
    if .superAdmin ∈ roleIDs ∨ .sysAdmin ∈ roleIDs ∨ .secAdmin ∈ roleIDs ∨ .auditAdmin ∈ roleIDs then pure ()
    else throw (noGroupAuthority .forbidden)
  | .app =>
    let allPerm := assign AppOrgPerm.object id (dir.appPerms.filter fun perm =>
      perm.subject = visitor.id ∧ (perm.endTime = -1 ∨ perm.endTime > currentTime)) ∅
    match allPerm.lookup 3 with
    | some data => if data.value &&& 2 ≠ 0 then pure () else throw (noGroupAuthority .restForbidden)
    | none => throw (noGroupAuthority .restForbidden)
  | .anonymous => throw (noGroupAuthority .forbidden)

def groupNotExist : QueryError := .http ⟨.uriNotExist, "group not exist"⟩ []

def objectsInUnDistributeUserGroup : Language → String
  | .simplifiedChinese => "未分配组"
  | .traditionalChinese => "未分配組"
  | .americanEnglish => "Unassigned Group"

/-- The paths of users, and those of departments without themselves. -/
def memberPaths (userIDs departIDs : List String) : GoMap String (List (List String)) :=
  overlay (fun _ userPaths => userPaths.map pathIDs) (dir.org.getUsersPath2 userIDs)
    (assign DepartmentDBInfo.id (fun info => [(pathIDs info.path).dropLast])
      (dir.org.getDepartmentInfoByIDs departIDs) ∅)

/-- The names of the departments on these paths. -/
def depNameMap (language : Language) (paths : GoMap String (List (List String))) : GoMap String String :=
  (assign DepartmentDBInfo.id DepartmentDBInfo.name
    (dir.org.getDepartmentInfoByIDs (removeDuplicatStrs paths.values.flatten.flatten)) ∅).insert unDistribute
    (objectsInUnDistributeUserGroup language)

def handlePathParams (userIDs departIDs : List String) : GoMap String (List (List NameInfo)) × GoMap String String :=
  let paths := dir.memberPaths userIDs departIDs
  let names := dir.depNameMap visitor.language paths
  (filterMap (fun _ v => some (v.map (·.map fun id => ⟨id, (names.lookup id).getD ""⟩))) paths,
    assign DepartmentDBInfo.id DepartmentDBInfo.name (dir.org.getDepartmentInfoByIDs departIDs) ∅)

end Directory

/-- The members through which a user is in the group, given the ids on the user's paths. -/
def existMembers (userParentDeps : GoSet String) (memberInfos : List GroupMemberInfo) : List GroupMemberInfo :=
  memberInfos.filter fun v =>
    (v.memberType - 1 = 0 ∧ v.id = userID) ∨ (v.memberType - 2 = 0 ∧ v.id ∈ userParentDeps)

/-- Every id on one of the paths, that of the unassigned included. -/
def allParentDeps (paths : List String) : GoSet String := collect (paths.flatMap pathIDs)

/-- A member with its name and the departments above it. -/
def fillMember (memberPaths : GoMap String (List (List NameInfo))) (departNames : GoMap String String)
    (userName : String) (v : GroupMemberInfo) : GroupMemberInfo :=
  { v with
    parentDeps := (memberPaths.lookup v.id).getD []
    name := if v.memberType - 2 = 0 then (departNames.lookup v.id).getD "" else userName }

namespace Directory

variable (dir : Directory)

structure MatchResult where
  exist : Bool
  uInfo : GroupMemberInfo
  mInfo : List GroupMemberInfo
deriving DecidableEq, Repr

def userMatch (groupID userName : String) : Except QueryError MatchResult := do
  dir.checkGroupGetAuth2 currentTime visitor
  if (dir.tables.getGroupByID2 groupID).id = "" then throw groupNotExist
  let userID := dir.org.getUserInfoByName userName
  if userID = "" then return ⟨false, ⟨"", 0, "", []⟩, []⟩
  let memberInfos := dir.tables.getGroupMembersByGroupIDs2 [groupID]
  let paths := dir.org.getUsersPath2 [userID]
  let existGroupMember := existMembers userID (allParentDeps ((paths.lookup userID).getD []))
    ((memberInfos.lookup groupID).getD [])
  let departIDs := (existGroupMember.filter fun v => v.memberType - 2 = 0).map (·.id)
  let (memberPaths, departNames) := dir.handlePathParams visitor [userID] departIDs
  return ⟨true, ⟨userID, 0, "", (memberPaths.lookup userID).getD []⟩,
    existGroupMember.map (fillMember memberPaths departNames userName)⟩

/-- What the loop over users keeps: how many are in the group, those on the page and their members. -/
structure Paging where
  nValidIndex : Int
  existUserIDs : List String
  existGroupMember : GoMap String (List GroupMemberInfo)

section

variable (userIDs : List String) (userParentDeps : GoMap String (GoSet String)) (memberInfos : List GroupMemberInfo)
  (offset limit : Int) (paging : Paging) (userID : String)

def Paging.visit : Paging :=
  let tempMembers := existMembers userID ((userParentDeps.lookup userID).getD ∅) memberInfos
  if tempMembers = [] then paging
  else if paging.nValidIndex ≥ offset ∧ paging.existUserIDs.length < limit then
    ⟨paging.nValidIndex + 1, paging.existUserIDs ++ [userID], paging.existGroupMember.insert userID tempMembers⟩
  else { paging with nValidIndex := paging.nValidIndex + 1 }

def getExistUsersGroupMembers : Paging :=
  userIDs.foldl (Paging.visit userParentDeps memberInfos offset limit) ⟨0, [], ∅⟩

/-- The departments among the members on a page. -/
def Paging.existDepartIDs : List String :=
  removeDuplicatStrs ((paging.existGroupMember.values.flatten.filter fun v => v.memberType - 2 = 0).map (·.id))

end

structure SearchResult where
  num : Int
  userIDs : List String
  uInfos : GoMap String GroupMemberInfo
  mInfos : GoMap String (List GroupMemberInfo)

def searchInAllGroupOrg (groupID key : String) (offset limit : Int) : Except QueryError SearchResult := do
  dir.checkGroupGetAuth2 currentTime visitor
  if (dir.tables.getGroupByID2 groupID).id = "" then throw groupNotExist
  let userInfos := dir.org.searchUserInfoByName dir.upper key
  if userInfos.length = 0 then return ⟨0, [], ∅, ∅⟩
  let memberInfos := dir.tables.getGroupMembersByGroupIDs2 [groupID]
  let allUserIDs := userInfos.map (·.id)
  let allUserNames := assign UserDBInfo.id UserDBInfo.name userInfos ∅
  let userParentDeps := filterMap (fun _ paths => some (allParentDeps paths)) (dir.org.getUsersPath2 allUserIDs)
  let paging := getExistUsersGroupMembers allUserIDs userParentDeps ((memberInfos.lookup groupID).getD []) offset limit
  let (memberPaths, departNames) := dir.handlePathParams visitor paging.existUserIDs paging.existDepartIDs
  let shown := paging.existUserIDs.filter fun v => (paging.existGroupMember.lookup v).getD [] ≠ []
  let name := fun v => (allUserNames.lookup v).getD ""
  return ⟨paging.nValidIndex, paging.existUserIDs, assign id (fun v =>
    ⟨v, 0, name v, (memberPaths.lookup v).getD []⟩) shown ∅,
    assign id (fun v => ((paging.existGroupMember.lookup v).getD []).map (fillMember memberPaths departNames (name v)))
    shown ∅⟩

def userNotExist : QueryError := .http ⟨.notFound, "user does not exist"⟩ []

def getUserAllBelongContactorIDs : List String :=
  (dir.contactPersons.filter fun row => row.userID = userID).map (·.groupID)

/-- The internal groups with this member. -/
def getBelongGroups (memberID : String) (memberType : Int) : List String :=
  (dir.internalMembers.filter fun row => row.memberID = memberID ∧ row.memberType = memberType).map (·.internalGroupID)

/-- The user, the departments on their paths, and the contact groups, groups and internal groups they are in. -/
def getAccessorIDsOfUser : Except QueryError (List String) := do
  if (dir.org.getUserName [userID]).length ≠ 1 then throw userNotExist
  let deptIDs := dir.org.getAllBelongDepartmentIDs userID
  let contactorIDs := dir.getUserAllBelongContactorIDs userID
  let (groupIDs, _) ← dir.tables.getMembersBelongGroupIDs (userID :: deptIDs)
  let internalGroupIds := dir.getBelongGroups userID 1
  return userID :: deptIDs ++ contactorIDs ++ groupIDs ++ internalGroupIds

end Directory

end SecurityFabric.UserManagement
