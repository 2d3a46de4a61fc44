import Mathlib.Data.String.Basic
import SecurityFabric.ToMathlib.GoStrings
import SecurityFabric.ToMathlib.SqlLike
import SecurityFabric.Machine.Run
import SecurityFabric.ToMathlib.LevelClosure

/-! # Slices of ids

The helpers of `logics/common.go` on slices of strings. Sorting compares strings by their letters, which
for UTF-8 is the order of their bytes.
-/

namespace SecurityFabric.UserManagement

section

/-- Keep the first of each run of equal neighbours. -/
def removeAdjacent : List String → List String
  | [] => []
  | [x] => [x]
  | x :: y :: rest => if x = y then removeAdjacent (y :: rest) else x :: removeAdjacent (y :: rest)

/-- Sort, then leave out neighbours that are equal. -/
def removeDuplicatStrs (s : List String) : List String := removeAdjacent (s.mergeSort fun a b => a ≤ b)

/-- The batches of 500 in which ids are given to a query; only the last one may be shorter. -/
def splitArray (arr : List String) : List (List String) :=
  let length := 500
  let count := arr.length / length + if arr.length % length ≠ 0 then 1 else 0
  (List.range count).map fun i =>
    if i ≠ count - 1 then (arr.take ((i + 1) * length)).drop (i * length) else arr.drop (i * length)

def difference (a b : List String) : List String := a.filter fun v => v ∉ b

def intersection (a b : List String) : List String := a.filter fun v => v ∈ b

/-! # The tables of an organisation and their queries

A department has an id and a path, the ids from its root down to itself joined by slashes. Two further tables repeat
what the paths say: the parent and the root of each department. A user has a row for each of their departments, with its
path, and the row of `-1` if they are in none; `t_ou_user` names the roots below which they are. The organisation
managers a department is assigned to are its responsible persons. Queries return rows in table order and compare strings
exactly.
-/

variable (org : Organisation)

/-- A row of `t_department`. -/
structure DepartmentDBInfo where
  (id name : String)
  isRoot : Int
  path : String
deriving DecidableEq, Repr

/-- A row of `t_department_relation`. -/
structure DepartmentRelation where
  (departmentID parentDepartmentID : String)
deriving DecidableEq, Repr

/-- A row of `t_ou_department`. -/
structure OUDepartment where
  (departmentID ouID : String)
deriving DecidableEq, Repr

/-- A row of `t_user_department_relation`. -/
structure UserDepartment where
  (userID departmentID path : String)
deriving DecidableEq, Repr

/-- A row of `t_ou_user`. -/
structure OUUser where
  (userID ouID : String)
deriving DecidableEq, Repr

/-- A row of `t_department_responsible_person`. -/
structure ResponsiblePerson where
  (userID departmentID : String)
deriving DecidableEq, Repr

/-- The roles of the system, and any other. -/
inductive Role where
  | superAdmin
  | sysAdmin
  | secAdmin
  | auditAdmin
  | orgManager
  | orgAudit
  | normalUser
  | other (id : String)
deriving DecidableEq, Repr

/-- A row of `t_user_role_relation`. -/
structure UserRole where
  userID : String
  roleID : Role
deriving DecidableEq, Repr

/-- A row of `t_user`. -/
structure UserDBInfo where
  (id name : String)
deriving DecidableEq, Repr

inductive Language where
  | simplifiedChinese
  | traditionalChinese
  | americanEnglish
deriving DecidableEq, Repr

structure Visitor where
  id : String
  language : Language
deriving DecidableEq, Repr

/-- Messages a deletion puts into the outbox. -/
inductive DepartmentMsg where
  | departDeleted (id : String)
  | orgManagerChange (ids : List String)
  | topDepartDeletedLog (visitor : Visitor) (name : String) (root : Bool)
deriving DecidableEq, Repr

structure Organisation where
  users : List UserDBInfo
  departments : List DepartmentDBInfo
  relations : List DepartmentRelation
  ouDepartments : List OUDepartment
  userDeparts : List UserDepartment
  ouUsers : List OUUser
  responsiblePersons : List ResponsiblePerson
  userRoles : List UserRole
  outbox : List DepartmentMsg
deriving DecidableEq, Repr

/-- Error codes of `errors` and of the `rest` library. -/
inductive ErrorCode where
  | badRequest
  | forbidden
  | restForbidden
  | notFound
  | uriNotExist
  | internal
deriving DecidableEq, Repr

structure HTTPError where
  code : ErrorCode
  description : String
deriving DecidableEq, Repr

/-- The row of an unassigned user has this as its department and as its path. -/
def unDistribute : String := "-1"

/-- The ids on a path. -/
def pathIDs (path : String) : List String := GoStrings.split path '/'

/-- What `f_path like ?` asks of a path, for the argument `path + "%"`. -/
def pathLike (path fPath : String) : Bool := like ((path ++ "%").toList) fPath.toList

def getRootByPath (path : String) : String := (pathIDs path).headD ""

namespace Organisation

def getDepartmentInfo (deptIDs : List String) : List DepartmentDBInfo :=
  org.departments.filter fun info => info.id ∈ deptIDs

/-- The departments at and below a path. -/
def getAllSubDepartInfosByPath (path : String) : List DepartmentDBInfo :=
  org.departments.filter fun info => pathLike path info.path

def getAllOrgManagerIDsByDepartIDs (departIDs : List String) : List String :=
  (org.responsiblePersons.filter fun row => row.departmentID ∈ departIDs).map (·.userID)

/-- The users with a row at or below a path, once for each row. -/
def getAllSubUserIDsByDepartPath (path : String) : List String :=
  (org.userDeparts.filter fun row => pathLike path row.path).map (·.userID)

/-- The paths of each of the users that has a row. -/
def getUsersPath (ids : List String) : GoMap String (List String) :=
  GoMap.concat UserDepartment.userID (fun row => [row.path]) (org.userDeparts.filter fun row => row.userID ∈ ids) ∅

/-- The departments assigned to a manager. -/
def getOrgManagerDepartInfo (userID : String) : List String :=
  if userID = "" then []
  else (org.responsiblePersons.filter fun row => row.userID = userID).map (·.departmentID)

/-- The accounts of the built-in administrators. -/
def adminIDs : List String :=
  ["266c6a42-6131-4d62-8f39-853e7093701c", "94752844-BDD0-4B9E-8927-1CA8D427E699",
    "4bb41612-a040-11e6-887d-005056920bea"]

/-- The roles of a user; everyone but the built-in administrators is also a normal user. -/
def getRolesByUserID (userID : String) : GoSet Role :=
  GoMap.collect (((org.userRoles.filter fun row => row.userID = userID).map (·.roleID)) ++
    if userID ∈ adminIDs then [] else [.normalUser])

end Organisation

end

/-! # Deleting a department

`DeleteDepart` first collects what goes: the users at or below the department who have to be moved to the unassigned
group, those who lose their organisation, the departments at and below it, and the managers concerned. It then deletes
and inserts in one transaction, selecting rows by path or by the ids collected, and queues its messages. Several calls
take one query or the transaction at a time, which can also fail and then leaves the tables.
-/

section

open Machine

variable (org : Organisation) (visitor : Option Visitor)

def departDeleteNotContain : Language → String
  | .simplifiedChinese => "用户无法删除自己所在的部门"
  | .traditionalChinese => "使用者無法刪除自己所在的部門"
  | .americanEnglish => "The user can't delete his department."

def noAuthority : HTTPError := ⟨.forbidden, "this user do not has the authority"⟩

namespace Organisation

section

variable (visitor : Visitor) (departInfo : DepartmentDBInfo)

/-- The first part of `checkDepartInScope`: who may go on to have their range looked at, and who needs
not. -/
def checkVisitor : Except HTTPError Bool :=
  let roles := org.getRolesByUserID visitor.id
  if .superAdmin ∈ roles ∨ .sysAdmin ∈ roles then pure false
  else if .orgManager ∈ roles then
    if departInfo.path ∈ ((org.getUsersPath [visitor.id]).lookup visitor.id).getD [] then
      throw ⟨.restForbidden, departDeleteNotContain visitor.language⟩
    else pure true
  else throw noAuthority

/-- The second part, for an organisation manager: the path of an assigned department occurs in the path. -/
def checkRange : Except HTTPError Unit :=
  let rangeDepartInfos := org.getDepartmentInfo (org.getOrgManagerDepartInfo visitor.id)
  if rangeDepartInfos.any fun range => GoStrings.contains departInfo.path range.path then pure ()
  else throw noAuthority

def checkDepartInScope : Except HTTPError Unit := do
  if ← org.checkVisitor visitor departInfo then org.checkRange visitor departInfo

end

end Organisation

section

variable (path : String) (userPaths : List String) (allUserPaths : GoMap String (List String))

/-- Some path of the user does not contain the path of the department. -/
def notNeedMove : Bool := userPaths.any fun v => !GoStrings.contains v path

/-- One of these is under the same root. -/
def notNeedDeleteOU : Bool :=
  userPaths.any fun v => !GoStrings.contains v path && getRootByPath v == getRootByPath path

def needAddToUnDistributeIDs : List String :=
  (allUserPaths.entries.filter fun entry => !notNeedMove path entry.2).map (·.1)

def needDeleteOUIDs : List String :=
  (allUserPaths.entries.filter fun entry => !notNeedDeleteOU path entry.2).map (·.1)

end

/-- What the transaction of a deletion works with. -/
structure DeletePlan where
  depart : DepartmentDBInfo
  (needAddToUnDistributeIDs needDeleteOUIDs allDepIDs allOrgManagerIDs : List String)
deriving DecidableEq, Repr

namespace Organisation

/-- From the users' paths and the departments below to the plan. -/
def planDeletion (depart : DepartmentDBInfo) (allUserPaths : GoMap String (List String)) : DeletePlan :=
  let subDeparts := org.getAllSubDepartInfosByPath depart.path
  let allDepartIDs := GoMap.collect (subDeparts.flatMap fun info => pathIDs info.path)
  { depart
    needAddToUnDistributeIDs := UserManagement.needAddToUnDistributeIDs depart.path allUserPaths
    needDeleteOUIDs := UserManagement.needDeleteOUIDs depart.path allUserPaths
    allDepIDs := subDeparts.map (·.id)
    allOrgManagerIDs := org.getAllOrgManagerIDsByDepartIDs allDepartIDs.keys }

def handleDeletedDepartInfo (depart : DepartmentDBInfo) : DeletePlan :=
  org.planDeletion depart (org.getUsersPath (org.getAllSubUserIDsByDepartPath depart.path))

def deleteUserDepartRelationByPath (path : String) : Organisation :=
  { org with userDeparts := org.userDeparts.filter fun row => ¬ pathLike path row.path }

def addUserToDepart (userIDs : List String) (departID departPath : String) : Organisation :=
  { org with userDeparts := org.userDeparts ++ userIDs.map fun userID => ⟨userID, departID, departPath⟩ }

def deleteUserOURelation (userIDs : List String) (orgID : String) : Organisation :=
  { org with ouUsers := org.ouUsers.filter fun row => ¬ (row.userID ∈ userIDs ∧ row.ouID = orgID) }

def deleteDepartByPath (path : String) : Organisation :=
  { org with departments := org.departments.filter fun info => ¬ pathLike path info.path }

def deleteDepartRelations (departIDs : List String) : Organisation :=
  { org with relations := org.relations.filter fun row => row.departmentID ∉ departIDs }

def deleteDepartOURelations (departIDs : List String) : Organisation :=
  { org with ouDepartments := org.ouDepartments.filter fun row => row.departmentID ∉ departIDs }

def deleteDepartInfo (plan : DeletePlan) : Organisation :=
  ((((((org.deleteUserDepartRelationByPath plan.depart.path).addUserToDepart plan.needAddToUnDistributeIDs
    unDistribute unDistribute).deleteUserOURelation plan.needDeleteOUIDs (getRootByPath plan.depart.path)
    ).deleteDepartByPath plan.depart.path).deleteDepartRelations plan.allDepIDs).deleteDepartOURelations plan.allDepIDs)

def addOutboxInfos (msgs : List DepartmentMsg) : Organisation := { org with outbox := org.outbox ++ msgs }

end Organisation

/-- A visitor that the public interface names; the private one has none. -/
def publicVisitor : Option Visitor := visitor.filter fun visitor => visitor.id ≠ ""

/-- One message for each department, one about the managers, and the audit entry of a visitor. -/
def DeletePlan.messages (plan : DeletePlan) (visitor : Option Visitor) : List DepartmentMsg :=
  plan.allDepIDs.map .departDeleted ++ [.orgManagerChange plan.allOrgManagerIDs] ++
    (publicVisitor visitor).toList.map fun visitor =>
      .topDepartDeletedLog visitor plan.depart.name (0 < plan.depart.isRoot)

namespace Organisation

def writeDeletion (plan : DeletePlan) : Organisation :=
  (org.deleteDepartInfo plan).addOutboxInfos (plan.messages visitor)

/-- The department to delete; its id is a key of the table. -/
def findDepart (id : String) : Except HTTPError DepartmentDBInfo :=
  match org.getDepartmentInfo [id] with
  | [depart] => pure depart
  | _ => throw ⟨.uriNotExist, "this department do not exist"⟩

/-- A call of `DeleteDepart` by itself. -/
def deleteDepart (id : String) : Except HTTPError Organisation := do
  let depart ← org.findDepart id
  match publicVisitor visitor with
  | some visitor => org.checkDepartInScope visitor depart
  | none => pure ()
  pure (org.writeDeletion visitor (org.handleDeletedDepartInfo depart))

end Organisation

structure DeleteCall where
  visitor : Option Visitor
  id : String
deriving DecidableEq, Repr

/-- How far a call has got; each phase but the last has one query or the transaction before it. -/
inductive DeletePhase where
  | waiting
  | checkingVisitor (visitor : Visitor) (depart : DepartmentDBInfo)
  | checkingRange (visitor : Visitor) (depart : DepartmentDBInfo)
  | listingUsers (depart : DepartmentDBInfo)
  | readingPaths (depart : DepartmentDBInfo) (allUserIDs : List String)
  | listingDeparts (depart : DepartmentDBInfo) (allUserPaths : GoMap String (List String))
  | writing (plan : DeletePlan)
  | finished (result : Except HTTPError Unit)

inductive DeleteChoice where
  | proceed
  | fail
deriving DecidableEq, Repr

/-- Go on with the value of a query, or end with its error. -/
def DeletePhase.after {α : Type} (result : Except HTTPError α) (next : α → DeletePhase) : DeletePhase :=
  match result with
  | .ok value => next value
  | .error failure => .finished (.error failure)

/-- The query or transaction of a phase. The tables of roles and of responsible persons are read along
with the tables that a deletion changes, since no deletion changes them. -/
def DeleteCall.proceed (call : DeleteCall) (org : Organisation) : DeletePhase → Option (Organisation × DeletePhase)
  | .waiting => some (org, .after (org.findDepart call.id) fun depart =>
      match publicVisitor call.visitor with
      | some visitor => .checkingVisitor visitor depart
      | none => .listingUsers depart)
  | .checkingVisitor visitor depart => some (org, .after (org.checkVisitor visitor depart) fun ranged =>
      if ranged then .checkingRange visitor depart else .listingUsers depart)
  | .checkingRange visitor depart =>
    some (org, .after (org.checkRange visitor depart) fun _ => .listingUsers depart)
  | .listingUsers depart => some (org, .readingPaths depart (org.getAllSubUserIDsByDepartPath depart.path))
  | .readingPaths depart allUserIDs => some (org, .listingDeparts depart (org.getUsersPath allUserIDs))
  | .listingDeparts depart allUserPaths => some (org, .writing (org.planDeletion depart allUserPaths))
  | .writing plan => some (org.writeDeletion call.visitor plan, .finished (.ok ()))
  | .finished _ => none

def DeleteCall.advance (call : DeleteCall) (choice : DeleteChoice) (org : Organisation) (phase : DeletePhase) :
    Option (Organisation × DeletePhase) :=
  match choice, phase with
  | _, .finished _ => none
  | .fail, _ => some (org, .finished (.error ⟨.internal, ""⟩))
  | .proceed, phase => call.proceed org phase

/-- Calls at work on one organisation. -/
def deleteStep {ι : Type} [DecidableEq ι] (calls : ι → DeleteCall) :
    Shared ι Organisation DeletePhase → ι × DeleteChoice → Option (Shared ι Organisation DeletePhase) :=
  Shared.step fun i => (calls i).advance

def deleteStart {ι : Type} : Shared ι Organisation DeletePhase := ⟨org, fun _ => .waiting⟩

end

/-! # The range of a manager

The departments assigned to an organisation manager or auditor stand for everything below them. The code finds what is
below in four ways: level by level in the table of parents, with and without remembering what it has met, and by the
paths of departments and of users. The loops over levels get fuel.
-/

open LevelClosure GoMap

variable (org : Organisation) (auditPersons : List AuditPerson) (fuel : Nat)

/-- A row of `t_department_audit_person`. -/
structure AuditPerson where
  (userID departmentID : String)
deriving DecidableEq, Repr

structure OrgManagerInfo where
  id : String
  subUserIDs : List String
deriving DecidableEq, Repr

namespace Organisation

section

variable (managerID : String) (role : Role) (userIDs : List String) (deptIDs : List String)

/-- The departments whose parent is one of these. -/
def getChildDepartmentIDs : List String :=
  (org.relations.filter fun row => row.parentDepartmentID ∈ deptIDs).map (·.departmentID)

/-- The departments of a user; the row of the unassigned is left out. -/
def getDirectBelongDepartmentIDs (userID : String) : List String :=
  if userID = "" then []
  else ((org.userDeparts.filter fun row => row.userID = userID).map (·.departmentID)).filter (· ≠ unDistribute)

/-- The departments assigned to each of the managers. -/
def getOrgManagersDepartInfo : GoMap String (List String) :=
  GoMap.concat ResponsiblePerson.userID (fun row => [row.departmentID]) (org.responsiblePersons.filter fun row =>
    row.userID ∈ userIDs) ∅

/-- The query of this name in `dbaccess`. -/
def queryUsersInDepartments (userIDs departmentIDs : List String) : List String :=
  (org.userDeparts.filter fun row => row.userID ∈ userIDs ∧ row.departmentID ∈ departmentIDs).map (·.userID)

/-- The departments assigned to an auditor. -/
def getOrgAduitDepartInfo (userID : String) : List String :=
  if userID = "" then [] else (auditPersons.filter fun row => row.userID = userID).map (·.departmentID)

/-- Everything below the departments, by a loop that remembers what it has met. -/
def getAllChildDeparmentIDs : Option (List String) :=
  (collectFresh org.getChildDepartmentIDs fuel deptIDs ∅).map AList.keys

/-- The departments and everything below them, by their paths. -/
def getAllChildDeparmentIDsByIDs : List String :=
  (collect ((org.getDepartmentInfo deptIDs).flatMap fun info =>
    (org.getAllSubDepartInfosByPath info.path).map (·.id))).keys

/-- The ids of those of the departments on whose paths none of the others is, as far as the paths are compared as
strings. -/
def filterTopDepartments (depIDs : List String) : List String :=
  let infos := org.getDepartmentInfo depIDs
  (infos.filter fun info => !infos.any fun other => GoStrings.contains info.path other.path &&
    other.id ≠ info.id).map (·.id)

/-- Whether each of these groups of departments meets the given ones or something below them. -/
def checkBelow (depIDs : List String) (departIDs : List (List String)) : Option (List Bool) :=
  (collect org.getChildDepartmentIDs fuel depIDs depIDs).map fun allDepIDs =>
    departIDs.map fun v => 0 < (intersection v (removeDuplicatStrs allDepIDs)).length

/-- The administrators have no range, and a role without one has nothing in it. -/
def checkDepInRange (roleID : Role) (departIDs : List (List String)) : Option (List Bool) :=
  match roleID with
  | .superAdmin | .sysAdmin | .secAdmin | .auditAdmin => some (departIDs.map fun _ => true)
  | .orgAudit => org.checkBelow fuel (getOrgAduitDepartInfo auditPersons managerID) departIDs
  | .orgManager => org.checkBelow fuel (org.getOrgManagerDepartInfo managerID) departIDs
  | .normalUser | .other _ => some (departIDs.map fun _ => false)

def checkUserInRange : Option (List Bool) :=
  org.checkDepInRange auditPersons fuel managerID role (userIDs.map org.getDirectBelongDepartmentIDs)

end

/-- The users below the departments of each manager. -/
def getOrgManagersInfo (orgIDs : List String) (showSubUserIDs : Bool) : List OrgManagerInfo :=
  if showSubUserIDs then
    let orgManagerDepInfos := org.getOrgManagersDepartInfo orgIDs
    let depInfos := org.getDepartmentInfo orgManagerDepInfos.values.flatten
    let depSubUsersIDs := assign DepartmentDBInfo.id (fun info => org.getAllSubUserIDsByDepartPath info.path) depInfos ∅
    orgIDs.map fun id => ⟨id, removeDuplicatStrs (((orgManagerDepInfos.lookup id).getD []).flatMap fun depID =>
      (depSubUsersIDs.lookup depID).getD [])⟩
  else []

def getUsersInDepartments (userIDs departmentIDs : List String) : List String :=
  if userIDs.length = 0 ∨ departmentIDs.length = 0 then []
  else removeDuplicatStrs (org.queryUsersInDepartments userIDs departmentIDs)

/-- Of the users and of the departments, those in the range. -/
def getUserAndDepartmentInScope (userIDs deptIDs rangeIDs : List String) : Option (List String × List String) :=
  (org.getAllChildDeparmentIDs fuel rangeIDs).map fun children =>
    let scopeAllDepIDs := removeDuplicatStrs (children ++ rangeIDs)
    (org.getUsersInDepartments userIDs scopeAllDepIDs, removeDuplicatStrs (intersection deptIDs scopeAllDepIDs))

end Organisation

end SecurityFabric.UserManagement
