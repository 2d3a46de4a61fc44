import SecurityFabric.Model.ShareMgnt.Common
import SecurityFabric.ToMathlib.Guarantees

/-! # Renaming departments

`edit_department` gives a department another name. The calls are those whose statements and messages do not fail. The
further fields are left out.
-/

namespace SecurityFabric.ShareMgnt

section

open UserManagement (DepartmentDBInfo)

/-- A slash and an id of 36 letters. -/
def subDepartField : String := "/____________________________________"

section

variable (sql : SqlEquality) (departments : List DepartmentDBInfo) (departId departName : String) (text : String)

/-- `is_valid_string`; a line break may follow the 128 letters. -/
def isValidString : Bool := text.toList.all (· ∉ ['\\', '/', ':', '*', '?', '"', '<', '>', '|']) ∧
    (1 ≤ text.length ∧ text.length ≤ 128 ∨ text.length = 129 ∧ text.toList.getLast? = some '\n')

/-- The name without space in front and without dots and blanks at the end. -/
def isDepartNameValid (name : Option String) : Except Failure String :=
  match name with
  | none => throw ⟨.invalidDepartName, "IDS_INVALID_DEPART_NAME", {}⟩
  | some name =>
    let stripedName := String.ofList ((name.toList.dropWhile isSpace).reverse.dropWhile (· ∈ ['.', ' '])).reverse
    if isValidString stripedName then pure stripedName else throw ⟨.invalidDepartName, "IDS_INVALID_DEPART_NAME", {}⟩

/-- The name as it is put into a statement: each percent sign is doubled. -/
def doublePercents (name : List Char) : List Char := name.flatMap fun s => if s = '%' then ['%', s] else [s]

/-- What the driver makes of percent signs when it formats a statement. -/
def formatPercents : List Char → List Char
  | '%' :: '%' :: rest => '%' :: formatPercents rest
  | letter :: rest => letter :: formatPercents rest
  | [] => []

/-- `__update_depart` for a new name: the rows, and the `new_name` of the message, if one is published. The escaping of
the name is undone where the statement is read. -/
def updateDepart : List DepartmentDBInfo × Option String :=
  let result := departments.find? fun info => sql.text info.id = sql.text departId
  let c := doublePercents departName.toList
  (departments.map fun info =>
      if sql.text info.id = sql.text departId then { info with name := String.ofList (formatPercents c) } else info,
    if result.any (·.name ≠ String.ofList c) then some (String.ofList c) else none)

/-- `edit_department` for a new name. -/
def editDepartment : Except Failure (List DepartmentDBInfo × Option String) := do
  checkDepartExists sql departments departId false
  let stripedName ← isDepartNameValid (some departName)
  let parentId := getParentId sql departments departId
  let parentPath := getDepartmentPathByDepId sql departments parentId
  if parentId ≠ "" ∧ ∃ info ∈ departments, like (parentPath ++ subDepartField).toList info.path.toList ∧
      sql.text info.name = sql.text stripedName ∧ sql.text info.id ≠ sql.text departId then
    throw ⟨.departmentHasExist, "depart exists", {}⟩
  pure (updateDepart sql departments departId stripedName)

end

end

/-! # Members of roles

`set_member` gives a user a role and `delete_member` takes it away. For organisation managers and auditors they also set
the departments that are assigned to the user. Who may do so depends on the roles of the caller, the departments of the
user and those assigned to the caller.

What is written before an exception stays written: the departments are set before a message is sent, and the role after
it.
-/

open MonadExcept (ofExcept)
open UserManagement (DepartmentDBInfo UserDepartment ResponsiblePerson Role UserRole pathIDs)

/-- The tables that roles are managed with. -/
structure RoleTables where
  /-- The ids of `t_user`. -/
  users : List String
  /-- The ids of `t_role`. -/
  roles : List Role
  userRoles : List UserRole
  /-- The users of `t_user_role_attribute`. -/
  roleAttributes : List String
  departments : List DepartmentDBInfo
  userDeparts : List UserDepartment
  responsiblePersons : List ResponsiblePerson
  /-- `t_department_audit_person`, which has the same columns. -/
  auditPersons : List ResponsiblePerson
deriving DecidableEq, Repr

/-- A function that manages roles. -/
abbrev RoleService := EStateM Failure RoleTables

/-- The roles whose members see every organisation. -/
def adminRoles : List Role := [.superAdmin, .sysAdmin, .secAdmin, .auditAdmin]

section Queries

variable (sql : SqlEquality) (tables : RoleTables)

section

variable (managerId : String) (userId : String) (roleId : Option Role)

/-- A statement takes the row for the one of the user and the role. -/
def isRowOf (roleId : Role) (row : UserRole) : Bool :=
  sql.text row.userID = sql.text userId ∧ sql.role row.roleID = sql.role roleId

/-- The roles of a user that exist. -/
def getUserRoleId : List Role :=
  tables.roles.filter fun role => tables.userRoles.any (isRowOf sql userId role)

/-- The departments assigned to a user, without those below others of them. -/
def rootids (persons : List ResponsiblePerson) : List String :=
  let ids := (persons.filter fun row => sql.text row.userID = sql.text userId).map (·.departmentID)
  ids.filter fun departId => ¬ isDescendantOfIds sql tables.departments departId ids

/-- The departments a user sees in a role. -/
def getSupervisoryIds : List String :=
  let userRoles := getUserRoleId sql tables userId
  if ∃ role ∈ userRoles, role ∈ adminRoles then (tables.departments.filter fun info => info.isRoot = 1).map (·.id)
  else if .orgAudit ∈ userRoles ∧ roleId = some .orgAudit then rootids sql tables userId tables.auditPersons
  else if .orgManager ∈ userRoles then rootids sql tables userId tables.responsiblePersons
  else []

def getSupervisoryAllDepartids : List String :=
  (getSupervisoryIds sql tables managerId roleId).flatMap (getAllDepartids sql tables.departments)

/-- The departments on the paths of a user's departments. -/
def getAllPathDeptId : List String :=
  (tables.userDeparts.filter fun row => sql.text row.userID = sql.text userId).flatMap fun row => pathIDs row.path

/-- Whether a user is in a department that the manager supervises by a role. -/
def inRange (userId memberId : String) (roleId : Role) : Bool :=
  (getAllPathDeptId sql tables memberId).any fun departId =>
    departId ∈ getSupervisoryAllDepartids sql tables userId (some roleId)

def checkUserCanManageMember (userRoles : List Role) (roleId : Role) (memberId : String) : Bool :=
  if .superAdmin ∈ userRoles ∨ .secAdmin ∈ userRoles then true
  else if (.orgManager ∈ userRoles ∧ roleId ≠ .orgAudit) ∧ inRange sql tables userId memberId .orgManager then true
  else if (.orgAudit ∈ userRoles ∧ roleId = .orgAudit) ∧ inRange sql tables userId memberId .orgAudit then true
  else false

def checkUserCanOprateRoleMember (userRoles : List Role) (roleId : Role) (memberId : String) : Bool :=
  let mayChange (own : Role) : Bool := .superAdmin ∈ userRoles ∨ .secAdmin ∈ userRoles ∨ own ∈ userRoles
  let notSelf : Bool := userId ≠ memberId ∨ .superAdmin ∈ userRoles
  checkUserCanManageMember sql tables userId userRoles roleId memberId &&
    match roleId with
    | .superAdmin => userId = userAdmin
    | .sysAdmin | .secAdmin | .auditAdmin => false
    | .orgManager => mayChange .orgManager && notSelf
    | .orgAudit => mayChange .orgAudit && notSelf
    | _ => mayChange .orgManager

end

end Queries

variable (sql : SqlEquality) (isHex : String → Bool)

def checkUserExists (tables : RoleTables) (userId : String) : Except Failure Unit :=
  if checkIsUuid isHex userId ∧ sql.text userId ∈ tables.users.map sql.text then pure ()
  else throw ⟨.userNotExist, "user not exists", {}⟩

def checkRoleExist (tables : RoleTables) (roleId : Role) : Except Failure Unit :=
  if sql.role roleId ∈ tables.roles.map sql.role then pure () else throw ⟨.roleNotExist, "IDS_ROLE_NOT_EXIST", {}⟩

/-- A table of assignments, and the role by which its range is found. -/
structure PersonTable where
  rows : RoleTables → List ResponsiblePerson
  write : RoleTables → List ResponsiblePerson → RoleTables
  roleId : Option Role

def responsiblePersonTable : PersonTable :=
  ⟨(·.responsiblePersons), fun tables rows => { tables with responsiblePersons := rows }, none⟩

def auditPersonTable : PersonTable :=
  ⟨(·.auditPersons), fun tables rows => { tables with auditPersons := rows }, some .orgAudit⟩

namespace PersonTable

variable (table : PersonTable) (tables : RoleTables)

section

variable (rows : List ResponsiblePerson) (userId : String) (departIds : List String) (managerId : Option String)

/-- The departments assigned to a user that exist. -/
def departIdsOf : List String :=
  ((table.rows tables).filter fun row => sql.text row.userID = sql.text userId ∧
    ∃ info ∈ tables.departments, sql.text info.id = sql.text row.departmentID).map (·.departmentID)

/-- All that changes has to be in the range of the manager, if there is one. -/
def checkRange : Except Failure Unit :=
  match managerId with
  | none => pure ()
  | some managerId =>
    if managerId = "" ∨ ∀ departId ∈ departIds, departId ∈
      getSupervisoryAllDepartids sql tables managerId table.roleId then pure ()
    else throw ⟨.cannotManagerDepartment, "IDS_CANNOT_MANAGER_DEPARTMENT", {}⟩

/-- A row, if it is not there. -/
def insertRow (userId departId : String) : List ResponsiblePerson :=
  if ∃ row ∈ rows, sql.text row.userID = sql.text userId ∧ sql.text row.departmentID = sql.text departId then rows
  else rows ++ [⟨userId, departId⟩]

/-- Assign these departments to a user and no others. -/
def setPerson : Except Failure RoleTables := do
  if departIds = [] then throw ⟨.orgOrDepartNotExist, "depart or organ not exists", {}⟩
  departIds.forM (checkDepartExists sql tables.departments · true)
  checkUserExists sql isHex tables userId
  let oldDepartIds := table.departIdsOf sql tables userId
  let needAdd := departIds.filter (· ∉ oldDepartIds)
  let needDelete := oldDepartIds.filter (· ∉ departIds)
  table.checkRange sql tables (needAdd ++ needDelete) managerId
  let added := needAdd.foldl (insertRow sql · userId) (table.rows tables)
  pure (table.write tables (added.filter fun row =>
    ¬ (sql.text row.userID = sql.text userId ∧ sql.text row.departmentID ∈ needDelete.map sql.text)))

/-- Assign no departments to a user. -/
def cancelPerson : Except Failure RoleTables := do
  checkUserExists sql isHex tables userId
  table.checkRange sql tables (table.departIdsOf sql tables userId) managerId
  pure (table.write tables ((table.rows tables).filter fun row => sql.text row.userID ≠ sql.text userId))

end

end PersonTable

section

variable (userId : String) (roleId : Role) (memberId : String) (tables : RoleTables)

def setResponsiblePerson := responsiblePersonTable.setPerson sql isHex tables

def cancelResponsiblePerson := responsiblePersonTable.cancelPerson sql isHex tables

def setAuditPerson := auditPersonTable.setPerson sql isHex tables

def cancelAuditPerson := auditPersonTable.cancelPerson sql isHex tables

def addRoleRelation : RoleTables :=
  if tables.userRoles.any (isRowOf sql userId roleId) then tables
  else { tables with userRoles := tables.userRoles ++ [⟨userId, roleId⟩] }

def deleteRoleRelation : RoleTables :=
  { tables with
    userRoles := tables.userRoles.filter (!isRowOf sql memberId roleId ·)
    roleAttributes :=
      if roleId ∈ adminRoles then tables.roleAttributes.filter (sql.text · ≠ sql.text memberId)
      else tables.roleAttributes }

end

/-- A message that may fail to be sent. -/
def pubNsqMsg (sent : Bool) : Except Failure Unit := if sent then pure () else throw .python

/-- The arguments of a call of `set_member` or `delete_member`, and whether its message can be sent. -/
structure MemberCall where
  userId : String
  roleId : Role
  memberId : String
  /-- The department ids of `memberInfo.manageDeptInfo`, if that is given. -/
  manageDeptInfo : Option (List String) := none
  sent : Bool := true
deriving DecidableEq, Repr

namespace MemberCall

variable (call : MemberCall)

/-- The checks in front of setting a member. -/
def checkSet (tables : RoleTables) : Except Failure Unit := do
  checkUserExists sql isHex tables call.userId
  checkRoleExist sql tables call.roleId
  checkUserExists sql isHex tables call.memberId
  if call.memberId ∈ builtInAccounts then throw ⟨.invalidMember, "IDS_INVALID_MEMBER", {}⟩
  if ¬ checkUserCanOprateRoleMember sql tables call.userId (getUserRoleId sql tables call.userId)
    call.roleId call.memberId then
    throw ⟨.invalidOperator, "IDS_INVALID_OPERATOR", {}⟩

/-- Without the information there is an error of the interpreter. -/
def departmentIds : Except Failure (List String) :=
  match call.manageDeptInfo with
  | none => throw .python
  | some departmentIds => pure departmentIds

def setMember : RoleService Unit := do
  let tables ← get
  ofExcept (call.checkSet sql isHex tables)
  let userRoles := getUserRoleId sql tables call.userId
  let managerId := if .superAdmin ∈ userRoles ∨ .secAdmin ∈ userRoles then none else some call.userId
  if call.roleId = .orgManager then
    let departIds ← ofExcept call.departmentIds
    attempt fun tables => setResponsiblePerson sql isHex tables call.memberId departIds managerId
    ofExcept (pubNsqMsg call.sent)
  if call.roleId = .orgAudit then
    let departIds ← ofExcept call.departmentIds
    attempt fun tables => setAuditPerson sql isHex tables call.memberId departIds managerId
  modify (addRoleRelation sql call.memberId call.roleId)

/-- The checks in front of deleting a member. -/
def checkDelete (tables : RoleTables) : Except Failure Unit := do
  checkUserExists sql isHex tables call.userId
  checkUserExists sql isHex tables call.memberId
  checkRoleExist sql tables call.roleId
  if !tables.userRoles.any (isRowOf sql call.memberId call.roleId) then
    throw ⟨.roleMemberNotExist, "IDS_ROLE_MEMBER_NOT_EXIST", {}⟩
  if call.memberId ∈ builtInAccounts then throw ⟨.invalidMember, "IDS_INVALID_MEMBER", {}⟩
  if ¬ checkUserCanOprateRoleMember sql tables call.userId (getUserRoleId sql tables call.userId)
    call.roleId call.memberId then
    throw ⟨.invalidOperator, "IDS_INVALID_OPERATOR", {}⟩

def deleteMember : RoleService Unit := do
  let tables ← get
  ofExcept (call.checkDelete sql isHex tables)
  if call.roleId = .orgManager then
    attempt fun tables => tryCatch (cancelResponsiblePerson sql isHex tables call.memberId (some call.userId))
      fun ex => if ex.expNum ≠ .userNotAdmin then throw ex else pure tables
    ofExcept (pubNsqMsg call.sent)
  if call.roleId = .orgAudit then
    attempt fun tables => cancelAuditPerson sql isHex tables call.memberId (some call.userId)
  modify (deleteRoleRelation sql call.roleId call.memberId)

end MemberCall

/-- A call of one of the two functions. -/
inductive RoleCall where
  | set (call : MemberCall)
  | delete (call : MemberCall)
deriving DecidableEq, Repr

namespace RoleCall

def call : RoleCall → MemberCall
  | .set call | .delete call => call

def execute : RoleCall → RoleService Unit
  | .set call => call.setMember sql isHex
  | .delete call => call.deleteMember sql isHex

end RoleCall

/-- A call has an effect on the tables whether it succeeds or not. -/
def roleStep (tables : RoleTables) (call : RoleCall) : Option RoleTables :=
  some (afterwards ((call.execute sql isHex).run tables))

end SecurityFabric.ShareMgnt
