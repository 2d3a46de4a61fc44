import SecurityFabric.Proofs.UserManagement.DepartmentForest
import SecurityFabric.Model.ShareMgnt.DepartmentManage

/-! # Departments by their paths, in a forest

In a forest, the departments that the service finds by the path of a department are in its subtree.
-/

namespace SecurityFabric.ShareMgnt

section

open UserManagement List

/-- A department is in the subtree of another one. -/
def Below (sql : SqlEquality) (departments : List DepartmentDBInfo) (departId top : String) : Prop :=
  ∃ info ∈ departments, sql.text info.id = sql.text top ∧ departId ∈ subtreeIDs departments info

/-- The database tells the ids of departments apart. -/
def DistinctIDs (sql : SqlEquality) (departments : List DepartmentDBInfo) : Prop :=
  ∀ info ∈ departments, ∀ other ∈ departments, sql.text info.id = sql.text other.id → info = other

variable {sql : SqlEquality} {departments : List DepartmentDBInfo} {departId top : String}
  (forest : DepartmentForest departments)

include forest

private theorem below_of_mem_getAllDepartids (found : departId ∈ getAllDepartids sql departments top) :
    Below sql departments departId top := by
  dsimp only [getAllDepartids] at found
  split_ifs at found with group noPath
  · cases found
  · cases found
  · unfold getDepartmentPathByDepId at found noPath
    rw [if_neg group] at found noPath
    cases looked : departments.find? fun info => sql.text info.id = sql.text top with
    | none => exact absurd (by rw [looked]; rfl) noPath
    | some info =>
      have mem := mem_of_find?_eq_some looked
      refine ⟨info, mem, by simpa using find?_some looked, ?_⟩
      rw [looked] at found
      obtain ⟨low, isLow, rfl⟩ := mem_map.mp found
      obtain ⟨lowMem, like⟩ := mem_filter.mp isLow
      refine mem_map_of_mem (mem_filter.mpr ⟨lowMem, decide_eq_true ?_⟩)
      exact (pathLike_iff (forest.pathOfIDs info mem) (forest.pathOfIDs low lowMem)).mp like

theorem below_trans (distinct : DistinctIDs sql departments) : IsTrans String (Below sql departments) where
  trans := by
    rintro lowest _ _ ⟨middle, middleMem, sameMiddle, under⟩ ⟨top, topMem, sameTop, within⟩
    obtain ⟨between, isBetween, rfl⟩ := mem_map.mp within
    obtain rfl := distinct middle middleMem between (mem_filter.mp isBetween).1 sameMiddle
    obtain ⟨low, isLow, rfl⟩ := mem_map.mp under
    have lowMem := (mem_filter.mp isLow).1
    rw [forest.mem_subtreeIDs lowMem] at under
    rw [forest.mem_subtreeIDs middleMem] at within
    exact ⟨top, topMem, sameTop, (forest.mem_subtreeIDs lowMem).mpr (within.trans under)⟩

end

/-! # What a call does to roles and assignments

A caller who holds none of the roles of administrators has a range: the subtrees of the departments assigned to them.
All that such a call can change is collected in `Delegated`: at most the membership it is about, and assignments of
departments in the range.
-/

open UserManagement List EStateM

variable {sql : SqlEquality} {isHex : String → Bool} {tables after : RoleTables} {userId departId : String}
variable {departIds : List String}

/-- The user holds none of the roles of administrators. -/
def Unprivileged (sql : SqlEquality) (tables : RoleTables) (userId : String) : Prop :=
  ∀ role ∈ getUserRoleId sql tables userId, role ∉ adminRoles

instance (sql : SqlEquality) (tables : RoleTables) (userId : String) : Decidable (Unprivileged sql tables userId) :=
  inferInstanceAs (Decidable (∀ role ∈ getUserRoleId sql tables userId, role ∉ adminRoles))

namespace PersonTable

/-- The departments that a user supervises are below those assigned to the user in the table. -/
def Supervises (sql : SqlEquality) (table : PersonTable) (tables : RoleTables) (userId : String) : Prop :=
  ∀ departId ∈ getSupervisoryAllDepartids sql tables userId table.roleId,
    ∃ row ∈ table.rows tables, Below sql tables.departments departId row.departmentID

private theorem supervises_of_ids {table : PersonTable} (forest : DepartmentForest tables.departments)
    (assigned : ∀ top ∈ getSupervisoryIds sql tables userId table.roleId, ∃ row ∈ table.rows tables,
      row.departmentID = top) : table.Supervises sql tables userId := by
  intro departId within
  obtain ⟨top, isTop, under⟩ := mem_flatMap.mp within
  obtain ⟨row, isRow, rfl⟩ := assigned top isTop
  exact ⟨row, isRow, below_of_mem_getAllDepartids forest under⟩

end PersonTable

private theorem mem_of_mem_rootids {persons : List ResponsiblePerson} {top : String}
    (mem : top ∈ rootids sql tables userId persons) :
    ∃ row ∈ persons, row.departmentID = top := by
  obtain ⟨row, isRow, isTop⟩ := mem_map.mp (mem_filter.mp mem).1
  exact ⟨row, mem_of_mem_filter isRow, isTop⟩

private theorem getSupervisoryIds_of_unprivileged (unprivileged : Unprivileged sql tables userId)
    (roleId : Option Role) : getSupervisoryIds sql tables userId roleId =
      if .orgAudit ∈ getUserRoleId sql tables userId ∧
      roleId = some .orgAudit then rootids sql tables userId tables.auditPersons
      else if .orgManager ∈ getUserRoleId sql tables userId then rootids sql tables userId tables.responsiblePersons
        else [] := by
  have noAdmin : ¬ ∃ role ∈ getUserRoleId sql tables userId, role ∈ adminRoles := by
    rintro ⟨role, held, isAdmin⟩
    exact unprivileged role held isAdmin
  exact if_neg noAdmin

theorem responsible_supervises (forest : DepartmentForest tables.departments)
    (unprivileged : Unprivileged sql tables userId) :
    responsiblePersonTable.Supervises sql tables userId := by
  refine PersonTable.supervises_of_ids forest fun top isTop => ?_
  rw [getSupervisoryIds_of_unprivileged unprivileged, if_neg (by simp [responsiblePersonTable])] at isTop
  split_ifs at isTop
  · exact mem_of_mem_rootids isTop
  · cases isTop

theorem audit_supervises (forest : DepartmentForest tables.departments) (unprivileged : Unprivileged sql tables userId)
    (isAudit : .orgAudit ∈ getUserRoleId sql tables userId) : auditPersonTable.Supervises sql tables userId := by
  refine PersonTable.supervises_of_ids forest fun top isTop => ?_
  rw [getSupervisoryIds_of_unprivileged unprivileged, if_pos ⟨isAudit, rfl⟩] at isTop
  exact mem_of_mem_rootids isTop

private theorem name_of_checkUserExists (exist : checkUserExists sql isHex tables userId = .ok ()) : userId ≠ "" := by
  rintro rfl
  simp [checkUserExists, checkIsUuid, GoStrings.split] at exist

variable {rows : List ResponsiblePerson}

namespace PersonTable

variable {table : PersonTable} {managerId : String} {row : ResponsiblePerson}

private theorem mem_of_mem_foldl_insertRow (mem : row ∈ departIds.foldl (insertRow sql · userId) rows) :
    row ∈ rows ∨ row.departmentID ∈ departIds := by
  induction departIds generalizing rows with
  | nil => exact .inl mem
  | cons departId rest ih =>
    rcases ih mem with early | late
    · dsimp only [insertRow] at early
      split_ifs at early
      · exact .inl early
      · rcases mem_append.mp early with old | new
        · exact .inl old
        · exact .inr (mem_singleton.mp new ▸ mem_cons_self)
    · exact .inr (mem_cons_of_mem _ late)

private theorem setPerson_ok (named : managerId ≠ "")
    (changed : table.setPerson sql isHex tables userId departIds (some managerId) = .ok after) :
    ∃ rows, after = table.write tables rows ∧ ∀ row ∈ rows, row ∈ table.rows tables ∨
      row.departmentID ∈ getSupervisoryAllDepartids sql tables managerId table.roleId := by
  obtain ⟨-, changed⟩ := guard_ok changed
  obtain ⟨-, -, changed⟩ := bind_ok changed
  obtain ⟨-, -, changed⟩ := bind_ok changed
  obtain ⟨_, checked, changed⟩ := bind_ok changed
  cases changed
  refine ⟨_, rfl, fun row mem => ?_⟩
  rcases mem_of_mem_foldl_insertRow (mem_of_mem_filter mem) with stored | added
  · exact .inl stored
  · unfold checkRange at checked
    dsimp only at checked
    split_ifs at checked with within
    exact .inr (within.resolve_left named _ (mem_append_left _ added))

private theorem cancelPerson_ok {manager : Option String}
    (changed : table.cancelPerson sql isHex tables userId manager = .ok after) :
    ∃ rows, after = table.write tables rows ∧ ∀ row ∈ rows, row ∈ table.rows tables := by
  obtain ⟨-, -, changed⟩ := bind_ok changed
  obtain ⟨-, -, changed⟩ := bind_ok changed
  cases changed
  exact ⟨_, rfl, fun row mem => mem_of_mem_filter mem⟩

end PersonTable

namespace MemberCall

variable {call : MemberCall}

/-- The caller may change the membership the call is about. -/
def Permitted (sql : SqlEquality) (call : MemberCall) (tables : RoleTables) : Prop :=
  checkUserCanOprateRoleMember sql tables call.userId (getUserRoleId sql tables call.userId) call.roleId
    call.memberId = true

/-- All that a call does for a caller without a role of an administrator. -/
structure Delegated (sql : SqlEquality) (call : MemberCall) (tables after : RoleTables) : Prop where
  departments : after.departments = tables.departments
  roles : after.roles = tables.roles
  userRoles : ∀ row, (row ∈ after.userRoles ↔ row ∈ tables.userRoles) ∨
    sql.role row.roleID = sql.role call.roleId ∧ call.Permitted sql tables
  responsiblePersons : ∀ row ∈ after.responsiblePersons, row ∈ tables.responsiblePersons ∨
    row.departmentID ∈ getSupervisoryAllDepartids sql tables call.userId none
  auditPersons : ∀ row ∈ after.auditPersons, row ∈ tables.auditPersons ∨
    (call.roleId = .orgAudit ∧ call.Permitted sql tables) ∧
    row.departmentID ∈ getSupervisoryAllDepartids sql tables call.userId (some .orgAudit)

private theorem Delegated.refl : call.Delegated sql tables tables where
  departments := rfl
  roles := rfl
  userRoles _ := .inl Iff.rfl
  responsiblePersons _ mem := .inl mem
  auditPersons _ mem := .inl mem

private theorem Delegated.of_responsible
    (confined : ∀ row ∈ rows, row ∈ tables.responsiblePersons ∨
      row.departmentID ∈ getSupervisoryAllDepartids sql tables call.userId none) :
    call.Delegated sql tables (responsiblePersonTable.write tables rows) :=
  { (Delegated.refl : call.Delegated sql tables tables) with responsiblePersons := confined }

section Permitted

variable (permitted : call.Permitted sql tables)

include permitted

theorem Permitted.userId_eq (isAdmin : call.roleId ∈ adminRoles) :
    call.roleId = .superAdmin ∧ call.userId = userAdmin := by
  have allowed := (Bool.and_eq_true_iff.mp permitted).2
  simp only [adminRoles, mem_cons, not_mem_nil, or_false] at isAdmin
  rcases isAdmin with isSuper | isSys | isSec | isAudit
  · rw [isSuper] at allowed
    exact ⟨isSuper, of_decide_eq_true allowed⟩
  · rw [isSys] at allowed
    cases allowed
  · rw [isSec] at allowed
    cases allowed
  · rw [isAudit] at allowed
    cases allowed

theorem Permitted.isAudit (unprivileged : Unprivileged sql tables call.userId)
    (audits : call.roleId = .orgAudit) : .orgAudit ∈ getUserRoleId sql tables call.userId := by
  have allowed := (Bool.and_eq_true_iff.mp permitted).2
  rw [audits] at allowed
  rcases of_decide_eq_true (Bool.and_eq_true_iff.mp allowed).1 with isSuper | isSec | isAudit
  · exact absurd (by decide) (unprivileged _ isSuper)
  · exact absurd (by decide) (unprivileged _ isSec)
  · exact isAudit

private theorem Delegated.of_audit (audits : call.roleId = .orgAudit)
    (confined : ∀ row ∈ rows, row ∈ tables.auditPersons ∨
      row.departmentID ∈ getSupervisoryAllDepartids sql tables call.userId (some .orgAudit)) :
    call.Delegated sql tables (auditPersonTable.write tables rows) :=
  { (Delegated.refl : call.Delegated sql tables tables) with
    auditPersons := fun row mem => (confined row mem).imp_right fun within => ⟨⟨audits, permitted⟩, within⟩ }

private theorem Delegated.addRoleRelation (delegated : call.Delegated sql tables after) :
    call.Delegated sql tables (addRoleRelation sql call.memberId call.roleId after) := by
  unfold ShareMgnt.addRoleRelation
  split_ifs
  · exact delegated
  · refine { delegated with userRoles := fun row => ?_ }
    by_cases same : row = ⟨call.memberId, call.roleId⟩
    · exact .inr ⟨congrArg (sql.role ·.roleID) same, permitted⟩
    · simpa [same] using delegated.userRoles row

private theorem Delegated.deleteRoleRelation (delegated : call.Delegated sql tables after) :
    call.Delegated sql tables (deleteRoleRelation sql call.roleId call.memberId after) := by
  refine { delegated with userRoles := fun row => ?_ }
  by_cases same : isRowOf sql call.memberId call.roleId row = true
  · exact .inr ⟨(of_decide_eq_true same).2, permitted⟩
  · simpa [ShareMgnt.deleteRoleRelation, same] using delegated.userRoles row

end Permitted

private theorem checkSet_ok (checked : call.checkSet sql isHex tables = .ok ()) :
    call.userId ≠ "" ∧ call.Permitted sql tables := by
  obtain ⟨_, exist, checked⟩ := bind_ok checked
  obtain ⟨-, -, checked⟩ := bind_ok checked
  obtain ⟨-, -, checked⟩ := bind_ok checked
  obtain ⟨-, checked⟩ := guard_ok checked
  refine ⟨name_of_checkUserExists exist, ?_⟩
  split_ifs at checked with permitted
  exact permitted

private theorem checkDelete_ok (checked : call.checkDelete sql isHex tables = .ok ()) : call.Permitted sql tables := by
  obtain ⟨-, -, checked⟩ := bind_ok checked
  obtain ⟨-, -, checked⟩ := bind_ok checked
  obtain ⟨-, -, checked⟩ := bind_ok checked
  obtain ⟨-, checked⟩ := guard_ok checked
  obtain ⟨-, checked⟩ := guard_ok checked
  split_ifs at checked with permitted
  exact permitted

private theorem delegated_setMember (unprivileged : Unprivileged sql tables call.userId) :
    call.Delegated sql tables (afterwards ((call.setMember sql isHex).run tables)) := by
  unfold setMember
  rw [run_bind, run_get]
  dsimp only
  have notAdmin : ¬ (.superAdmin ∈ getUserRoleId sql tables call.userId ∨
      .secAdmin ∈ getUserRoleId sql tables call.userId) := by
    rintro (isSuper | isSec)
    · exact unprivileged _ isSuper (by decide)
    · exact unprivileged _ isSec (by decide)
  rw [if_neg notAdmin]
  refine afterwards_check .refl fun _ checked => ?_
  obtain ⟨named, permitted⟩ := checkSet_ok checked
  split_ifs with manages audits audits
  · rw [manages] at audits
    cases audits
  · refine afterwards_check .refl fun departIds _ => ?_
    refine afterwards_attempt .refl fun after set => ?_
    obtain ⟨rows, rfl, confined⟩ := PersonTable.setPerson_ok named set
    have delegated : call.Delegated sql tables _ := .of_responsible confined
    -- the message is sent when the departments are set already
    exact afterwards_check delegated fun _ _ => delegated.addRoleRelation permitted
  · refine afterwards_check .refl fun departIds _ => ?_
    refine afterwards_attempt .refl fun after set => ?_
    obtain ⟨rows, rfl, confined⟩ := PersonTable.setPerson_ok named set
    exact (Delegated.of_audit permitted audits confined).addRoleRelation permitted
  · exact Delegated.refl.addRoleRelation permitted

/-- Withdrawing assignments leaves some of them. -/
theorem delegated_deleteMember : call.Delegated sql tables (afterwards ((call.deleteMember sql isHex).run tables)) := by
  unfold deleteMember
  dsimp only
  refine afterwards_check .refl fun _ checked => ?_
  have permitted := checkDelete_ok checked
  split_ifs with manages audits audits
  · rw [manages] at audits
    cases audits
  · refine afterwards_attempt .refl fun after cancelled => ?_
    have delegated : call.Delegated sql tables after := by
      cases result : cancelResponsiblePerson sql isHex tables call.memberId (some call.userId) with
      | ok between =>
        obtain ⟨rows, rfl, kept⟩ := PersonTable.cancelPerson_ok result
        rw [result] at cancelled
        cases cancelled
        exact .of_responsible fun row mem => .inl (kept row mem)
      | error failure =>
        rw [result] at cancelled
        change (if failure.expNum ≠ .userNotAdmin then throw failure else pure tables) = Except.ok after at cancelled
        split_ifs at cancelled
        cases cancelled
        exact .refl
    exact afterwards_check delegated fun _ _ => delegated.deleteRoleRelation permitted
  · refine afterwards_attempt .refl fun after cancelled => ?_
    obtain ⟨rows, rfl, kept⟩ := PersonTable.cancelPerson_ok cancelled
    have delegated : call.Delegated sql tables _ := .of_audit permitted audits fun row mem => .inl (kept row mem)
    exact delegated.deleteRoleRelation permitted
  · exact Delegated.refl.deleteRoleRelation permitted

end MemberCall

theorem delegated_of_roleStep {call : RoleCall} (unprivileged : Unprivileged sql tables call.call.userId)
    (stepped : roleStep sql isHex tables call = some after) : call.call.Delegated sql tables after := by
  cases stepped
  cases call with
  | set call => exact MemberCall.delegated_setMember unprivileged
  | delete call => exact MemberCall.delegated_deleteMember

end SecurityFabric.ShareMgnt
