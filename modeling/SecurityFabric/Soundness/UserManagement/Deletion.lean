import SecurityFabric.Proofs.UserManagement.Department
import SecurityFabric.ToMathlib.Guarantees

/-! # Deleting a department removes its subtree

The code selects what to delete by tests on path strings, in the database and in a loop over the paths of users. In an
organisation whose tables agree, all of them select the subtree of the department, and a deletion leaves the tables in
agreement. A user keeps the rows outside the subtree, and one who had none there becomes unassigned.
-/

namespace SecurityFabric.UserManagement

open List

section

section

variable (org : Organisation) (depart : DepartmentDBInfo) (member : OUUser) (departments : List DepartmentDBInfo)

/-- A user is in the organisation of a root if they have a row under it. -/
def MembersMatch (userDeparts : List UserDepartment) (ouUsers : List OUUser) : Prop :=
  ∀ root ∈ departments, pathIDs root.path = [root.id] → (∀ member ∈ ouUsers, member.ouID = root.id →
      ∃ row ∈ userDeparts, row.userID = member.userID ∧ (pathIDs row.path).head? = some root.id) ∧
    ∀ row ∈ userDeparts, (pathIDs row.path).head? = some root.id → ⟨row.userID, root.id⟩ ∈ ouUsers

/-- The tables of an organisation agree with each other. -/
structure Organisation.WellFormed : Prop where
  forest : DepartmentForest org.departments
  relations : ColumnMatch DepartmentRelation.departmentID DepartmentRelation.parentDepartmentID parentID
    org.departments org.relations
  ouDepartments : ColumnMatch OUDepartment.departmentID OUDepartment.ouID rootID org.departments org.ouDepartments
  rows : RowsMatch org.departments org.userDeparts
  everyUser : ∀ user ∈ org.users, HasRow org.userDeparts user.id
  members : MembersMatch org.departments org.userDeparts org.ouUsers

/-- A user leaves the organisation of a department with its subtree if they have rows there, and no other
under the same root. -/
def LeavesOU : Prop := rootID depart = some member.ouID ∧
    (∃ row ∈ org.userDeparts, row.userID = member.userID ∧ row.departmentID ∈ subtreeIDs org.departments depart) ∧
    ∀ row ∈ org.userDeparts, row.userID = member.userID → (pathIDs row.path).head? = rootID depart →
      row.departmentID ∈ subtreeIDs org.departments depart

instance : Decidable (LeavesOU org depart member) :=
  inferInstanceAs (Decidable (_ ∧ _ ∧ _))

/-- What a deletion does to each table. -/
structure RemovesSubtree (visitor : Option Visitor) (after : Organisation) : Prop where
  departments : after.departments = org.departments.filter fun info => info.id ∉ subtreeIDs org.departments depart
  relations : after.relations = org.relations.filter fun row => row.departmentID ∉ subtreeIDs org.departments depart
  ouDepartments : after.ouDepartments = org.ouDepartments.filter fun row =>
    row.departmentID ∉ subtreeIDs org.departments depart
  /-- The rows in the subtree go, and the users left with none get the row of the unassigned, once. -/
  userDeparts : ∃ moved : List String, moved.Nodup ∧
    (∀ userID, userID ∈ moved ↔ HasRow org.userDeparts userID ∧
    AllRowsIn (subtreeIDs org.departments depart) org.userDeparts userID) ∧
    after.userDeparts = (org.userDeparts.filter fun row => row.departmentID ∉ subtreeIDs org.departments depart) ++
      moved.map unassigned
  ouUsers : after.ouUsers = org.ouUsers.filter fun member => ¬ LeavesOU org depart member
  unchanged : after.users = org.users ∧ after.responsiblePersons = org.responsiblePersons ∧
    after.userRoles = org.userRoles
  /-- One message for each department that went, one for the managers of departments on their paths, and
  the audit entry. -/
  outbox : after.outbox = org.outbox ++ (subtreeIDs org.departments depart).map .departDeleted ++
    [.orgManagerChange ((org.responsiblePersons.filter fun person =>
      ∃ info ∈ subtree org.departments depart, person.departmentID ∈ pathIDs info.path).map (·.userID))] ++
    (publicVisitor visitor).toList.map fun visitor => .topDepartDeletedLog visitor depart.name (0 < depart.isRoot)

end

private theorem getRootByPath_eq_iff {path root : String} :
    getRootByPath path = root ↔ (pathIDs path).head? = some root := by
  obtain ⟨first, more, parts⟩ := exists_cons_of_ne_nil (pathIDs_ne_nil path)
  simp [getRootByPath, parts]

section Effect

variable {org : Organisation} (wellFormed : org.WellFormed) {depart : DepartmentDBInfo} (mem : depart ∈ org.departments)

include wellFormed mem

private theorem allOrgManagerIDs_eq :
    (org.handleDeletedDepartInfo depart).allOrgManagerIDs = (org.responsiblePersons.filter fun person =>
      ∃ info ∈ subtree org.departments depart, person.departmentID ∈ pathIDs info.path).map (·.userID) := by
  refine congrArg (List.map ResponsiblePerson.userID) (filter_congr fun person _ => ?_)
  rw [Organisation.getAllSubDepartInfosByPath_eq wellFormed.forest mem, decide_eq_decide,
    ← AList.mem_keys, GoMap.mem_collect,
    mem_flatMap]

private theorem mem_needAdd_iff (userID : String) :
    userID ∈ (org.handleDeletedDepartInfo depart).needAddToUnDistributeIDs ↔
    HasRow org.userDeparts userID ∧ AllRowsIn (subtreeIDs org.departments depart) org.userDeparts userID := by
  refine (org.mem_needAddToUnDistributeIDs _ _ _).trans ?_
  rw [org.mem_listed_iff wellFormed.forest wellFormed.rows mem]
  have inside (row : UserDepartment) (found : row ∈ org.userDeparts) :=
    wellFormed.forest.row_contains_iff wellFormed.rows mem found
  constructor
  · rintro ⟨-, has, contained⟩
    exact ⟨has, fun row found own => (inside row found).mp (contained row found own)⟩
  · rintro ⟨⟨row, found, own⟩, below⟩
    exact ⟨⟨row, found, own, below row found own⟩, ⟨row, found, own⟩, fun row found own =>
      (inside row found).mpr (below row found own)⟩

private theorem mem_needDeleteOU_iff (row : OUUser) :
    row.userID ∈ (org.handleDeletedDepartInfo depart).needDeleteOUIDs ∧ row.ouID = getRootByPath depart.path ↔
    LeavesOU org depart row := by
  have ownRoot : rootID depart = some (getRootByPath depart.path) := getRootByPath_eq_iff.mp rfl
  have root (path : String) : getRootByPath path = getRootByPath depart.path ↔
      (pathIDs path).head? = rootID depart := by
    rw [getRootByPath_eq_iff, ownRoot]
  have inside (row : UserDepartment) (found : row ∈ org.userDeparts) :=
    wellFormed.forest.row_contains_iff wellFormed.rows mem found
  have loses := org.mem_needDeleteOUIDs depart.path (org.getAllSubUserIDsByDepartPath depart.path) row.userID
  simp only [root, org.mem_listed_iff wellFormed.forest wellFormed.rows mem] at loses
  rw [eq_comm, getRootByPath_eq_iff]
  constructor
  · rintro ⟨lost, sameRoot⟩
    obtain ⟨listed, -, contained⟩ := loses.mp lost
    exact ⟨sameRoot, listed, fun row found own under => (inside row found).mp (contained row found own under)⟩
  · rintro ⟨sameRoot, ⟨below, found, own, within⟩, only⟩
    exact ⟨loses.mpr ⟨⟨below, found, own, within⟩, ⟨below, found, own⟩,
      fun row found own under => (inside row found).mpr (only row found own under)⟩, sameRoot⟩

private theorem removesSubtree_writeDeletion (visitor : Option Visitor) :
    RemovesSubtree org depart visitor (org.writeDeletion visitor (org.handleDeletedDepartInfo depart)) := by
  have ids : (org.handleDeletedDepartInfo depart).allDepIDs = subtreeIDs org.departments depart :=
    congrArg (List.map DepartmentDBInfo.id) (Organisation.getAllSubDepartInfosByPath_eq wellFormed.forest mem)
  constructor
  case departments =>
    refine filter_congr fun info existing => ?_
    rw [decide_eq_decide]
    exact (wellFormed.forest.pathLike_iff_mem mem existing).not
  case relations => exact ids ▸ rfl
  case ouDepartments => exact ids ▸ rfl
  case userDeparts =>
    refine ⟨(org.handleDeletedDepartInfo depart).needAddToUnDistributeIDs, ?_, mem_needAdd_iff wellFormed mem,
      userDeparts_writeDeletion wellFormed.forest wellFormed.rows mem rfl visitor⟩
    exact (AList.keys_nodup _).sublist (filter_sublist.map _)
  case ouUsers =>
    refine filter_congr fun row _ => ?_
    rw [decide_eq_decide]
    exact (mem_needDeleteOU_iff wellFormed mem row).not
  case unchanged => exact ⟨rfl, rfl, rfl⟩
  case outbox =>
    rw [← allOrgManagerIDs_eq wellFormed mem, ← ids]
    simp only [Organisation.writeDeletion, DeletePlan.messages, append_assoc]
    rfl

end Effect

/-- The departments that stay, with the rows about them. -/
theorem ColumnMatch.remove {ρ : Type} {key value : ρ → String} {column : DepartmentDBInfo → Option String}
    {departments : List DepartmentDBInfo} {rows : List ρ} (agree : ColumnMatch key value column departments rows)
    (gone : List String) : ColumnMatch key value column (departments.filter fun info => info.id ∉ gone)
      (rows.filter fun row => key row ∉ gone) where
  sound row mem := by
    obtain ⟨found, stays⟩ := mem_filter.mp mem
    obtain ⟨info, existing, same, value⟩ := agree.sound row found
    exact ⟨info, mem_filter.mpr ⟨existing, same ▸ stays⟩, same, value⟩
  complete info mem said value := by
    obtain ⟨existing, stays⟩ := mem_filter.mp mem
    obtain ⟨row, found, same, value⟩ := agree.complete info existing said value
    exact ⟨row, mem_filter.mpr ⟨found, same ▸ stays⟩, same, value⟩

section Agreement

variable {org after : Organisation} {depart : DepartmentDBInfo} {visitor : Option Visitor}
  (removes : RemovesSubtree org depart visitor after)

include removes

private theorem RemovesSubtree.mem_userDeparts (row : UserDepartment) :
    row ∈ after.userDeparts ↔ row ∈ org.userDeparts ∧ row.departmentID ∉ subtreeIDs org.departments depart ∨
      row = unassigned row.userID ∧ HasRow org.userDeparts row.userID ∧
        AllRowsIn (subtreeIDs org.departments depart) org.userDeparts row.userID := by
  obtain ⟨moved, -, isMoved, rows⟩ := removes.userDeparts
  rw [rows, mem_append, mem_filter, decide_eq_true_iff, mem_map]
  refine or_congr_right ⟨?_, fun ⟨same, left⟩ => ⟨row.userID, (isMoved row.userID).mpr left, same.symm⟩⟩
  rintro ⟨userID, mem, rfl⟩
  exact ⟨rfl, (isMoved userID).mp mem⟩

private theorem RemovesSubtree.hasRow {userID : String} (before : HasRow org.userDeparts userID) :
    HasRow after.userDeparts userID := by
  by_cases allGo : AllRowsIn (subtreeIDs org.departments depart) org.userDeparts userID
  · exact ⟨unassigned userID, (removes.mem_userDeparts _).mpr (.inr ⟨rfl, before, allGo⟩), rfl⟩
  · unfold AllRowsIn at allGo
    push Not at allGo
    obtain ⟨row, found, own, outside⟩ := allGo
    exact ⟨row, (removes.mem_userDeparts row).mpr (.inl ⟨found, outside⟩), own⟩

variable (wellFormed : org.WellFormed)

include wellFormed

private theorem RemovesSubtree.rows : RowsMatch after.departments after.userDeparts := by
  intro row mem
  rcases (removes.mem_userDeparts row).mp mem with ⟨found, outside⟩ | ⟨same, -⟩
  · refine (wellFormed.rows row found).imp_right fun ⟨info, existing, id, path⟩ => ⟨info, ?_, id, path⟩
    rw [removes.departments]
    exact mem_filter.mpr ⟨existing, decide_eq_true (id ▸ outside)⟩
  · rw [same]
    exact .inl ⟨rfl, rfl⟩

private theorem RemovesSubtree.members : MembersMatch after.departments after.userDeparts after.ouUsers := by
  intro root existing isRoot
  rw [removes.departments] at existing
  obtain ⟨rowOf, memberOf⟩ := wellFormed.members root (mem_of_mem_filter existing) isRoot
  rw [removes.ouUsers]
  constructor
  · intro member stays ofRoot
    obtain ⟨found, remains⟩ := mem_filter.mp stays
    obtain ⟨row, rowFound, own, under⟩ := rowOf member found ofRoot
    by_cases outside : row.departmentID ∉ subtreeIDs org.departments depart
    · exact ⟨row, (removes.mem_userDeparts row).mpr (.inl ⟨rowFound, outside⟩), own, under⟩
    · -- The row goes, so the department is under this root, and the member has another row under it.
      rw [not_not] at outside
      have sameRoot : rootID depart = some member.ouID := by
        rw [ofRoot, ← under, wellFormed.forest.row_head_of_mem wellFormed.rows rowFound outside, rootID]
      have other : ¬ ∀ row ∈ org.userDeparts, row.userID = member.userID → (pathIDs row.path).head? = rootID depart →
          row.departmentID ∈ subtreeIDs org.departments depart :=
        fun all => of_decide_eq_true remains ⟨sameRoot, ⟨row, rowFound, own, outside⟩, all⟩
      push Not at other
      obtain ⟨kept, keptFound, keptOwn, keptRoot, keptOutside⟩ := other
      exact ⟨kept, (removes.mem_userDeparts kept).mpr (.inl ⟨keptFound, keptOutside⟩),
        keptOwn, by rw [keptRoot, sameRoot, ofRoot]⟩
  · intro row stays under
    rcases (removes.mem_userDeparts row).mp stays with ⟨found, outside⟩ | ⟨same, -⟩
    · refine mem_filter.mpr ⟨memberOf row found under, decide_eq_true fun ⟨sameRoot, _, all⟩ => ?_⟩
      exact outside (all row found rfl (under.trans sameRoot.symm))
    · rw [same] at under
      have isRoot : unDistribute = root.id := Option.some.inj
        ((congrArg List.head? pathIDs_unDistribute).symm.trans under)
      exact absurd isRoot.symm (wellFormed.forest.ne_unDistribute (mem_of_mem_filter existing))

private theorem RemovesSubtree.keeps_wellFormed : after.WellFormed where
  forest := removes.departments ▸ wellFormed.forest.remove depart
  relations := by
    rw [removes.departments, removes.relations]
    exact wellFormed.relations.remove _
  ouDepartments := by
    rw [removes.departments, removes.ouDepartments]
    exact wellFormed.ouDepartments.remove _
  rows := removes.rows wellFormed
  everyUser user mem := removes.hasRow (wellFormed.everyUser user (removes.unchanged.1 ▸ mem))
  members := removes.members wellFormed

end Agreement

/-- The deletion of a department by a call that succeeds leaves the tables in agreement and does to each of
them what the removal of a subtree means for it. -/
theorem deleteDepart_removes_subtree {org after : Organisation} {visitor : Option Visitor} {depart : DepartmentDBInfo}
    (wellFormed : org.WellFormed) (existing : depart ∈ org.departments)
    (deleted : org.deleteDepart visitor depart.id = .ok after) :
    after.WellFormed ∧ RemovesSubtree org depart visitor after := by
  obtain ⟨found, isFound, rest⟩ := bind_ok deleted
  obtain ⟨member, same⟩ := findDepart_ok isFound
  obtain rfl : found = depart := wellFormed.forest.eq_of_id member existing same
  have written : org.writeDeletion visitor (org.handleDeletedDepartInfo found) = after := by
    split at rest
    · obtain ⟨_, -, last⟩ := bind_ok rest
      exact Except.ok.inj last
    · exact Except.ok.inj rest
  subst written
  have removes := removesSubtree_writeDeletion wellFormed existing visitor
  exact ⟨removes.keeps_wellFormed wellFormed, removes⟩

open UserManagement.Sample

private theorem company_wellFormed : company.WellFormed where
  forest := company_forest
  relations := company_relations
  ouDepartments := by constructor <;> simp [company, rootID, pathIDs_root, pathIDs_sales, pathIDs_travel, pathIDs_law]
  rows := company_rows
  everyUser := by simp [company, HasRow]
  members := by
    have other : unDistribute ≠ root.id := by decide
    simp [MembersMatch, company, pathIDs_sales, pathIDs_travel, pathIDs_law, pathIDs_unDistribute, other]

/-- The deletion of a department with another below it. -/
theorem deleteDepart_removes_subtree_sample :
    company.WellFormed ∧ ∃ after, company.deleteDepart none sales.id = .ok after ∧
    after.WellFormed ∧ RemovesSubtree company sales none after := by
  have existing : sales ∈ company.departments := by simp [company]
  have deleted : company.deleteDepart none sales.id = .ok
    (company.writeDeletion none (company.handleDeletedDepartInfo sales)) := rfl
  exact ⟨company_wellFormed, _, deleted, deleteDepart_removes_subtree company_wellFormed existing deleted⟩

end

/-! # Which departments a manager may delete

A manager is meant to delete departments below those assigned to them, not the assigned ones, and no
department that they are in themselves, at any depth. The check refuses a department whose path is one
of the manager's own paths, and otherwise allows it if the path of an assigned department occurs in its
path. So it allows an assigned department, and one with the manager in a department below it.
-/

section

variable (org : Organisation) (userID : String) (info : DepartmentDBInfo)

/-- The roles of an organisation manager who is neither a super nor a system administrator. -/
structure OnlyOrgManager : Prop where
  manager : ⟨userID, .orgManager⟩ ∈ org.userRoles
  notSuper : ⟨userID, .superAdmin⟩ ∉ org.userRoles
  notSys : ⟨userID, .sysAdmin⟩ ∉ org.userRoles

/-- The department is assigned to the manager. -/
def Assigned : Prop := ⟨userID, info.id⟩ ∈ org.responsiblePersons

/-- The manager is a member of the department itself. -/
def MemberOf : Prop :=
  ∃ row ∈ org.userDeparts, row.userID = userID ∧ row.departmentID = info.id

/-- The department lies strictly below an assigned one, is not assigned itself, and the manager is in no
department at or below it. -/
structure ProperDeletion (depart : DepartmentDBInfo) : Prop where
  below : ∃ above ∈ org.departments, Assigned org userID above ∧ above ≠ depart ∧
    depart.id ∈ subtreeIDs org.departments above
  notAssigned : ¬ Assigned org userID depart
  notMember : ∀ info ∈ subtree org.departments depart, ¬ MemberOf org userID info

end

private theorem mem_getRolesByUserID {org : Organisation} {userID : String} (role : Role) (named : role ≠ .normalUser) :
    role ∈ org.getRolesByUserID userID ↔ ⟨userID, role⟩ ∈ org.userRoles := by
  rw [Organisation.getRolesByUserID, GoMap.mem_collect, mem_append, mem_map]
  constructor
  · rintro (⟨row, member, rfl⟩ | extra)
    · obtain ⟨found, own⟩ := mem_filter.mp member
      rwa [← of_decide_eq_true own]
    · split_ifs at extra
      · cases extra
      · exact absurd (mem_singleton.mp extra) named
  · intro found
    exact .inl ⟨⟨userID, role⟩, mem_filter.mpr ⟨found, decide_eq_true rfl⟩, rfl⟩

section Check

variable {org : Organisation} (forest : DepartmentForest org.departments)
  (rows : RowsMatch org.departments org.userDeparts) {depart : DepartmentDBInfo} (member : depart ∈ org.departments)
  {visitor : Visitor}

include forest rows member

/-- The manager's own paths have the path of the department among them if they are a member of it. -/
theorem path_mem_iff_memberOf (userID : String) :
    depart.path ∈ ((org.getUsersPath [userID]).lookup userID).getD [] ↔ MemberOf org userID depart := by
  rw [org.getD_lookup_getUsersPath (mem_singleton_self userID), mem_map]
  constructor
  · rintro ⟨row, isOwn, path⟩
    obtain ⟨found, own⟩ := mem_filter.mp isOwn
    refine ⟨row, found, of_decide_eq_true own, ?_⟩
    rcases rows row found with ⟨-, unassigned⟩ | ⟨info, existing, same, rowPath⟩
    · have long := length_path (forest.pathOfIDs depart member)
      rw [← path, unassigned] at long
      exact absurd long (by decide)
    · have last := forest.last info existing
      rw [← rowPath, path, forest.last depart member] at last
      rw [same, Option.some.inj last]
  · rintro ⟨row, found, own, same⟩
    refine ⟨row, mem_filter.mpr ⟨found, decide_eq_true own⟩, ?_⟩
    rcases rows row found with ⟨unassigned, -⟩ | ⟨info, existing, id, rowPath⟩
    · exact absurd (same.symm.trans unassigned) (forest.ne_unDistribute member)
    · rw [rowPath, forest.eq_of_id existing member (id.symm.trans same)]

/-- The check allows a department that the manager is not in and that is at or below an assigned one. -/
theorem checkDepartInScope_ok_iff (role : OnlyOrgManager org visitor.id) (named : visitor.id ≠ "") :
    org.checkDepartInScope visitor depart = .ok () ↔ ¬ MemberOf org visitor.id depart ∧
        ∃ above ∈ org.departments, Assigned org visitor.id above ∧ depart.id ∈ subtreeIDs org.departments above := by
  have notAdmin : ¬ (.superAdmin ∈ org.getRolesByUserID visitor.id ∨ .sysAdmin ∈ org.getRolesByUserID visitor.id) := by
    rw [mem_getRolesByUserID .superAdmin nofun, mem_getRolesByUserID .sysAdmin nofun]
    exact not_or.mpr ⟨role.notSuper, role.notSys⟩
  have isManager : .orgManager ∈ org.getRolesByUserID visitor.id :=
    (mem_getRolesByUserID .orgManager nofun).mpr role.manager
  have inRange : ((org.getDepartmentInfo (org.getOrgManagerDepartInfo visitor.id)).any fun range =>
      GoStrings.contains depart.path range.path) = true ↔
      ∃ above ∈ org.departments, Assigned org visitor.id above ∧ depart.id ∈ subtreeIDs org.departments above := by
    simp only [any_eq_true, org.mem_getDepartmentInfo, org.mem_getOrgManagerDepartInfo named]
    constructor
    · rintro ⟨above, ⟨existing, assigned⟩, contained⟩
      exact ⟨above, existing, assigned, (forest.contains_iff_mem existing member).mp contained⟩
    · rintro ⟨above, existing, assigned, below⟩
      exact ⟨above, ⟨existing, assigned⟩, (forest.contains_iff_mem existing member).mpr below⟩
  rw [← path_mem_iff_memberOf forest rows member, ← inRange]
  simp only [Organisation.checkDepartInScope, Organisation.checkVisitor]
  split_ifs with isMember
  · exact ⟨nofun, fun ⟨other, _⟩ => absurd isMember other⟩
  · rw [Organisation.checkRange]
    split_ifs with contained
    · exact ⟨fun _ => ⟨isMember, contained⟩, fun _ => rfl⟩
    · exact ⟨nofun, fun ⟨_, other⟩ => absurd other contained⟩

/-- The check lets a manager delete only what they are meant to delete exactly if the manager is a member of
the department, so that it is refused, or nothing at or above it is assigned to the manager, or it is not
assigned itself and the manager is in no department strictly below it. -/
theorem allowed_only_proper_iff (role : OnlyOrgManager org visitor.id) (named : visitor.id ≠ "") :
    (org.checkDepartInScope visitor depart = .ok () → ProperDeletion org visitor.id depart) ↔
    MemberOf org visitor.id depart ∨
      (∀ above ∈ org.departments, Assigned org visitor.id above → depart.id ∉ subtreeIDs org.departments above) ∨
      (¬ Assigned org visitor.id depart ∧ ∀ info ∈ subtree org.departments depart, info ≠ depart →
        ¬ MemberOf org visitor.id info) := by
  rw [checkDepartInScope_ok_iff forest rows member role named]
  constructor
  · intro allowed
    by_cases isMember : MemberOf org visitor.id depart
    · exact .inl isMember
    by_cases inRange : ∃ above ∈ org.departments, Assigned org visitor.id above ∧
      depart.id ∈ subtreeIDs org.departments above
    · obtain ⟨-, notAssigned, notMember⟩ := allowed ⟨isMember, inRange⟩
      exact .inr (.inr ⟨notAssigned, fun info below _ => notMember info below⟩)
    · push Not at inRange
      exact .inr (.inl inRange)
  · rintro condition ⟨notMember, above, existing, assigned, below⟩
    rcases condition with isMember | outOfRange | ⟨notAssigned, notBelow⟩
    · exact absurd isMember notMember
    · exact absurd below (outOfRange above existing assigned)
    · refine ⟨⟨above, existing, assigned, fun same => notAssigned (same ▸ assigned), below⟩, notAssigned, ?_⟩
      intro info within
      by_cases same : info = depart
      · exact same ▸ notMember
      · exact notBelow info within same

end Check

namespace Sample

def boss : Visitor := ⟨"boss", .americanEnglish⟩

/-- The root and sales are assigned to a manager who is in travel. -/
def managed : Organisation :=
  { company with
    userDeparts := company.userDeparts ++ [⟨boss.id, travel.id, travel.path⟩]
    responsiblePersons := [⟨boss.id, root.id⟩, ⟨boss.id, sales.id⟩]
    userRoles := [⟨boss.id, .orgManager⟩] }

end Sample

open UserManagement.Sample

private theorem managed_forest : DepartmentForest managed.departments := company_forest

private theorem managed_rows :
    RowsMatch managed.departments managed.userDeparts := by simp [RowsMatch, managed, company]

private theorem boss_onlyOrgManager : OnlyOrgManager managed boss.id := by constructor <;> simp [managed]

private theorem memberOf_boss {info : DepartmentDBInfo} (existing : info ∈ managed.departments)
    (isMember : MemberOf managed boss.id info) :
    info = travel := by
  obtain ⟨row, found, own, same⟩ := isMember
  have inTravel : travel ∈ managed.departments := by simp [managed, company]
  have isTravel : row.departmentID = travel.id := by
    simp only [managed, company, cons_append, nil_append, mem_cons, not_mem_nil, or_false] at found
    rcases found with rfl | rfl | rfl | rfl | rfl
    · rfl
    · exact absurd own (by decide)
    · exact absurd own (by decide)
    · exact absurd own (by decide)
    · rfl
  exact managed_forest.eq_of_id existing inTravel (same.symm.trans isTravel)

/-- The manager deletes law: it is not assigned, but the root above it is. -/
theorem allowed_only_proper_iff_sample :
    managed.checkDepartInScope boss law = .ok () ∧ ProperDeletion managed boss.id law := by
  have named : boss.id ≠ "" := by decide
  have existing : law ∈ managed.departments := by simp [managed, company]
  have inRoot : root ∈ managed.departments := by simp [managed, company]
  have notTravel : law ≠ travel := by decide
  have outside : travel ∉ subtree managed.departments law := by
    simp [subtree, pathIDs_travel]
    decide
  have allowed : managed.checkDepartInScope boss law = .ok () := by
    rw [checkDepartInScope_ok_iff managed_forest managed_rows existing boss_onlyOrgManager named]
    refine ⟨fun isMember => notTravel (memberOf_boss existing isMember), root, inRoot, by simp [Assigned, managed], ?_⟩
    rw [managed_forest.mem_subtreeIDs existing, pathIDs_law]
    decide
  refine ⟨allowed, (allowed_only_proper_iff managed_forest managed_rows existing boss_onlyOrgManager named).mpr
    (.inr (.inr ⟨?_, ?_⟩)) allowed⟩
  · simp [Assigned]
    decide
  · intro info within _ isMember
    exact outside (memberOf_boss (mem_of_mem_filter within) isMember ▸ within)

/-- The manager deletes sales, which is assigned to them and has them in the department below it. -/
theorem manager_deletes_assigned_department :
    managed.checkDepartInScope boss sales = .ok () ∧ ¬ ProperDeletion managed boss.id sales := by
  have named : boss.id ≠ "" := by decide
  have existing : sales ∈ managed.departments := by simp [managed, company]
  have notTravel : sales ≠ travel := by decide
  have assigned : Assigned managed boss.id sales := by simp [Assigned, managed]
  refine ⟨?_, fun proper => proper.notAssigned assigned⟩
  rw [checkDepartInScope_ok_iff managed_forest managed_rows existing boss_onlyOrgManager named]
  refine ⟨fun isMember => notTravel (memberOf_boss existing isMember), sales, existing, assigned, ?_⟩
  exact (managed_forest.mem_subtreeIDs existing).mpr prefix_rfl

end SecurityFabric.UserManagement
