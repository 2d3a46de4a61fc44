import SecurityFabric.Proofs.UserManagement.Department

/-! # One range of a manager

Whether a user is in the range of an organisation manager is asked against the direct departments of the user, among the
users below the manager's departments, and among the users of all departments in the range. Over tables that agree with
a forest each answer says that the user has a row of a department at or below an assigned one.
-/

namespace SecurityFabric.UserManagement

open LevelClosure List GoMap Organisation DepartmentRelation

section

variable (org : Organisation) (manager : String) (deptIDs : List String)
  (userIDs departmentIDs : List String) (userID : String)

/-- The user has a row of a department at or below one of these. -/
def UserInScope : Prop :=
  ∃ row ∈ org.userDeparts, row.userID = userID ∧ InScope org.departments deptIDs row.departmentID

/-- The list has the departments that are assigned to the manager. -/
def AreAssigned : Prop :=
  ∀ id, id ∈ deptIDs ↔ ⟨manager, id⟩ ∈ org.responsiblePersons

private theorem mem_getDirectBelongDepartmentIDs {userID : String} (named : userID ≠ "") (id : String) :
    id ∈ org.getDirectBelongDepartmentIDs userID ↔
      id ≠ unDistribute ∧ ∃ row ∈ org.userDeparts, row.userID = userID ∧ row.departmentID = id := by
  rw [getDirectBelongDepartmentIDs, if_neg named, mem_filter, mem_map]
  simp only [mem_filter, decide_eq_true_eq, and_assoc]
  exact and_comm

private theorem mem_getUsersInDepartments : userID ∈ org.getUsersInDepartments userIDs departmentIDs ↔
      userID ∈ userIDs ∧ ∃ row ∈ org.userDeparts, row.userID = userID ∧ row.departmentID ∈ departmentIDs := by
  trans userID ∈ org.queryUsersInDepartments userIDs departmentIDs
  · rw [getUsersInDepartments]
    split_ifs with nothing
    · rcases nothing with noUsers | noDepartments
      · simp [queryUsersInDepartments, length_eq_zero_iff.mp noUsers]
      · simp [queryUsersInDepartments, length_eq_zero_iff.mp noDepartments]
    · exact mem_removeDuplicatStrs _ _
  · simp only [queryUsersInDepartments, mem_map, mem_filter, decide_eq_true_eq]
    constructor
    · rintro ⟨row, ⟨found, asked, inside⟩, rfl⟩
      exact ⟨asked, row, found, rfl, inside⟩
    · rintro ⟨asked, row, found, rfl, inside⟩
      exact ⟨row, ⟨found, asked, inside⟩, rfl⟩

private theorem mem_lookup_getOrgManagersDepartInfo {userIDs : List String} {manager : String}
    (asked : manager ∈ userIDs)
    (id : String) : id ∈ ((org.getOrgManagersDepartInfo userIDs).lookup manager).getD [] ↔
    ⟨manager, id⟩ ∈ org.responsiblePersons := by
  trans id ∈ ((org.responsiblePersons.filter fun row => row.userID ∈ userIDs).filter
    fun row => row.userID = manager).flatMap fun row => [row.departmentID]
  · rw [getOrgManagersDepartInfo, lookup_concat]
    split_ifs with empty
    · simp [empty]
    · simp
  · simp only [mem_flatMap, mem_filter, decide_eq_true_eq, mem_singleton]
    constructor
    · rintro ⟨row, ⟨⟨found, _⟩, rfl⟩, rfl⟩
      exact found
    · intro found
      exact ⟨_, ⟨⟨found, asked⟩, rfl⟩, rfl⟩

end

section Range

variable {org : Organisation} (forest : DepartmentForest org.departments)
  {manager user : String} {assigned : List String} (areAssigned : AreAssigned org manager assigned)
  (existing : ∀ id ∈ assigned, ∃ info ∈ org.departments, info.id = id)

include forest existing

variable (parents : ColumnMatch departmentID parentDepartmentID parentID org.departments org.relations)

include parents in
private theorem getUserAndDepartmentInScope_spec {fuel : Nat} (enough : org.childIDs.length + 2 ≤ fuel) :
    ∃ users, org.getUserAndDepartmentInScope fuel [user] [] assigned = some (users, []) ∧
      (user ∈ users ↔ UserInScope org assigned user) := by
  obtain ⟨children, found, inScope⟩ := getAllChildDeparmentIDs_spec forest parents existing enough
  refine ⟨org.getUsersInDepartments [user] (removeDuplicatStrs (children ++ assigned)),
    by simp [getUserAndDepartmentInScope, found, intersection], ?_⟩
  rw [mem_getUsersInDepartments]
  simp only [mem_singleton, true_and, mem_removeDuplicatStrs, mem_append, or_comm, inScope]
  rfl

include areAssigned

include parents in
private theorem checkUserInRange_spec (managerNamed : manager ≠ "") (userNamed : user ≠ "")
    (auditPersons : List AuditPerson) {fuel : Nat} (enough : org.childIDs.length + 2 ≤ fuel) :
    ∃ inRange, org.checkUserInRange auditPersons fuel manager .orgManager [user] = some [inRange] ∧
      (inRange = true ↔ UserInScope org assigned user) := by
  have own : ∀ id, id ∈ org.getOrgManagerDepartInfo manager ↔ id ∈ assigned := fun id =>
    (org.mem_getOrgManagerDepartInfo managerNamed id).trans (areAssigned id).symm
  have ownExisting : ∀ id ∈ org.getOrgManagerDepartInfo manager, ∃ info ∈ org.departments, info.id = id :=
    fun id asked => existing id ((own id).mp asked)
  obtain ⟨allDepIDs, found, inScope⟩ := collect_getChildDepartmentIDs forest parents ownExisting enough
  simp only [InScope, own] at inScope
  refine ⟨_, by
    rw [checkUserInRange, checkDepInRange, checkBelow, found]
    rfl, ?_⟩
  rw [decide_eq_true_iff, length_pos_iff_exists_mem]
  simp only [mem_intersection, mem_removeDuplicatStrs, mem_getDirectBelongDepartmentIDs org userNamed, inScope]
  constructor
  · rintro ⟨_, ⟨_, row, mem, isOwn, rfl⟩, inside⟩
    exact ⟨row, mem, isOwn, inside⟩
  · rintro ⟨row, mem, isOwn, depart, departMem, asked, inside⟩
    have someDepartment : row.departmentID ≠ unDistribute := fun none =>
      forest.unDistribute_notMem_subtreeIDs (none ▸ inside)
    exact ⟨row.departmentID, ⟨someDepartment, row, mem, isOwn, rfl⟩, depart, departMem, asked, inside⟩

private theorem getOrgManagersInfo_spec (rows : RowsMatch org.departments org.userDeparts) :
    ∃ subUserIDs, org.getOrgManagersInfo [manager] true = [⟨manager, subUserIDs⟩] ∧
      (user ∈ subUserIDs ↔ UserInScope org assigned user) := by
  have own (id : String) : id ∈ ((org.getOrgManagersDepartInfo [manager]).lookup manager).getD [] ↔ id ∈ assigned :=
    (mem_lookup_getOrgManagersDepartInfo org (mem_singleton.mpr rfl) id).trans (areAssigned id).symm
  -- every assigned department is among those whose users were collected
  have collected {depart : DepartmentDBInfo} (mem : depart ∈ org.departments) (asked : depart.id ∈ assigned) :
      depart ∈ org.getDepartmentInfo (org.getOrgManagersDepartInfo [manager]).values.flatten := by
    refine (org.mem_getDepartmentInfo _ depart).mpr ⟨mem, mem_flatten.mpr ?_⟩
    have listed := (own depart.id).mpr asked
    cases found : (org.getOrgManagersDepartInfo [manager]).lookup manager with
    | none => simp [found] at listed
    | some ids => exact ⟨ids, (mem_values _ ids).mpr ⟨manager, found⟩, by simpa [found] using listed⟩
  have users {depart : DepartmentDBInfo} (mem : depart ∈ org.departments) (asked : depart.id ∈ assigned) :=
    forest.lookup_assign_id (fun info found => ((org.mem_getDepartmentInfo _ info).mp found).1)
      (collected mem asked) fun info => org.getAllSubUserIDsByDepartPath info.path
  refine ⟨_, rfl, ?_⟩
  rw [mem_removeDuplicatStrs, mem_flatMap]
  constructor
  · rintro ⟨id, listed, isUser⟩
    have asked := (own id).mp listed
    obtain ⟨depart, mem, rfl⟩ := existing id asked
    rw [users mem asked, Option.getD_some, org.mem_listed_iff forest rows mem] at isUser
    obtain ⟨row, found, isOwn, inside⟩ := isUser
    exact ⟨row, found, isOwn, depart, mem, asked, inside⟩
  · rintro ⟨row, found, isOwn, depart, mem, asked, inside⟩
    refine ⟨depart.id, (own depart.id).mpr asked, ?_⟩
    rw [users mem asked, Option.getD_some, org.mem_listed_iff forest rows mem]
    exact ⟨row, found, isOwn, inside⟩

end Range

/-- The small organisation with a manager. -/
def Sample.led : Organisation := { company with responsiblePersons := [⟨"second", sales.id⟩] }

/-- The three answers about a user agree, and so do the two ways to find the departments of a range. -/
theorem management_scopes_agree {org : Organisation} (forest : DepartmentForest org.departments)
    (parents : ColumnMatch DepartmentRelation.departmentID DepartmentRelation.parentDepartmentID parentID
      org.departments org.relations)
    (rows : RowsMatch org.departments org.userDeparts) (auditPersons : List AuditPerson) {manager user : String}
    (managerNamed : manager ≠ "") (userNamed : user ≠ "") {assigned : List String}
    (areAssigned : AreAssigned org manager assigned)
    (existing : ∀ id ∈ assigned, ∃ info ∈ org.departments, info.id = id) :
    ∃ enough, ∀ fuel ≥ enough, ∃ inRange subUserIDs users children,
      org.checkUserInRange auditPersons fuel manager .orgManager [user] = some [inRange] ∧
      org.getOrgManagersInfo [manager] true = [⟨manager, subUserIDs⟩] ∧
      org.getUserAndDepartmentInScope fuel [user] [] assigned = some (users, []) ∧
      org.getAllChildDeparmentIDs fuel assigned = some children ∧
      (inRange = true ↔ user ∈ subUserIDs) ∧ (user ∈ subUserIDs ↔ user ∈ users) ∧
      ∀ id, id ∈ org.getAllChildDeparmentIDsByIDs assigned ↔ id ∈ assigned ∨ id ∈ children := by
  refine ⟨org.childIDs.length + 2, fun fuel enough => ?_⟩
  obtain ⟨inRange, checked, rangeScope⟩ :=
    checkUserInRange_spec forest areAssigned existing parents managerNamed userNamed auditPersons enough
  obtain ⟨subUserIDs, listed, listScope⟩ := getOrgManagersInfo_spec forest areAssigned existing rows
  obtain ⟨users, selected, userScope⟩ := getUserAndDepartmentInScope_spec forest existing parents enough
  obtain ⟨children, below, inScope⟩ := getAllChildDeparmentIDs_spec forest parents existing enough
  refine ⟨inRange, subUserIDs, users, children, checked, listed, selected, below, rangeScope.trans listScope.symm,
    listScope.trans userScope.symm, fun id => ?_⟩
  rw [mem_getAllChildDeparmentIDsByIDs forest, inScope]

open UserManagement.Sample in
/-- The second user manages sales; the first is in the department below. -/
theorem management_scopes_agree_sample : ∃ enough, ∀ fuel ≥ enough, ∃ inRange subUserIDs users children,
    led.checkUserInRange [] fuel "second" .orgManager ["first"] = some [inRange] ∧
    led.getOrgManagersInfo ["second"] true = [⟨"second", subUserIDs⟩] ∧
    led.getUserAndDepartmentInScope fuel ["first"] [] [sales.id] = some (users, []) ∧
    led.getAllChildDeparmentIDs fuel [sales.id] = some children ∧
    (inRange = true ↔ "first" ∈ subUserIDs) ∧ ("first" ∈ subUserIDs ↔ "first" ∈ users) ∧
    ∀ id, id ∈ led.getAllChildDeparmentIDsByIDs [sales.id] ↔ id ∈ [sales.id] ∨ id ∈ children := by
  have forest : DepartmentForest led.departments := company_forest
  have areAssigned : AreAssigned led "second" [sales.id] := fun id => by simp [led]
  have existing : ∀ id ∈ [sales.id], ∃ info ∈ led.departments, info.id = id := by simp [led, company]
  exact management_scopes_agree forest company_relations company_rows [] (by decide) (by decide) areAssigned existing

/-! # When the walks over the departments end

Both walks ask for the departments right below those they met last. The one that remembers what it has met always ends.
The other one, which decides about the range of a manager, ends exactly if no cycle of the table of parents can be
reached.
-/

open Relation

variable (org : Organisation) (auditPersons : List AuditPerson) (managerID : String)

/-- The departments from which the walk for a role starts. -/
def assignedIDs : Role → List String
  | .orgAudit => Organisation.getOrgAduitDepartInfo auditPersons managerID
  | .orgManager => org.getOrgManagerDepartInfo managerID
  | _ => []

private theorem checkBelow_eq_some {org : Organisation} {fuel : Nat} {depIDs children : List String}
    {departIDs : List (List String)} {answers : List Bool} (ended : org.checkBelow fuel depIDs departIDs = some answers)
    (isBelow : ∀ id, id ∈ children ↔ ∃ above ∈ depIDs, TransGen (RightBelow org.relations) above id) :
    answers = departIDs.map fun group => group.any fun id => id ∈ depIDs ++ children := by
  obtain ⟨allDepIDs, found, rfl⟩ := Option.map_eq_some_iff.mp ended
  refine map_congr_left fun group _ => Bool.eq_iff_iff.mpr ?_
  rw [decide_eq_true_iff, length_pos_iff_exists_mem, any_eq_true]
  simp only [mem_intersection, mem_removeDuplicatStrs,
    org.answers_getChildDepartmentIDs.mem_of_collect found, decide_eq_true_iff,
    mem_append, isBelow]

private theorem checkBelow_of_cyclic {org : Organisation} {depIDs : List String}
    (cyclic : Cyclic (RightBelow org.relations) depIDs) (fuel : Nat)
    (departIDs : List (List String)) : org.checkBelow fuel depIDs departIDs = none := by
  rw [checkBelow, org.answers_getChildDepartmentIDs.collect_of_cyclic cyclic, Option.map_none]

/-- Both walks make at most one query more than there are departments, where they end. -/
theorem walks_end_iff (roleID : Role) (departIDs : List (List String)) :
    ∃ children, org.getAllChildDeparmentIDs (org.childIDs.length + 2)
    (assignedIDs org auditPersons managerID roleID) = some children ∧
      (∀ id, id ∈ children ↔ ∃ above ∈ assignedIDs org auditPersons managerID roleID,
        TransGen (RightBelow org.relations) above id) ∧
      ((∃ answers, org.checkDepInRange auditPersons (org.childIDs.length + 2) managerID roleID departIDs =
        some answers ∧
          (roleID = .orgAudit ∨ roleID = .orgManager → answers = departIDs.map fun group => group.any fun id =>
            id ∈ assignedIDs org auditPersons managerID roleID ++ children)) ↔
        ¬ Cyclic (RightBelow org.relations) (assignedIDs org auditPersons managerID roleID)) ∧
      (Cyclic (RightBelow org.relations) (assignedIDs org auditPersons managerID roleID) →
        ∀ fuel, org.checkDepInRange auditPersons fuel managerID roleID departIDs = none) := by
  obtain ⟨children, found, isBelow⟩ := org.exists_getAllChildDeparmentIDs
    (assignedIDs org auditPersons managerID roleID) (le_refl _)
  refine ⟨children, found, isBelow, ?_⟩
  by_cases ranged : roleID = .orgAudit ∨ roleID = .orgManager
  · have walk (fuel : Nat) : org.checkDepInRange auditPersons fuel managerID roleID departIDs =
        org.checkBelow fuel (assignedIDs org auditPersons managerID roleID) departIDs := by
      rcases ranged with rfl | rfl <;> rfl
    simp only [walk]
    refine ⟨⟨?_, fun acyclic => ?_⟩, fun cyclic fuel => checkBelow_of_cyclic cyclic fuel departIDs⟩
    · rintro ⟨answers, ended, -⟩ cyclic
      rw [checkBelow_of_cyclic cyclic] at ended
      cases ended
    · obtain ⟨allDepIDs, collected⟩ := @Answers.exists_collect
        _ _ _ _ _ (assignedIDs org auditPersons managerID roleID) _
        org.answers_getChildDepartmentIDs _ acyclic (le_refl _)
      have ended := congrArg (Option.map fun allDepIDs => departIDs.map fun v =>
        decide (0 < (intersection v (removeDuplicatStrs allDepIDs)).length)) collected
      exact ⟨_, ended, fun _ => checkBelow_eq_some ended isBelow⟩
  · have nothing : assignedIDs org auditPersons managerID roleID = [] := by
      cases roleID <;> simp_all [assignedIDs]
    have acyclic : ¬ Cyclic (RightBelow org.relations) (assignedIDs org auditPersons managerID roleID) := by
      rw [nothing]
      rintro ⟨_, mem, -⟩
      cases mem
    cases roleID <;> simp_all [checkDepInRange]

/-- A department below itself, and a manager to whom it is assigned: no number of queries is enough. -/
theorem cycle_never_left :
    (Organisation.checkDepInRange ⟨[], [], [⟨"a", "b"⟩, ⟨"b", "a"⟩], [], [], [], [⟨"manager", "a"⟩], [], []⟩ []
      · "manager" .orgManager [["a"]]) = fun _ => none := by
  funext fuel
  refine checkBelow_of_cyclic ⟨"a", by simp [getOrgManagerDepartInfo], "a", .refl, ?_⟩ fuel _
  exact .head (by simp [RightBelow] : RightBelow _ "a" "b") (.single (by simp [RightBelow]))

/-! # The top departments of a list

Since all ids have the same length, a path inside another one is the beginning of it. So the departments that are kept
are those with none of the list above them, and each department of the list is at or below one of them only.
-/

variable {org : Organisation} (paths : RootedPaths org.departments) (depIDs : List String)

include paths

private theorem mem_filterTopDepartments {info : DepartmentDBInfo} (mem : info ∈ org.departments) :
    info.id ∈ org.filterTopDepartments depIDs ↔ info.id ∈ depIDs ∧
    ∀ id ∈ pathIDs info.path, id ∈ depIDs → id = info.id := by
  have kept : info.id ∈ org.filterTopDepartments depIDs ↔ info.id ∈ depIDs ∧
      ∀ other ∈ org.departments, other.id ∈ depIDs → other.id ∈ pathIDs info.path → other.id = info.id := by
    simp only [filterTopDepartments, mem_map, mem_filter, mem_getDepartmentInfo, Bool.not_eq_true',
      any_eq_false, Bool.and_eq_true, decide_eq_true_eq, not_and, not_not]
    constructor
    · rintro ⟨found, ⟨⟨isFound, listed⟩, alone⟩, same⟩
      obtain rfl := paths.eq_of_id isFound mem same
      exact ⟨listed, fun other isOther isListed onPath => alone other ⟨isOther, isListed⟩
        ((paths.contains_iff_begins isOther mem).mpr ((paths.begins_iff_mem isOther mem).mpr onPath))⟩
    · rintro ⟨listed, alone⟩
      exact ⟨info, ⟨⟨mem, listed⟩, fun other isOther contained => alone other isOther.1 isOther.2
        ((paths.begins_iff_mem isOther.1 mem).mp ((paths.contains_iff_begins isOther.1 mem).mp contained))⟩, rfl⟩
  rw [kept]
  refine and_congr_right fun _ => ⟨fun alone id onPath isListed => ?_, fun alone other _ isListed onPath =>
    alone _ onPath isListed⟩
  obtain ⟨above, isAbove, rfl⟩ := paths.exists_of_mem_path mem onPath
  exact alone above isAbove isListed onPath

omit paths in
private theorem exists_of_mem_filterTopDepartments {id : String} (top : id ∈ org.filterTopDepartments depIDs) :
    ∃ info ∈ org.departments, info.id = id := by
  obtain ⟨info, kept, same⟩ := mem_map.mp top
  exact ⟨info, mem_of_mem_filter (mem_of_mem_filter kept), same⟩

/-- Kept are, once each, the departments of the list with no other one of it on their paths. Each department of the list
has one of them on its path, and none of them is on the path of another. -/
theorem top_departments : (org.filterTopDepartments depIDs).Nodup ∧
    (∀ id, id ∈ org.filterTopDepartments depIDs ↔ ∃ info ∈ org.departments, info.id = id ∧ id ∈ depIDs ∧
      ∀ above ∈ pathIDs info.path, above ∈ depIDs → above = id) ∧
    (∀ info ∈ org.departments, info.id ∈ depIDs → ∃! top, top ∈ org.filterTopDepartments depIDs ∧
      top ∈ pathIDs info.path) ∧ ∀ info ∈ org.departments, info.id ∈ org.filterTopDepartments depIDs →
      ∀ top ∈ org.filterTopDepartments depIDs, top ∈ pathIDs info.path → top = info.id := by
  refine ⟨(((filter_sublist.trans filter_sublist).map _).nodup paths.ids), fun id =>
    ⟨fun top => ?_, ?_⟩, fun info mem listed => ?_,
    fun info mem kept top isTop onPath => ?_⟩
  · obtain ⟨info, mem, rfl⟩ := exists_of_mem_filterTopDepartments depIDs top
    exact ⟨info, mem, rfl, (mem_filterTopDepartments paths depIDs mem).mp top⟩
  · rintro ⟨info, mem, rfl, alone⟩
    exact (mem_filterTopDepartments paths depIDs mem).mpr alone
  · have top := paths.pathForest.existsUnique_top (p := (· ∈ depIDs))
      ⟨info, mem, rfl⟩ ⟨info.id, mem_of_getLast? (paths.last info mem), listed⟩
    refine (existsUnique_congr fun id => and_congr_left fun onPath => ?_).mp top
    obtain ⟨above, isAbove, rfl⟩ := paths.exists_of_mem_path mem onPath
    rw [mem_filterTopDepartments paths depIDs isAbove]
    refine and_congr_right fun _ => ⟨fun only => only _ ⟨above, isAbove, rfl⟩ (paths.last above isAbove), ?_⟩
    rintro only _ ⟨own, isOwn, rfl⟩ last
    rw [paths.last own isOwn, Option.some_inj] at last
    rwa [paths.eq_of_id isOwn isAbove last]
  · obtain ⟨above, isAbove, rfl⟩ := exists_of_mem_filterTopDepartments depIDs isTop
    exact ((mem_filterTopDepartments paths depIDs mem).mp kept).2 _ onPath
      ((mem_filterTopDepartments paths depIDs isAbove).mp isTop).1

omit paths in
/-- Of sales and a department below it, sales is kept. -/
theorem top_departments_company : RootedPaths Sample.company.departments ∧
    ∃! top, top ∈ Sample.company.filterTopDepartments [Sample.travel.id, Sample.sales.id] ∧
    top ∈ pathIDs Sample.travel.path := by
  have paths := Sample.company_forest.toRootedPaths
  exact ⟨paths, (top_departments paths [Sample.travel.id, Sample.sales.id]).2.2.1 Sample.travel
    (by simp [Sample.company])
    mem_cons_self⟩

end SecurityFabric.UserManagement
