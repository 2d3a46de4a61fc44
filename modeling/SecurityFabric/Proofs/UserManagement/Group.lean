import SecurityFabric.Model.UserManagement.Group
import SecurityFabric.Proofs.UserManagement.Department
import SecurityFabric.ToMathlib.Guarantees

/-! # The groups that the query finds

A department is on the paths of a user if it is on the path of one of their rows. The query finds the
groups that exist and have one of the given ids as a member, and it succeeds only if no row of a group
that does not exist is selected.
-/

namespace SecurityFabric.UserManagement

open List

variable (groupID : String) (ids : List String)

/-- The department is on a path of the user. -/
def OnPath (org : Organisation) (userID id : String) : Prop :=
  ∃ row ∈ org.userDeparts, row.userID = userID ∧ row.path ≠ unDistribute ∧ id ∈ pathIDs row.path

theorem Organisation.mem_getAllBelongDepartmentIDs (org : Organisation) (userID id : String) :
    id ∈ org.getAllBelongDepartmentIDs userID ↔ OnPath org userID id := by
  rw [getAllBelongDepartmentIDs, mem_removeDuplicatStrs, org.getD_lookup_getUsersPath (mem_singleton.mpr rfl)]
  simp only [mem_flatMap, mem_filter, mem_map, decide_eq_true_eq]
  constructor
  · rintro ⟨path, ⟨⟨row, ⟨found, own⟩, rfl⟩, assigned⟩, onPath⟩
    exact ⟨row, found, own, assigned, onPath⟩
  · rintro ⟨row, found, own, assigned, onPath⟩
    exact ⟨row.path, ⟨⟨row, ⟨found, own⟩, rfl⟩, assigned⟩, onPath⟩

namespace GroupTables

variable (tables : GroupTables)

/-- One of these is a member of the group. -/
def HasMember : Prop := ∃ member ∈ tables.members, member.groupID = groupID ∧ member.memberID ∈ ids

/-- A group with one of these as a member, as the query returns it. -/
def IsGroupOf (group : GroupInfo) : Prop :=
  ∃ info ∈ tables.groups, group = ⟨info.id, info.name, ""⟩ ∧ tables.HasMember info.id ids

private theorem some_mem_joinedNames (groupID name : String) :
    some name ∈ tables.joinedNames groupID ↔ ∃ info ∈ tables.groups, info.id = groupID ∧ info.name = name := by
  have selected : (∃ info ∈ tables.groups, info.id = groupID ∧ info.name = name) ↔
      ∃ info ∈ tables.groups.filter fun info => info.id = groupID, info.name = name := by
    simp [and_assoc]
  rw [selected, joinedNames]
  cases tables.groups.filter fun info => info.id = groupID with
  | nil => simp
  | cons first rest => simp [eq_comm]

private theorem none_mem_joinedNames :
    none ∈ tables.joinedNames groupID ↔ ∀ info ∈ tables.groups, info.id ≠ groupID := by
  have absent : (∀ info ∈ tables.groups, info.id ≠ groupID) ↔
    (tables.groups.filter fun info => info.id = groupID) = [] := by simp
  rw [absent, joinedNames]
  cases tables.groups.filter fun info => info.id = groupID with
  | nil | cons first rest => simp

/-- No member of these is a member of a group that does not exist. -/
def Joined : Prop := ∀ member ∈ tables.members, member.memberID ∈ ids → ∃ info ∈ tables.groups, info.id = member.groupID

variable {tables} {memberIDs groupIDs : List String} {groups : List GroupInfo}

private theorem mem_belongRows (id : String) (name : Option String) :
    (id, name) ∈ tables.belongRows memberIDs ↔ tables.HasMember id memberIDs ∧ name ∈ tables.joinedNames id := by
  simp only [belongRows, mem_dedup, mem_flatMap, mem_filter, decide_eq_true_eq, mem_map, Prod.mk.injEq]
  constructor
  · rintro ⟨member, ⟨found, among⟩, _, joined, rfl, rfl⟩
    exact ⟨⟨member, found, rfl, among⟩, joined⟩
  · rintro ⟨⟨member, found, rfl, among⟩, joined⟩
    exact ⟨member, ⟨found, among⟩, name, joined, rfl, rfl⟩

/-- What the query found, and that it found no group without a name. -/
theorem getMembersBelongGroupIDs_ok (success : tables.getMembersBelongGroupIDs memberIDs = .ok (groupIDs, groups)) :
    groupIDs = groups.map (·.id) ∧ (∀ group, group ∈ groups ↔ tables.IsGroupOf memberIDs group) ∧
    tables.Joined memberIDs := by
  obtain ⟨scanned, ran, success⟩ := bind_ok success
  cases success
  refine ⟨rfl, fun group => ?_, fun member found among => ?_⟩
  · rw [mem_mapM_ok ran]
    constructor
    · rintro ⟨⟨id, name⟩, row, read⟩
      obtain ⟨has, joined⟩ := mem_belongRows id name |>.mp row
      cases name with
      | none => cases read
      | some name =>
        cases read
        obtain ⟨info, exists_info, rfl, rfl⟩ := (tables.some_mem_joinedNames id name).mp joined
        exact ⟨info, exists_info, rfl, has⟩
    · rintro ⟨info, exists_info, rfl, has⟩
      have joined := (tables.some_mem_joinedNames info.id info.name).mpr ⟨info, exists_info, rfl, rfl⟩
      exact ⟨(info.id, some info.name), (mem_belongRows _ _).mpr ⟨has, joined⟩, rfl⟩
  · by_contra absent
    have unnamed : none ∈ tables.joinedNames member.groupID :=
      (tables.none_mem_joinedNames _).mpr fun info found same => absent ⟨info, found, same⟩
    have row := (mem_belongRows _ _).mpr ⟨⟨member, found, rfl, among⟩, unnamed⟩
    obtain ⟨_, read⟩ := exists_of_mapM_ok ran _ row
    cases read

theorem getMembersBelongGroupIDs_of_joined (joined : tables.Joined memberIDs) :
    ∃ found, tables.getMembersBelongGroupIDs memberIDs = .ok found := by
  have reads : ∀ row ∈ tables.belongRows memberIDs, ∃ group, scanGroup row = .ok group := by
    rintro ⟨id, name⟩ row
    obtain ⟨⟨member, found, rfl, among⟩, isName⟩ := mem_belongRows id name |>.mp row
    cases name with
    | some name => exact ⟨_, rfl⟩
    | none =>
      obtain ⟨info, exists_info, same⟩ := joined member found among
      exact absurd same ((tables.none_mem_joinedNames _).mp isName info exists_info)
  obtain ⟨groups, ran⟩ := mapM_ok_of_forall reads
  exact ⟨_, by rw [getMembersBelongGroupIDs, ran]; rfl⟩

end GroupTables

/-! # What the answers about groups read and compute

Each query that is made in batches finds what it would find at once. The loop over users keeps the page of those who are
in the group. What is shown of a member depends on this member alone.
-/

open GoMap AList

/-- The paths of a user. -/
def userPaths (org : Organisation) (userID : String) : List String :=
  (org.userDeparts.filter fun row => row.userID = userID).map (·.path)

theorem exists_last {ρ : Type} (key : ρ → String) {rows : List ρ} {row : ρ} (mem : row ∈ rows) :
    ∃ last ∈ rows, key last = key row ∧ (rows.filter fun other => key other = key row).getLast? = some last := by
  have found : row ∈ rows.filter fun other => key other = key row := mem_filter.mpr ⟨mem, decide_eq_true rfl⟩
  obtain ⟨isRow, same⟩ := mem_filter.mp (getLast_mem (ne_nil_of_mem found))
  exact ⟨_, isRow, of_decide_eq_true same, getLast?_eq_some_getLast _⟩

variable {ids : List String}

namespace Organisation

variable (org : Organisation)

private theorem lookup_getUsersPath_eq (ids : List String) (userID : String) :
    (org.getUsersPath ids).lookup userID = if userID ∈ ids ∧
    HasRow org.userDeparts userID then some (userPaths org userID) else none := by
  cases found : (org.getUsersPath ids).lookup userID with
  | some paths =>
    obtain ⟨asked, has, same⟩ := (org.lookup_getUsersPath ids userID paths).mp found
    rw [if_pos ⟨asked, has⟩, same]
    rfl
  | none =>
    rw [if_neg]
    rintro ⟨asked, has⟩
    rw [(org.lookup_getUsersPath ids userID _).mpr ⟨asked, has, rfl⟩] at found
    cases found

/-- Those of the users who have a row, with all their paths. -/
theorem lookup_getUsersPath2 (ids : List String) (userID : String) :
    (org.getUsersPath2 ids).lookup userID = if userID ∈ ids ∧
    HasRow org.userDeparts userID then some (userPaths org userID) else none := by
  have overlaid (batches : List (List String)) (paths : GoMap String (List String)) :
      (batches.foldl (fun paths batch => overlay (fun _ v => v) (org.getUsersPath batch) paths) paths).lookup
        userID = if userID ∈ batches.flatten ∧ HasRow org.userDeparts userID then some (userPaths org userID)
        else paths.lookup userID := by
    induction batches generalizing paths with
    | nil => simp
    | cons batch rest ih =>
      rw [foldl_cons, ih, lookup_overlay, lookup_getUsersPath_eq]
      by_cases has : HasRow org.userDeparts userID
      · by_cases later : userID ∈ rest.flatten
        · simp [has, later]
        · by_cases first : userID ∈ batch <;> simp [has, first]
      · simp [has]
  rw [getUsersPath2, overlaid, flatten_splitArray, lookup_empty]

theorem getD_lookup_getUsersPath2 {userID : String} (asked : userID ∈ ids) :
    ((org.getUsersPath2 ids).lookup userID).getD [] = userPaths org userID := by
  rw [lookup_getUsersPath2]
  split_ifs with has
  · rfl
  · have empty : (org.userDeparts.filter fun row => row.userID = userID) = [] :=
      filter_eq_nil_iff.mpr fun row mem own => has ⟨asked, row, mem, of_decide_eq_true own⟩
    rw [userPaths, empty]
    rfl

private theorem mem_getDepartmentInfoByIDs (deptIDs : List String) (info : DepartmentDBInfo) :
    info ∈ org.getDepartmentInfoByIDs deptIDs ↔ info ∈ org.departments ∧ info.id ∈ deptIDs :=
  mem_batches org.departments DepartmentDBInfo.id deptIDs info

theorem mem_searchUserInfoByName (upper : String → String) (key : String) (info : UserDBInfo) :
    info ∈ org.searchUserInfoByName upper key ↔ info ∈ org.users ∧
    like (("%" ++ key ++ "%").toList) info.name.toList = true := by
  rw [searchUserInfoByName, mem_mergeSort, mem_filter]

end Organisation

/-- The members of a group as the query returns them. -/
def groupMembers (tables : GroupTables) (groupID : String) : List GroupMemberInfo :=
  (tables.members.filter fun member => member.groupID = groupID).map fun member =>
    ⟨member.memberID, member.memberType, "", []⟩

theorem getD_lookup_getGroupMembersByGroupIDs2 (tables : GroupTables) (groupID : String) :
    ((tables.getGroupMembersByGroupIDs2 [groupID]).lookup groupID).getD [] = groupMembers tables groupID := by
  rw [GroupTables.getGroupMembersByGroupIDs2, lookup_concat, filter_filter,
    filter_congr (q := (·.groupID = groupID)), groupMembers]
  · split_ifs with empty
    · simp [empty]
    · simp [map_eq_flatMap]
  · simp

namespace Directory

/-- What the loop has after the users in the group among those it has seen. -/
structure Paged (membersOf : String → List GroupMemberInfo) (offset limit : Nat) (valid : List String)
    (paging : Paging) : Prop where
  nValidIndex : paging.nValidIndex = valid.length
  existUserIDs : paging.existUserIDs = page valid offset limit
  existGroupMember : ∀ userID, paging.existGroupMember.lookup userID =
    if userID ∈ page valid offset limit then some (membersOf userID) else none

/-- The members through which the loop finds a user in the group. -/
def membersOf (userParentDeps : GoMap String (GoSet String)) (memberInfos : List GroupMemberInfo) (userID : String) :
    List GroupMemberInfo := existMembers userID ((userParentDeps.lookup userID).getD ∅) memberInfos

variable {userParentDeps : GoMap String (GoSet String)} {memberInfos : List GroupMemberInfo} {offset limit : Nat}

private theorem Paging.visit_eq (paging : Paging) (userID : String) :
    paging.visit userParentDeps memberInfos offset limit userID =
      if membersOf userParentDeps memberInfos userID = [] then paging
      else if paging.nValidIndex ≥ offset ∧ paging.existUserIDs.length < (limit : Int) then
        ⟨paging.nValidIndex + 1, paging.existUserIDs ++ [userID],
          paging.existGroupMember.insert userID (membersOf userParentDeps memberInfos userID)⟩
      else { paging with nValidIndex := paging.nValidIndex + 1 } := rfl

private theorem Paged.visit {valid : List String} {paging : Paging}
    (paged : Paged (membersOf userParentDeps memberInfos) offset limit valid paging)
    (userID : String) : Paged (membersOf userParentDeps memberInfos) offset limit
      (valid ++ [userID].filter fun userID => membersOf userParentDeps memberInfos userID ≠ [])
      (paging.visit userParentDeps memberInfos offset limit userID) := by
  by_cases outside : membersOf userParentDeps memberInfos userID = []
  · rw [Paging.visit_eq]
    simpa [outside] using paged
  · have added : [userID].filter (fun userID => membersOf userParentDeps memberInfos userID ≠ []) = [userID] := by
      simp [outside]
    have onPage : paging.nValidIndex ≥ offset ∧ paging.existUserIDs.length < (limit : Int) ↔
        offset ≤ valid.length ∧ (page valid offset limit).length < limit := by
      rw [paged.nValidIndex, paged.existUserIDs]
      omega
    have counted : paging.nValidIndex + 1 = ((valid ++ [userID]).length : Int) := by
      rw [paged.nValidIndex, length_append]
      rfl
    rw [Paging.visit_eq, added]
    split_ifs with room
    · have grown := page_concat valid userID offset limit
      rw [if_pos (onPage.mp room)] at grown
      refine ⟨counted, ?_, fun other => ?_⟩
      · rw [grown, paged.existUserIDs]
      · rw [grown]
        by_cases same : other = userID
        · subst same
          rw [lookup_insert, if_pos (by simp)]
        · rw [lookup_insert_ne same, paged.existGroupMember]
          simp [same]
    · have unchanged := page_concat valid userID offset limit
      rw [if_neg fun fits => room (onPage.mpr fits)] at unchanged
      refine ⟨counted, ?_, fun other => ?_⟩
      · rw [unchanged, paged.existUserIDs]
      · rw [unchanged, paged.existGroupMember]

theorem paged_getExistUsersGroupMembers (userIDs : List String) :
    Paged (membersOf userParentDeps memberInfos) offset limit
    (userIDs.filter fun userID => membersOf userParentDeps memberInfos userID ≠ [])
    (getExistUsersGroupMembers userIDs userParentDeps memberInfos offset limit) := by
  induction userIDs using reverseRecOn with
  | nil => exact ⟨rfl, by simp [getExistUsersGroupMembers], fun userID => by simp [getExistUsersGroupMembers]⟩
  | append_singleton userIDs userID ih =>
    rw [filter_append, getExistUsersGroupMembers, foldl_append]
    exact ih.visit userID

variable (dir : Directory)

/-- The name of a department on a path. -/
def nameOf (language : Language) (id : String) : String :=
  if id = unDistribute then objectsInUnDistributeUserGroup language
  else ((dir.org.departments.find? fun info => info.id = id).map (·.name)).getD ""

/-- A path with its names. -/
def label (language : Language) (ids : List String) : List NameInfo := ids.map fun id => ⟨id, dir.nameOf language id⟩

variable {dir} (forest : DepartmentForest dir.org.departments)

include forest

/-- The names found for some of the departments. -/
theorem lookup_assign_name {id : String} (asked : id ∈ ids) :
    (assign DepartmentDBInfo.id DepartmentDBInfo.name (dir.org.getDepartmentInfoByIDs ids) ∅).lookup id =
      (dir.org.departments.find? fun info => info.id = id).map (·.name) := by
  cases found : dir.org.departments.find? fun info => info.id = id with
  | some info =>
    have mem : info ∈ dir.org.departments := mem_of_find?_eq_some found
    have same : info.id = id := by simpa using find?_some found
    subst same
    exact forest.lookup_assign_id (fun info listed => ((dir.org.mem_getDepartmentInfoByIDs ids info).mp listed).1)
      ((dir.org.mem_getDepartmentInfoByIDs ids info).mpr ⟨mem, asked⟩) DepartmentDBInfo.name
  | none =>
    rw [Option.map_none, lookup_eq_none, mem_assign]
    rintro (⟨info, listed, same⟩ | absent)
    · have mem := ((dir.org.mem_getDepartmentInfoByIDs ids info).mp listed).1
      exact find?_eq_none.mp found info mem (decide_eq_true same)
    · exact notMem_empty _ absent

/-- Every path that is asked for gets its names. -/
theorem lookup_handlePathParams (visitor : TypedVisitor) (userIDs departIDs : List String) (id : String) :
    (dir.handlePathParams visitor userIDs departIDs).1.lookup id =
      ((dir.memberPaths userIDs departIDs).lookup id).map (·.map (dir.label visitor.language)) := by
  rw [handlePathParams, lookup_filterMap]
  cases found : (dir.memberPaths userIDs departIDs).lookup id with
  | none => rfl
  | some paths =>
    refine congrArg some (map_congr_left fun path isPath => map_congr_left fun onPath isOnPath => ?_)
    have listed : onPath ∈ (dir.memberPaths userIDs departIDs).values.flatten.flatten :=
      mem_flatten.mpr ⟨path, mem_flatten.mpr ⟨paths, (mem_values _ _).mpr ⟨id, found⟩, isPath⟩, isOnPath⟩
    rw [NameInfo.mk.injEq]
    refine ⟨rfl, ?_⟩
    rw [depNameMap, nameOf]
    split_ifs with unassigned
    · rw [unassigned]
      rfl
    · rw [lookup_insert_ne unassigned, lookup_assign_name forest ((mem_removeDuplicatStrs _ _).mpr listed)]

variable {userIDs departIDs : List String}

omit forest in
/-- Of a user, their paths. -/
theorem getD_lookup_memberPaths {userID : String} (asked : userID ∈ userIDs)
    (notDepartment : ∀ info ∈ dir.org.departments, info.id ≠ userID) :
    ((dir.memberPaths userIDs departIDs).lookup userID).getD [] = (userPaths dir.org userID).map pathIDs := by
  have none : (assign DepartmentDBInfo.id (fun info => [(pathIDs info.path).dropLast])
      (dir.org.getDepartmentInfoByIDs departIDs) ∅).lookup userID = none := by
    rw [lookup_eq_none, mem_assign]
    rintro (⟨info, listed, same⟩ | absent)
    · exact notDepartment info ((dir.org.mem_getDepartmentInfoByIDs departIDs info).mp listed).1 same
    · exact notMem_empty _ absent
  have paths := dir.org.getD_lookup_getUsersPath2 asked
  rw [memberPaths, lookup_overlay, none, ← paths]
  cases (dir.org.getUsersPath2 userIDs).lookup userID with
  | none | some paths => rfl

variable {depart : DepartmentDBInfo}

private theorem lookup_memberPaths_department (mem : depart ∈ dir.org.departments) (asked : depart.id ∈ departIDs)
    (notUser : depart.id ∉ userIDs) :
    (dir.memberPaths userIDs departIDs).lookup depart.id = some [(pathIDs depart.path).dropLast] := by
  have found := forest.lookup_assign_id (fun info listed =>
    ((dir.org.mem_getDepartmentInfoByIDs departIDs info).mp listed).1)
    ((dir.org.mem_getDepartmentInfoByIDs departIDs depart).mpr ⟨mem, asked⟩)
    fun info => [(pathIDs info.path).dropLast]
  rw [memberPaths, lookup_overlay, found, dir.org.lookup_getUsersPath2, if_neg fun is => notUser is.1]
  rfl

variable (visitor : TypedVisitor) (userName : String) {v : GroupMemberInfo}

theorem fillMember_user (isUser : v.memberType ≠ 2) (asked : v.id ∈ userIDs)
    (notDepartment : ∀ info ∈ dir.org.departments, info.id ≠ v.id) :
    fillMember (dir.handlePathParams visitor userIDs departIDs).1 (dir.handlePathParams visitor userIDs departIDs).2
      userName v = ⟨v.id, v.memberType, userName, (userPaths dir.org v.id).map fun path =>
        dir.label visitor.language (pathIDs path)⟩ := by
  rw [fillMember, lookup_handlePathParams forest, show (Option.map _ _).getD [] = _ from
    Option.getD_map (map (dir.label visitor.language)) [] _,
    getD_lookup_memberPaths asked notDepartment, map_map, if_neg (by omega)]
  rfl

theorem fillMember_department (isDepartment : v.memberType = 2) (mem : depart ∈ dir.org.departments)
    (same : v.id = depart.id) (asked : depart.id ∈ departIDs) (notUser : depart.id ∉ userIDs) :
    fillMember (dir.handlePathParams visitor userIDs departIDs).1 (dir.handlePathParams visitor userIDs departIDs).2
      userName v = ⟨v.id, v.memberType, depart.name, [dir.label visitor.language (pathIDs depart.path).dropLast]⟩ := by
  have name : (dir.handlePathParams visitor userIDs departIDs).2.lookup depart.id = some depart.name :=
    forest.lookup_assign_id (fun info listed => ((dir.org.mem_getDepartmentInfoByIDs departIDs info).mp listed).1)
      ((dir.org.mem_getDepartmentInfoByIDs departIDs depart).mpr ⟨mem, asked⟩) DepartmentDBInfo.name
  rw [fillMember, same, lookup_handlePathParams forest, lookup_memberPaths_department forest mem asked notUser,
    name, if_pos (by omega)]
  rfl

end Directory

end SecurityFabric.UserManagement
