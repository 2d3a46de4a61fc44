import SecurityFabric.Proofs.UserManagement.Group

/-! # One membership in groups

A user is in a group if they or a department on one of their paths are a member of it. In a directory whose members
exist, `UserMatch` finds a member exactly for such a user, the group is among what may be granted access in their stead,
and a search that finds their name, which must have no backslash, shows them on some page with the same members.
-/

namespace SecurityFabric.UserManagement.Directory

open List GoMap

variable {visitor : TypedVisitor} {currentTime : Int}

section

variable (dir : Directory) (groupID userID : String) (key : String)

/-- The user, or a department on one of their paths, is a member of the group. -/
def InGroup : Prop :=
  ∃ member ∈ dir.tables.members, member.groupID = groupID ∧ ((member.memberType = 1 ∧ member.memberID = userID) ∨
      (member.memberType = 2 ∧ ∃ path ∈ userPaths dir.org userID, member.memberID ∈ pathIDs path))

instance : Decidable (dir.InGroup groupID userID) :=
  inferInstanceAs (Decidable (∃ member ∈ dir.tables.members, _))

/-- The departments are a forest to which the rows of users belong, users have ids of their own, and none of
these is the id of a department. -/
structure WellFormed : Prop where
  forest : DepartmentForest dir.org.departments
  rows : RowsMatch dir.org.departments dir.org.userDeparts
  userKey : (dir.org.users.map (·.id)).Nodup
  userIDs : ∀ user ∈ dir.org.users, user.id ≠ ""
  kinds : ∀ user ∈ dir.org.users, ∀ info ∈ dir.org.departments, info.id ≠ user.id

/-- The id of a group is not empty and not the id of anything else. -/
structure OwnID (groupID : String) : Prop where
  nonempty : groupID ≠ ""
  notUser : ∀ user ∈ dir.org.users, user.id ≠ groupID
  notDepartment : ∀ info ∈ dir.org.departments, info.id ≠ groupID
  notContactor : ∀ row ∈ dir.contactPersons, row.groupID ≠ groupID
  notInternal : ∀ row ∈ dir.internalMembers, row.internalGroupID ≠ groupID

/-- The members of the group are existing users or departments. -/
def MembersExist (groupID : String) : Prop :=
  ∀ member ∈ dir.tables.members, member.groupID = groupID →
    (member.memberType = 1 ∧ ∃ user ∈ dir.org.users, user.id = member.memberID) ∨
      (member.memberType = 2 ∧ ∃ info ∈ dir.org.departments, info.id = member.memberID)

/-- The members through which a user is in the group. -/
def membersVia : List GroupMemberInfo :=
  existMembers userID (allParentDeps (userPaths dir.org userID)) (groupMembers dir.tables groupID)

/-- The ids of the users whose names a search for the key finds. -/
def searched : List String := (dir.org.searchUserInfoByName dir.upper key).map (·.id)

/-- Those of them in the group. -/
def filtered (groupID key : String) : List String := (dir.searched key).filter fun userID => dir.InGroup groupID userID

/-- The ids on the paths of each of these users who has a path. -/
def parentDeps (ids : List String) : GoMap String (GoSet String) :=
  filterMap (fun _ paths => some (allParentDeps paths)) (dir.org.getUsersPath2 ids)

/-- A member as it is shown when it is asked for alone, with the user it is a member for. -/
def shownAlone (visitor : TypedVisitor) (userID userName : String) (v : GroupMemberInfo) : GroupMemberInfo :=
  fillMember (dir.handlePathParams visitor [userID] [v.id]).1
    (dir.handlePathParams visitor [userID] [v.id]).2 userName v

end

variable {dir : Directory} {groupID : String}

private theorem mem_membersVia (userID : String) (v : GroupMemberInfo) :
    v ∈ dir.membersVia groupID userID ↔ v ∈ groupMembers dir.tables groupID ∧
    ((v.memberType = 1 ∧ v.id = userID) ∨ (v.memberType = 2 ∧
      ∃ path ∈ userPaths dir.org userID, v.id ∈ pathIDs path)) := by
  have one : v.memberType - 1 = 0 ↔ v.memberType = 1 := by omega
  have two : v.memberType - 2 = 0 ↔ v.memberType = 2 := by omega
  rw [membersVia, existMembers, mem_filter, decide_eq_true_iff, one, two, allParentDeps, mem_collect, mem_flatMap]

private theorem membersVia_ne_nil_iff (userID : String) :
    dir.membersVia groupID userID ≠ [] ↔ dir.InGroup groupID userID := by
  have nonempty : dir.membersVia groupID userID ≠ [] ↔ ∃ v, v ∈ dir.membersVia groupID userID :=
    ⟨exists_mem_of_ne_nil _, fun ⟨_, mem⟩ => ne_nil_of_mem mem⟩
  rw [nonempty]
  simp only [mem_membersVia, groupMembers, mem_map, mem_filter, decide_eq_true_eq]
  constructor
  · rintro ⟨v, ⟨member, ⟨found, own⟩, rfl⟩, via⟩
    exact ⟨member, found, own, via⟩
  · rintro ⟨member, found, own, via⟩
    exact ⟨_, ⟨member, ⟨found, own⟩, rfl⟩, via⟩

private theorem notMem_of_foreign {ρ : Type} {rows : List ρ} {key : ρ → String} {id : String} {test : ρ → Bool}
    (foreign : ∀ row ∈ rows, key row ≠ id) : id ∉ (rows.filter test).map key := by
  intro listed
  obtain ⟨row, found, same⟩ := mem_map.mp listed
  exact foreign row (mem_of_mem_filter found) same

variable {key : String}

section Agreement

variable (wellFormed : dir.WellFormed) (membersExist : dir.MembersExist groupID) {user : UserDBInfo}
  (existing : user ∈ dir.org.users)

include wellFormed

variable {userID : String}

private theorem exists_of_onPath {id : String} (onPath : OnPath dir.org userID id) :
    ∃ info ∈ dir.org.departments, info.id = id := by
  obtain ⟨row, found, _, assigned, within⟩ := onPath
  rcases wellFormed.rows row found with ⟨_, unassigned⟩ | ⟨info, mem, _, path⟩
  · exact absurd unassigned assigned
  · rw [path] at within
    exact wellFormed.forest.exists_of_mem_path mem within

include existing in
private theorem length_getUserName : (dir.org.getUserName [user.id]).length = 1 := by
  have once : (dir.org.users.map (·.id)).count user.id = 1 :=
    count_eq_one_of_mem wellFormed.userKey (mem_map_of_mem existing)
  rw [← once, List.count, countP_map, countP_eq_length_filter]
  simp [Organisation.getUserName, splitArray, Function.comp_def]
  rfl

include membersExist existing

/-- The query for the ids of a user and of the departments above finds the group of such a member. -/
theorem hasMember_iff_inGroup :
    dir.tables.HasMember groupID (user.id :: dir.org.getAllBelongDepartmentIDs user.id) ↔
    dir.InGroup groupID user.id := by
  refine exists_congr fun member => and_congr_right fun found => and_congr_right fun own => ?_
  rw [mem_cons, dir.org.mem_getAllBelongDepartmentIDs]
  -- the query compares ids alone, so that the type fits is known from what the member is
  rcases membersExist member found own with ⟨isUser, other, otherUser, id⟩ | ⟨isDepartment, info, infoMem, id⟩
  · constructor
    · rintro (same | onPath)
      · exact .inl ⟨isUser, same⟩
      · obtain ⟨info, infoMem, same⟩ := exists_of_onPath wellFormed onPath
        exact absurd (same.trans id.symm) (wellFormed.kinds other otherUser info infoMem)
    · rintro (⟨_, same⟩ | ⟨isDepartment, _⟩)
      · exact .inl same
      · omega
  · constructor
    · rintro (same | ⟨row, rowMem, rowUser, _, within⟩)
      · exact absurd (id.trans same) (wellFormed.kinds user existing info infoMem)
      · refine .inr ⟨isDepartment, row.path, mem_map.mpr ⟨row, ?_, rfl⟩, within⟩
        exact mem_filter.mpr ⟨rowMem, decide_eq_true rowUser⟩
    · rintro (⟨isUser, _⟩ | ⟨_, path, isPath, within⟩)
      · omega
      · obtain ⟨row, ofUser, rfl⟩ := mem_map.mp isPath
        obtain ⟨rowMem, rowUser⟩ := mem_filter.mp ofUser
        refine .inr ⟨row, rowMem, of_decide_eq_true rowUser, fun unassigned => ?_, within⟩
        rw [unassigned, pathIDs_unDistribute, mem_singleton] at within
        exact wellFormed.forest.ne_unDistribute infoMem (id.trans within)

private theorem mem_getAccessorIDsOfUser (own : dir.OwnID groupID)
    (isGroup : ∃ group ∈ dir.tables.groups, group.id = groupID)
    {accessorIDs : List String} (success : dir.getAccessorIDsOfUser user.id = .ok accessorIDs) :
    groupID ∈ accessorIDs ↔ dir.InGroup groupID user.id := by
  obtain ⟨_, success⟩ := guard_ok success
  obtain ⟨⟨groupIDs, groups⟩, ran, success⟩ := bind_ok success
  cases success
  obtain ⟨rfl, isGroupOf, _⟩ := GroupTables.getMembersBelongGroupIDs_ok ran
  have notDepartment : groupID ∉ dir.org.getAllBelongDepartmentIDs user.id := by
    intro listed
    obtain ⟨info, mem, same⟩ := exists_of_onPath wellFormed ((dir.org.mem_getAllBelongDepartmentIDs _ _).mp listed)
    exact own.notDepartment info mem same
  have notContactor : groupID ∉ dir.getUserAllBelongContactorIDs user.id := notMem_of_foreign own.notContactor
  have notInternal : groupID ∉ dir.getBelongGroups user.id 1 := notMem_of_foreign own.notInternal
  have amongGroups : groupID ∈ groups.map (·.id) ↔ dir.InGroup groupID user.id := by
    rw [← hasMember_iff_inGroup wellFormed membersExist existing, mem_map]
    constructor
    · rintro ⟨group, found, rfl⟩
      obtain ⟨info, _, rfl, has⟩ := (isGroupOf group).mp found
      exact has
    · intro has
      obtain ⟨info, mem, rfl⟩ := isGroup
      exact ⟨_, (isGroupOf _).mpr ⟨info, mem, rfl, has⟩, rfl⟩
  simp only [mem_append, mem_cons, (own.notUser user existing).symm, notDepartment, notContactor, notInternal,
    false_or, or_false, amongGroups]

omit existing membersExist in
private theorem exists_getAccessorIDsOfUser (existing : user ∈ dir.org.users)
    (joined : dir.tables.Joined (user.id :: dir.org.getAllBelongDepartmentIDs user.id)) :
    ∃ accessorIDs, dir.getAccessorIDsOfUser user.id = .ok accessorIDs := by
  obtain ⟨found, ran⟩ := GroupTables.getMembersBelongGroupIDs_of_joined joined
  apply Exists.intro
  rw [getAccessorIDsOfUser, if_neg (not_not.mpr (length_getUserName wellFormed existing))]
  change (dir.tables.getMembersBelongGroupIDs (user.id :: dir.org.getAllBelongDepartmentIDs user.id) >>= _) = _
  rw [ran]
  rfl

omit existing in
/-- A member is shown as if it had been asked for alone. -/
theorem fillMember_eq_alone (visitor : TypedVisitor) (userName : String) {userIDs departIDs : List String}
    {v : GroupMemberInfo}
    (via : v ∈ dir.membersVia groupID userID) (asked : userID ∈ userIDs)
    (users : ∀ id ∈ userIDs, ∃ user ∈ dir.org.users, user.id = id)
    (departs : v.memberType = 2 → v.id ∈ departIDs) :
    fillMember (dir.handlePathParams visitor userIDs departIDs).1 (dir.handlePathParams visitor userIDs departIDs).2
      userName v = dir.shownAlone visitor userID userName v := by
  obtain ⟨found, through⟩ := (mem_membersVia userID v).mp via
  obtain ⟨member, ofGroup, rfl⟩ := mem_map.mp found
  obtain ⟨isMember, own⟩ := mem_filter.mp ofGroup
  have notDepartment (id : String) (listed : id ∈ userIDs) : ∀ info ∈ dir.org.departments, info.id ≠ id := by
    obtain ⟨user, existing, rfl⟩ := users id listed
    exact wellFormed.kinds user existing
  rcases through with ⟨isUser, rfl⟩ | ⟨isDepartment, _⟩
  · have notTwo : member.memberType ≠ 2 := by
      intro two
      exact absurd (isUser.symm.trans two) (by decide)
    rw [shownAlone, fillMember_user wellFormed.forest visitor userName notTwo asked (notDepartment _ asked),
      fillMember_user wellFormed.forest visitor userName notTwo mem_cons_self (notDepartment _ asked)]
  · rcases membersExist member isMember (of_decide_eq_true own) with ⟨isUser, _⟩ | ⟨_, depart, departMem, same⟩
    · exact absurd (isUser.symm.trans isDepartment) (by decide)
    · have notUser (ids : List String) (within : ∀ id ∈ ids, id ∈ userIDs) : depart.id ∉ ids := fun listed =>
        notDepartment _ (within _ listed) depart departMem rfl
      rw [shownAlone, fillMember_department wellFormed.forest visitor userName isDepartment departMem same.symm
          (same ▸ departs isDepartment) (notUser userIDs fun _ listed => listed),
        fillMember_department wellFormed.forest visitor userName isDepartment departMem same.symm
          (mem_singleton.mpr same) (notUser [userID] fun _ listed => mem_singleton.mp listed ▸ asked)]

private theorem userMatch_eq (allowed : dir.checkGroupGetAuth2 currentTime visitor = .ok ())
    (groupExists : (dir.tables.getGroupByID2 groupID).id ≠ "")
    (alone : ∀ other ∈ dir.org.users, other.name = user.name → other = user) :
    ∃ uInfo, dir.userMatch currentTime visitor groupID user.name =
      .ok ⟨true, uInfo, (dir.membersVia groupID user.id).map (dir.shownAlone visitor user.id user.name)⟩ := by
  obtain ⟨last, isUser, same, found⟩ := exists_last UserDBInfo.name existing
  have userID : dir.org.getUserInfoByName user.name = user.id := by
    rw [Organisation.getUserInfoByName, found, alone last isUser same]
    rfl
  have paths := dir.org.getD_lookup_getUsersPath2 (mem_singleton.mpr (rfl : user.id = user.id))
  apply Exists.intro
  rw [userMatch, allowed, userID]
  rw [if_neg groupExists, if_neg (wellFormed.userIDs user existing)]
  dsimp only
  rw [paths, getD_lookup_getGroupMembersByGroupIDs2]
  refine congrArg (fun members => Except.ok (MatchResult.mk true _ members)) (map_congr_left fun v via => ?_)
  refine fillMember_eq_alone wellFormed membersExist visitor user.name via mem_cons_self
    (fun id listed => ⟨user, existing, (mem_singleton.mp listed).symm⟩) fun two => ?_
  exact mem_map_of_mem (mem_filter.mpr ⟨via, decide_eq_true (by omega)⟩)

omit wellFormed membersExist existing

private theorem membersOf_eq_membersVia {ids : List String} (asked : userID ∈ ids) :
    membersOf (dir.parentDeps ids) (groupMembers dir.tables groupID) userID = dir.membersVia groupID userID := by
  have paths := dir.org.getD_lookup_getUsersPath2 asked
  rw [membersOf, membersVia, parentDeps, lookup_filterMap, ← paths]
  cases (dir.org.getUsersPath2 ids).lookup userID with
  | none | some paths => rfl

/-- The loop of a search keeps the page of the users in the group. -/
theorem paged_filtered (key : String) (offset limit : Nat) :
    Paged (dir.membersVia groupID) offset limit (dir.filtered groupID key)
    (getExistUsersGroupMembers (dir.searched key) (dir.parentDeps (dir.searched key))
      (groupMembers dir.tables groupID) offset limit) := by
  have same : (dir.searched key).filter (fun userID =>
      membersOf (dir.parentDeps (dir.searched key)) (groupMembers dir.tables groupID) userID ≠ []) =
        dir.filtered groupID key := by
    refine filter_congr fun userID asked => decide_eq_decide.mpr ?_
    rw [membersOf_eq_membersVia asked, membersVia_ne_nil_iff]
  obtain ⟨nValidIndex, existUserIDs, existGroupMember⟩ : Paged _ offset limit _ (getExistUsersGroupMembers
    (dir.searched key) (dir.parentDeps (dir.searched key)) (groupMembers dir.tables groupID) offset limit) :=
    paged_getExistUsersGroupMembers (dir.searched key)
  rw [same] at nValidIndex existUserIDs existGroupMember
  refine ⟨nValidIndex, existUserIDs, fun userID => ?_⟩
  rw [existGroupMember userID]
  split_ifs with onPage
  · rw [membersOf_eq_membersVia (mem_of_mem_filter (mem_of_mem_page onPage))]
  · rfl

private theorem exists_of_searched (found : userID ∈ dir.searched key) : ∃ user ∈ dir.org.users, user.id = userID := by
  obtain ⟨user, listed, same⟩ := mem_map.mp found
  exact ⟨user, ((dir.org.mem_searchUserInfoByName dir.upper key user).mp listed).1, same⟩

include wellFormed existing in
private theorem name_of_searched (found : user.id ∈ dir.searched key) :
    (assign UserDBInfo.id UserDBInfo.name (dir.org.searchUserInfoByName dir.upper key) ∅).lookup user.id =
      some user.name := by
  have isUser (other : UserDBInfo) (listed : other ∈ dir.org.searchUserInfoByName dir.upper key) :
      other ∈ dir.org.users := ((dir.org.mem_searchUserInfoByName dir.upper key other).mp listed).1
  obtain ⟨other, listed, same⟩ := mem_map.mp found
  obtain rfl : other = user := inj_on_of_nodup_map wellFormed.userKey (isUser other listed) existing same
  exact lookup_assign_of_unique UserDBInfo.id UserDBInfo.name ∅ listed fun another alsoListed sameID =>
    inj_on_of_nodup_map wellFormed.userKey (isUser another alsoListed) existing sameID

/-- What a search returns for a page. -/
def pageResult (dir : Directory) (visitor : TypedVisitor) (key : String) (paging : Paging) : SearchResult :=
  let shown := paging.existUserIDs.filter fun v => (paging.existGroupMember.lookup v).getD [] ≠ []
  let filled := dir.handlePathParams visitor paging.existUserIDs paging.existDepartIDs
  let name := fun v => ((assign UserDBInfo.id UserDBInfo.name (dir.org.searchUserInfoByName dir.upper key) ∅).lookup
    v).getD ""
  ⟨paging.nValidIndex, paging.existUserIDs, assign id (fun v => ⟨v, 0, name v, (filled.1.lookup v).getD []⟩) shown ∅,
    assign id (fun v => ((paging.existGroupMember.lookup v).getD []).map (fillMember filled.1 filled.2 (name v))) shown
    ∅⟩

/-- What a page of a search holds. -/
structure IsPage (dir : Directory) (visitor : TypedVisitor) (groupID key : String) (offset limit : Nat)
    (result : SearchResult) : Prop where
  num : result.num = (dir.filtered groupID key).length
  userIDs : result.userIDs = page (dir.filtered groupID key) offset limit
  mInfos : ∀ user ∈ dir.org.users, user.id ∈ result.userIDs → result.mInfos.lookup user.id =
    some ((dir.membersVia groupID user.id).map (dir.shownAlone visitor user.id user.name))

include wellFormed membersExist in
private theorem isPage_pageResult (visitor : TypedVisitor) {offset limit : Nat} {paging : Paging}
    (paged : Paged (dir.membersVia groupID) offset limit (dir.filtered groupID key) paging) :
    IsPage dir visitor groupID key offset limit (dir.pageResult visitor key paging) := by
  refine ⟨paged.nValidIndex, paged.existUserIDs, fun user existing onPage => ?_⟩
  change user.id ∈ paging.existUserIDs at onPage
  have inFiltered : user.id ∈ dir.filtered groupID key := mem_of_mem_page (paged.existUserIDs ▸ onPage)
  obtain ⟨found, inGroup⟩ := mem_filter.mp inFiltered
  have members : paging.existGroupMember.lookup user.id = some (dir.membersVia groupID user.id) := by
    rw [paged.existGroupMember, if_pos (paged.existUserIDs ▸ onPage)]
  refine (lookup_assign_of_unique id _ ∅ (mem_filter.mpr ⟨onPage, decide_eq_true ?_⟩) fun _ _ same =>
    same).trans (congrArg some ?_)
  · rw [members]
    exact (membersVia_ne_nil_iff user.id).mpr (of_decide_eq_true inGroup)
  dsimp only
  rw [members, name_of_searched wellFormed existing found]
  refine map_congr_left fun v via => fillMember_eq_alone wellFormed membersExist visitor user.name via onPage
    (fun _ listed => exists_of_searched (mem_of_mem_filter (mem_of_mem_page (paged.existUserIDs ▸ listed)))) fun two =>
      ?_
  refine (mem_removeDuplicatStrs _ _).mpr (mem_map_of_mem (mem_filter.mpr ⟨?_, decide_eq_true (by omega)⟩))
  exact mem_flatten.mpr ⟨_, (mem_values _ _).mpr ⟨user.id, members⟩, via⟩

include wellFormed membersExist in
private theorem searchInAllGroupOrg_isPage (allowed : dir.checkGroupGetAuth2 currentTime visitor = .ok ())
    (groupExists : (dir.tables.getGroupByID2 groupID).id ≠ "") (key : String) (offset limit : Nat) :
    ∃ result, dir.searchInAllGroupOrg currentTime visitor groupID key offset limit = .ok result ∧
      IsPage dir visitor groupID key offset limit result := by
  have branches : dir.searchInAllGroupOrg currentTime visitor groupID key offset limit =
      if (dir.org.searchUserInfoByName dir.upper key).length = 0 then .ok ⟨0, [], ∅, ∅⟩
      else .ok (dir.pageResult visitor key (getExistUsersGroupMembers (dir.searched key)
        (dir.parentDeps (dir.searched key)) (groupMembers dir.tables groupID) offset limit)) := by
    rw [searchInAllGroupOrg, allowed, ← getD_lookup_getGroupMembersByGroupIDs2]
    change (if (dir.tables.getGroupByID2 groupID).id = "" then _ else _) = _
    rw [if_neg groupExists]
    rfl
  by_cases nothing : (dir.org.searchUserInfoByName dir.upper key).length = 0
  · have empty : dir.filtered groupID key = [] := by simp [filtered, searched, length_eq_zero_iff.mp nothing]
    rw [branches, if_pos nothing]
    refine ⟨_, rfl, ?_, ?_, fun user _ onPage => by cases onPage⟩
    · rw [empty]
      rfl
    · rw [empty, page_nil]
  · rw [branches, if_neg nothing]
    exact ⟨_, rfl, isPage_pageResult wellFormed membersExist visitor (paged_filtered key offset limit)⟩

end Agreement

/-- What a search answers at the multiples of a limit: always the number of users it finds in the group, and
together these users. -/
structure PagesOf (dir : Directory) (currentTime : Int) (visitor : TypedVisitor) (groupID key : String) (limit : Nat)
    (pages : Nat → SearchResult) : Prop where
  answers : ∀ k : Nat, dir.searchInAllGroupOrg currentTime visitor groupID key (k * limit) limit = .ok (pages k)
  num : ∀ k, (pages k).num = (dir.filtered groupID key).length
  whole : ∀ count, (dir.filtered groupID key).length ≤ count →
    (List.range count).flatMap (fun k => (pages k).userIDs) = dir.filtered groupID key

private theorem pagesOf_of_isPage {limit : Nat} {pages : Nat → SearchResult} (positive : 0 < limit)
    (answers : ∀ k : Nat, dir.searchInAllGroupOrg currentTime visitor groupID key (k * limit : Nat) limit =
      .ok (pages k)) (isPage : ∀ k, IsPage dir visitor groupID key (k * limit) limit (pages k)) :
    PagesOf dir currentTime visitor groupID key limit pages := by
  refine ⟨fun k => ?_, fun k => (isPage k).num, fun count enough => ?_⟩
  · rw [← answers k, Nat.cast_mul]
  · simp only [fun k => (isPage k).userIDs]
    exact flatMap_page_of_le positive enough

private theorem mem_searched_name {user : UserDBInfo} (existing : user ∈ dir.org.users)
    (noEscape : '\\' ∉ user.name.toList) :
    user.id ∈ dir.searched user.name := by
  refine mem_map_of_mem ((dir.org.mem_searchUserInfoByName dir.upper user.name user).mpr ⟨existing, ?_⟩)
  rw [String.toList_append, String.toList_append]
  exact like_self_within noEscape

/-- The three answers about a user and a group agree, and the pages of a search are what it finds. -/
theorem group_memberships_agree {dir : Directory} {currentTime : Int} {visitor : TypedVisitor}
    {group : GroupInfo} {user : UserDBInfo}
    (wellFormed : dir.WellFormed) (isGroup : group ∈ dir.tables.groups) (own : dir.OwnID group.id)
    (membersExist : dir.MembersExist group.id) (existing : user ∈ dir.org.users)
    (alone : ∀ other ∈ dir.org.users, other.name = user.name → other = user)
    (allowed : dir.checkGroupGetAuth2 currentTime visitor = .ok ()) :
    ∃ uInfo mInfo, dir.userMatch currentTime visitor group.id user.name = .ok ⟨true, uInfo, mInfo⟩ ∧
      (∀ accessorIDs, dir.getAccessorIDsOfUser user.id = .ok accessorIDs → (mInfo ≠ [] ↔ group.id ∈ accessorIDs)) ∧
      (dir.tables.Joined (user.id :: dir.org.getAllBelongDepartmentIDs user.id) →
        ∃ accessorIDs, dir.getAccessorIDsOfUser user.id = .ok accessorIDs) ∧
      ∀ key limit, 0 < limit → ∃ pages, PagesOf dir currentTime visitor group.id key limit pages ∧
        (∀ k, user.id ∈ (pages k).userIDs → mInfo ≠ [] ∧ (pages k).mInfos.lookup user.id = some mInfo) ∧
        (key = user.name → '\\' ∉ user.name.toList → (mInfo ≠ [] ↔ ∃ k, user.id ∈ (pages k).userIDs)) := by
  have groupExists : (dir.tables.getGroupByID2 group.id).id ≠ "" := by
    obtain ⟨last, _, same, found⟩ := exists_last GroupInfo.id isGroup
    rw [GroupTables.getGroupByID2, found]
    exact same ▸ own.nonempty
  obtain ⟨uInfo, matched⟩ := userMatch_eq wellFormed membersExist existing allowed groupExists alone
  have inGroup : (dir.membersVia group.id user.id).map (dir.shownAlone visitor user.id user.name) ≠ [] ↔
      dir.InGroup group.id user.id := by
    rw [ne_eq, map_eq_nil_iff]
    exact membersVia_ne_nil_iff user.id
  refine ⟨uInfo, _, matched, fun accessorIDs success =>
    ?_, exists_getAccessorIDsOfUser wellFormed existing, fun key limit positive => ?_⟩
  · rw [inGroup]
    exact (mem_getAccessorIDsOfUser wellFormed membersExist existing own ⟨group, isGroup, rfl⟩ success).symm
  · choose pages answers isPage using fun k : Nat =>
      searchInAllGroupOrg_isPage wellFormed membersExist allowed groupExists key (k * limit) limit
    have onPage (k : Nat) (listed : user.id ∈ (pages k).userIDs) : user.id ∈ dir.filtered group.id key := by
      rw [(isPage k).userIDs] at listed
      exact mem_of_mem_page listed
    refine ⟨pages, pagesOf_of_isPage positive answers isPage, fun k listed => ⟨?_, ?_⟩, fun isName noEscape => ?_⟩
    · exact inGroup.mpr (of_decide_eq_true (mem_filter.mp (onPage k listed)).2)
    · exact (isPage k).mInfos user existing listed
    · rw [inGroup]
      constructor
      · intro inside
        have found : user.id ∈ dir.filtered group.id key :=
          mem_filter.mpr ⟨isName ▸ mem_searched_name existing noEscape, decide_eq_true inside⟩
        obtain ⟨k, listed⟩ := (mem_iff_mem_page positive _ _).mp found
        exact ⟨k, (isPage k).userIDs ▸ listed⟩
      · rintro ⟨k, listed⟩
        exact of_decide_eq_true (mem_filter.mp (onPage k listed)).2

/-- An application that may read groups. -/
def reader : TypedVisitor where
  id := "reader"
  language := .americanEnglish
  type := .app

/-- The company with a group of which sales is the member. -/
def staffed : Directory where
  org := Sample.company
  tables := ⟨[⟨"staff", "Staff", ""⟩], [⟨"staff", Sample.sales.id, 2⟩]⟩
  appPerms := [⟨"reader", 3, 2, -1⟩]
  contactPersons := []
  internalMembers := []
  upper := id

open UserManagement.Sample in
/-- The first user is below sales and is on the first page of one. -/
theorem group_memberships_agree_sample : staffed.InGroup "staff" "first" ∧
    ∃ uInfo mInfo, staffed.userMatch 0 reader "staff" "First" = .ok ⟨true, uInfo, mInfo⟩ ∧
      ∃ pages, PagesOf staffed 0 reader "staff" "First" 1 pages ∧ (mInfo ≠ [] ↔ ∃ k, "first" ∈ (pages k).userIDs) := by
  have wellFormed : staffed.WellFormed := ⟨company_forest, company_rows, by decide, by decide, by decide⟩
  have own : staffed.OwnID "staff" := by constructor <;> decide
  have membersExist : staffed.MembersExist "staff" := by simp [MembersExist, staffed, company]
  have inGroup : staffed.InGroup "staff" "first" := by
    simp [InGroup, staffed, userPaths, company, pathIDs_travel]
  have isGroup : ⟨"staff", "Staff", ""⟩ ∈ staffed.tables.groups := by decide
  have existing : ⟨"first", "First"⟩ ∈ staffed.org.users := by decide
  have allowed : staffed.checkGroupGetAuth2 0 reader = .ok () := rfl
  obtain ⟨uInfo, mInfo, matched, _, _, search⟩ := group_memberships_agree wellFormed isGroup own membersExist
    existing (by decide) allowed
  obtain ⟨pages, pagesOf, _, agree⟩ := search "First" 1 Nat.one_pos
  exact ⟨inGroup, uInfo, mInfo, matched, pages, pagesOf, agree rfl (by decide)⟩

/-- A group of one user, whose name has a backslash. -/
def escaped : Directory where
  org := { Sample.company with users := [⟨"user", "a\\b"⟩], userDeparts := [⟨"user", unDistribute, unDistribute⟩] }
  tables := ⟨[⟨"staff", "Staff", ""⟩], [⟨"staff", "user", 1⟩]⟩
  appPerms := [⟨"reader", 3, 2, -1⟩]
  contactPersons := []
  internalMembers := []
  upper := id

/-- The user is matched as a member, but no search for their name shows them. -/
theorem name_with_backslash_not_found :
    escaped.WellFormed ∧ escaped.OwnID "staff" ∧ escaped.MembersExist "staff" ∧ escaped.org.users = [⟨"user", "a\\b"⟩] ∧
      (∃ uInfo mInfo, escaped.userMatch 0 reader "staff" "a\\b" = .ok ⟨true, uInfo, mInfo⟩ ∧ mInfo ≠ []) ∧
      ∀ offset limit : Nat, ∃ result,
        escaped.searchInAllGroupOrg 0 reader "staff" "a\\b" offset limit = .ok result ∧ "user" ∉ result.userIDs := by
  have wellFormed : escaped.WellFormed := by
    refine ⟨Sample.company_forest, ?_, by decide, by decide, by decide⟩
    simp [RowsMatch, escaped]
  have own : escaped.OwnID "staff" := by constructor <;> decide
  have membersExist : escaped.MembersExist "staff" := by simp [MembersExist, escaped]
  have groupExists : (escaped.tables.getGroupByID2 "staff").id ≠ "" := by decide
  have existing : ⟨"user", "a\\b"⟩ ∈ escaped.org.users := by decide
  have allowed : escaped.checkGroupGetAuth2 0 reader = .ok () := rfl
  refine ⟨wellFormed, own, membersExist, rfl, ?_, fun offset limit => ?_⟩
  · obtain ⟨uInfo, matched⟩ := userMatch_eq wellFormed membersExist existing allowed groupExists (by decide)
    refine ⟨uInfo, _, matched, ?_⟩
    rw [ne_eq, map_eq_nil_iff]
    exact (membersVia_ne_nil_iff "user").mpr (by decide)
  · obtain ⟨result, answered, isPage⟩ := searchInAllGroupOrg_isPage wellFormed membersExist allowed
      groupExists "a\\b" offset limit
    refine ⟨result, answered, fun listed => ?_⟩
    rw [isPage.userIDs] at listed
    obtain ⟨info, found, _⟩ := mem_map.mp (mem_of_mem_filter (mem_of_mem_page listed))
    obtain ⟨isUser, isLike⟩ := (escaped.org.mem_searchUserInfoByName _ _ _).mp found
    obtain rfl := mem_singleton.mp isUser
    exact absurd isLike (by decide)

end SecurityFabric.UserManagement.Directory
