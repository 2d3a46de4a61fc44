import SecurityFabric.Proofs.UserManagement.Group

/-! # Members of groups that exist

Every call keeps the members within groups that exist, except for a new group whose members are inserted and whose own
row is rolled back: when the outbox record or the commit fails.
-/

namespace SecurityFabric.UserManagement

section

open List GoMap

variable {tables : GroupTables} {statements : GroupStatements}

namespace GroupTables

def Grounded (tables : GroupTables) : Prop := ∀ member ∈ tables.members, tables.hasGroup member.groupID = true

/-- Statements for members keep what each of them keeps while the group is there. -/
theorem Grounded.changeMembers {write : GroupTables → String × Int → GroupTables} {groupID : String}
    (grounded : tables.Grounded) (keeps : ∀ tables info, tables.Grounded → tables.hasGroup groupID = true →
      (write tables info).Grounded ∧ (write tables info).groups = tables.groups)
    (infos : List (String × Int)) : (tables.changeMembers statements write groupID infos).1.Grounded := by
  rw [GroupTables.changeMembers]
  split_ifs with refused
  · exact grounded
  · simp only [Bool.or_eq_true, not_or, Bool.not_eq_true', Bool.not_eq_false] at refused
    have existing := refused.2
    clear refused
    induction infos generalizing tables with
    | nil => exact grounded
    | cons info infos ih =>
      rw [forMembers]
      obtain ⟨kept, groups⟩ := keeps tables info grounded existing
      split_ifs
      · exact ih kept (by rw [hasGroup, groups]; exact existing)
      · exact grounded

/-- The members of the groups have one type for each id, as ids of users, departments and contactors differ. -/
def OneType (tables : GroupTables) (initalGroupIDs : List String) : Prop :=
  ∀ member ∈ tables.members, ∀ other ∈ tables.members, member.groupID ∈ initalGroupIDs →
    other.groupID ∈ initalGroupIDs →
    member.memberID = other.memberID → member.memberType = other.memberType

/-- The group and, as its members, those of the other groups were added, none of them twice. -/
structure Adds (tables : GroupTables) (id name notes : String) (initalGroupIDs : List String) (after : GroupTables) :
    Prop where
  groups : after.groups = tables.groups ++ [⟨id, name, notes⟩]
  members : ∃ added, after.members = tables.members ++ added ∧ added.Nodup ∧ ∀ member, member ∈ added ↔
    member.groupID = id ∧ ∃ groupID ∈ initalGroupIDs, { member with groupID } ∈ tables.members

section

variable (initalGroupIDs : List String)

private theorem nodup_getGroupMembers : ((tables.getGroupMembers initalGroupIDs).map (·.memberID)).Nodup :=
  ((keyed_empty GroupMember.memberID).assign _).nodup_map_values

private theorem mem_of_mem_getGroupMembers {member : GroupMember}
    (found : member ∈ tables.getGroupMembers initalGroupIDs) :
    member ∈ tables.members ∧ member.groupID ∈ initalGroupIDs := by
  obtain ⟨memberID, found⟩ := (mem_values _ _).mp found
  rw [lookup_assign] at found
  simp only [AList.lookup_empty, Option.or_none, Option.map_id_fun, id_eq] at found
  simpa using mem_of_find?_eq_some found

private theorem exists_mem_getGroupMembers {member : GroupMember} (isMember : member ∈ tables.members)
    (initial : member.groupID ∈ initalGroupIDs) :
    ∃ info ∈ tables.getGroupMembers initalGroupIDs, info.memberID = member.memberID := by
  have keyed := (keyed_empty GroupMember.memberID).assign (tables.members.filter fun member =>
    member.groupID ∈ initalGroupIDs)
  refine mem_map.mp ((keyed.mem_map_values _).mpr ((mem_assign _ _ _ _ _).mpr (.inl ⟨member, ?_, rfl⟩)))
  simpa using ⟨isMember, initial⟩

end

end GroupTables

/-- A new group whose members were inserted is committed. -/
def GroupCall.Committed (statements : GroupStatements) : GroupCall → Prop
  | addGroup _ _ _ initalGroupIDs => initalGroupIDs ≠ [] → statements.addGroup = true →
      statements.addGroupMembers = true →
      statements.addOutboxInfo = true ∧ statements.commit = true
  | _ => True

namespace GroupTables

section

variable {id name notes : String} {initalGroupIDs : List String}

private theorem addGroup_cases (committed : (GroupCall.addGroup id name notes initalGroupIDs).Committed statements) :
    tables.addGroup statements id name notes initalGroupIDs = (tables, false) ∨
      tables.addGroup statements id name notes initalGroupIDs = (⟨tables.groups ++ [⟨id, name, notes⟩],
        tables.members ++ (tables.getGroupMembers initalGroupIDs).map fun info =>
          { info with groupID := id }⟩, true) := by
  simp only [addGroup]
  split_ifs with refused unwritten ended
  · exact .inl rfl
  · exact .inl rfl
  · exact .inr rfl
  -- Not committed: then the group has no members.
  · have nothing : tables.getGroupMembers initalGroupIDs = [] := by
      by_contra some
      simp only [Bool.or_eq_true, not_or, Bool.not_eq_true', Bool.not_eq_false] at refused
      refine ended (Bool.and_eq_true _ _ ▸ committed ?_ refused.2 ?_)
      · rintro rfl
        exact some (by simp [getGroupMembers]; rfl)
      · simpa [some] using unwritten
    rw [nothing, map_nil, append_nil]
    exact .inl rfl

private theorem OneType.adds (oneType : tables.OneType initalGroupIDs) :
    tables.Adds id name notes initalGroupIDs ⟨tables.groups ++ [⟨id, name, notes⟩],
      tables.members ++ (tables.getGroupMembers initalGroupIDs).map fun info => { info with groupID := id }⟩ := by
  refine ⟨rfl, _, rfl, ?_, fun member => mem_map.trans ⟨?_, ?_⟩⟩
  · refine Nodup.of_map (·.memberID) ?_
    rw [map_map]
    exact nodup_getGroupMembers initalGroupIDs
  · rintro ⟨info, found, rfl⟩
    obtain ⟨isMember, initial⟩ := mem_of_mem_getGroupMembers initalGroupIDs found
    exact ⟨rfl, info.groupID, initial, isMember⟩
  · rintro ⟨own, groupID, initial, isMember⟩
    obtain ⟨info, found, sameID⟩ := exists_mem_getGroupMembers initalGroupIDs isMember initial
    obtain ⟨isInfo, infoInitial⟩ := mem_of_mem_getGroupMembers initalGroupIDs found
    have sameType : info.memberType = member.memberType :=
      oneType info isInfo ⟨groupID, member.memberID, member.memberType⟩ isMember infoInitial initial sameID
    refine ⟨info, found, ?_⟩
    cases member
    simp_all

end

private theorem Grounded.run (grounded : tables.Grounded) {call : GroupCall} (committed : call.Committed statements) :
    (call.run tables statements).1.Grounded := by
  cases call with
  | addGroup id name notes initalGroupIDs =>
    obtain unchanged | added := @addGroup_cases tables statements _ _ _ _ committed
    · rw [GroupCall.run, unchanged]
      exact grounded
    · rw [GroupCall.run, added]
      refine forall_mem_append.mpr ⟨fun member old => ?_, forall_mem_map.mpr fun info _ => by simp [hasGroup]⟩
      have existing := grounded member old
      simp only [hasGroup, decide_eq_true_iff, map_append, mem_append] at existing ⊢
      exact .inl existing
  | addGroupMembers groupID infos =>
    refine grounded.changeMembers (fun tables info grounded existing => ?_) infos
    dsimp only
    split_ifs
    · exact ⟨grounded, rfl⟩
    · exact ⟨forall_mem_append.mpr ⟨grounded, forall_mem_singleton.mpr existing⟩, rfl⟩
  | deleteGroupMembers groupID infos =>
    refine grounded.changeMembers (fun tables info grounded _ => ?_) infos
    exact ⟨fun member kept => grounded member (mem_of_mem_filter kept), rfl⟩
  | deleteGroup groupID =>
    rw [GroupCall.run, deleteGroup]
    split_ifs
    iterate 3 exact grounded
    · intro member isMember
      obtain ⟨old, other⟩ := mem_filter.mp isMember
      obtain ⟨info, isInfo, same⟩ := mem_map.mp (decide_eq_true_iff.mp (grounded member old))
      exact decide_eq_true (mem_map.mpr ⟨info, mem_filter.mpr ⟨isInfo, same ▸ other⟩, same⟩)
    · exact fun member kept => grounded member (mem_of_mem_filter kept)

end GroupTables

/-- Over calls whose new groups are committed once their members are inserted, every member belongs to a group that is
there, and a new group is added with the members of its initial groups, if these have one type for each id, or both
tables stay. -/
theorem group_members_grounded {calls : List (GroupCall × GroupStatements)} (grounded : tables.Grounded)
    (committed : ∀ entry ∈ calls, entry.1.Committed entry.2) :
    (calls.foldl (fun tables entry => (entry.1.run tables entry.2).1) tables).Grounded ∧
      ∀ (tables : GroupTables) id name notes initalGroupIDs, tables.OneType initalGroupIDs → ∀ entry ∈ calls,
        entry.1 = .addGroup id name notes initalGroupIDs → entry.1.run tables entry.2 = (tables, false) ∨
        (entry.1.run tables entry.2).2 = true ∧
          tables.Adds id name notes initalGroupIDs (entry.1.run tables entry.2).1 := by
  refine ⟨calls.foldlRecOn _ (motive := GroupTables.Grounded) grounded fun _ kept entry member =>
    kept.run (committed entry member), ?_⟩
  intro tables id name notes initalGroupIDs oneType entry member isAdd
  have isCommitted := committed entry member
  rw [isAdd] at isCommitted ⊢
  refine (GroupTables.addGroup_cases isCommitted).imp_right fun added => ?_
  rw [GroupCall.run, added]
  exact ⟨rfl, oneType.adds⟩

/-- A group with one member. -/
def oneGroup : GroupTables := ⟨[⟨"g", "staff", ""⟩], [⟨"g", "u", 1⟩]⟩

/-- The outbox record of a new group with the same members fails. -/
theorem outbox_failure_leaves_member :
    ⟨"new", "u", 1⟩ ∈ ((GroupCall.addGroup "new" "team" "" ["g"]).run oneGroup { addOutboxInfo := false }).1.members ∧
      ((GroupCall.addGroup "new" "team" "" ["g"]).run oneGroup { addOutboxInfo := false }).1.groups =
      oneGroup.groups := by
  decide

/-- Two groups with a member in common. -/
def twoGroups : GroupTables :=
  ⟨[⟨"g", "staff", ""⟩, ⟨"h", "board", ""⟩], [⟨"g", "u", 1⟩, ⟨"h", "u", 1⟩, ⟨"h", "d", 2⟩]⟩

theorem group_members_grounded_copied :
    ((GroupCall.addGroup "new" "team" "" ["g", "h"]).run twoGroups {}).1.Grounded ∧
      twoGroups.Adds "new" "team" "" ["g", "h"]
      ((GroupCall.addGroup "new" "team" "" ["g", "h"]).run twoGroups {}).1 := by
  have grounded : twoGroups.Grounded := by simp [GroupTables.Grounded, twoGroups, GroupTables.hasGroup]
  have oneType : twoGroups.OneType ["g", "h"] := by simp [GroupTables.OneType, twoGroups]
  obtain ⟨kept, adds⟩ := @group_members_grounded twoGroups [(.addGroup "new" "team" "" ["g", "h"], {})] grounded
    fun _ member => mem_singleton.mp member ▸ fun _ _ _ => ⟨rfl, rfl⟩
  exact ⟨kept, ((adds twoGroups _ _ _ _ oneType _ (mem_singleton_self _) rfl).resolve_left (by decide)).2⟩

end

/-! # The groups of the users of a batch

The loop of `GetUsersBaseInfo` never empties the variable in which it collects what to look for. The groups it finds for
a user are those of all users up to and including this one. They are the user's own if each group of an earlier user is
one of theirs as well.
-/

open List AList Option

variable {found : List String × GoMap String (List GroupInfo)} {range : UserBaseInfoRange}

section

variable (org : Organisation) (tables : GroupTables) (userIDs : List String) (user : UserBaseInfo)

/-- The user or a department on their paths is a member of the group. -/
def Contains (groupID userID : String) : Prop :=
  ∃ member ∈ tables.members, member.groupID = groupID ∧ (member.memberID = userID ∨ OnPath org userID member.memberID)

/-- The groups told about a user are those that contain them. -/
def OwnGroups : Prop :=
  ∀ group, group ∈ user.groups ↔ ∃ info ∈ tables.groups, group = ⟨info.id, info.name, ""⟩ ∧
    Contains org tables info.id user.id

/-- Whatever group contains a user also contains the users after them. -/
def GroupsGrow : Prop :=
  userIDs.Pairwise fun earlier later =>
    ∀ groupID, Contains org tables groupID earlier → Contains org tables groupID later

/-- What the loop looks for on behalf of a user. -/
def accessors (userID : String) : List String := userID :: org.getAllBelongDepartmentIDs userID

end

variable {org : Organisation} {tables : GroupTables} {userIDs : List String}

private theorem hasMember_accessors (groupID userID : String) :
    tables.HasMember groupID (accessors org userID) ↔ Contains org tables groupID userID := by
  simp [GroupTables.HasMember, Contains, accessors, org.mem_getAllBelongDepartmentIDs]

private theorem hasMember_flatMap (groupID : String) :
    tables.HasMember groupID (userIDs.flatMap (accessors org)) ↔
    ∃ userID ∈ userIDs, Contains org tables groupID userID := by
  induction userIDs with
  | nil => simp [GroupTables.HasMember]
  | cons first rest ih =>
    rw [flatMap_cons, exists_mem_cons_iff, ← ih, ← hasMember_accessors]
    simp [GroupTables.HasMember, ← exists_or, ← and_or_left]

/-- The result for a user is what the query found for the users up to their last occurrence. -/
def FoundFor (org : Organisation) (tables : GroupTables) (userIDs : List String) (userID : String)
    (groups : List GroupInfo) : Prop :=
  ∃ front back, userIDs = front ++ userID :: back ∧ userID ∉ back ∧
    ∀ group, group ∈ groups ↔ tables.IsGroupOf ((front ++ [userID]).flatMap (accessors org)) group

/-- What the loop has computed after these users. -/
structure Looped (org : Organisation) (tables : GroupTables) (userIDs : List String)
    (found : List String × GoMap String (List GroupInfo)) : Prop where
  accessorIDs : found.1 = userIDs.flatMap (accessors org)
  joined : tables.Joined found.1
  groups : ∀ userID ∈ userIDs, ∃ groups, found.2.lookup userID = some groups ∧ FoundFor org tables userIDs userID groups

private theorem looped_nil : Looped org tables [] ([], ∅) := by
  refine ⟨rfl, ?_, ?_⟩
  · intro member _ among
    cases among
  · intro userID among
    cases among

private theorem Looped.round {found next : List String × GoMap String (List GroupInfo)}
    (looped : Looped org tables userIDs found) {userID : String}
    (ran : org.findGroups tables found userID = .ok next) : Looped org tables (userIDs ++ [userID]) next := by
  obtain ⟨⟨groupIDs, groups⟩, queried, ran⟩ := bind_ok ran
  cases ran
  obtain ⟨_, isGroup, joined⟩ := GroupTables.getMembersBelongGroupIDs_ok queried
  have collected : found.1 ++ [userID] ++ org.getAllBelongDepartmentIDs userID =
      (userIDs ++ [userID]).flatMap (accessors org) := by
    rw [looped.accessorIDs, flatMap_append, flatMap_singleton, accessors, append_assoc, singleton_append]
  refine ⟨collected, joined, fun other among => ?_⟩
  by_cases same : other = userID
  · subst same
    refine ⟨groups, lookup_insert _, userIDs, [], rfl, not_mem_nil, ?_⟩
    rwa [collected] at isGroup
  · obtain ⟨earlier, isFound, ⟨front, back, whole, last, isOwn⟩⟩ :=
      looped.groups other ((mem_append.mp among).resolve_right fun is => same (mem_singleton.mp is))
    refine ⟨earlier, (lookup_insert_ne same).trans isFound, front, back ++ [userID], ?_, ?_, isOwn⟩
    · rw [whole, append_assoc, cons_append]
    · simp [last, same]

private theorem looped_of_ok (ran : userIDs.foldlM (org.findGroups tables) ([], ∅) = .ok found) :
    Looped org tables userIDs found := by
  induction userIDs using reverseRecOn generalizing found with
  | nil =>
    cases ran
    exact looped_nil
  | append_singleton userIDs userID ih =>
    rw [foldlM_append] at ran
    obtain ⟨before, earlier, last⟩ := bind_ok ran
    obtain ⟨after, round, done⟩ := bind_ok last
    cases done
    exact (ih earlier).round round

private theorem mem_front_of_sublist {α : Type} {earlier later : α} {front back : List α} (last : later ∉ back)
    (ordered : [earlier, later].Sublist (front ++ later :: back)) : earlier ∈ front := by
  obtain ⟨inFront, inBack, split, frontPart, backPart⟩ := sublist_append_iff.mp ordered
  cases inFront with
  | nil =>
    subst split
    have tail : later ∈ back := by
      cases backPart with
      | cons _ inside | cons_cons _ inside => exact inside.subset (by simp)
    exact absurd tail last
  | cons first _ =>
    rw [cons_append, List.cons.injEq] at split
    rw [split.1]
    exact frontPart.subset mem_cons_self

/-- The groups that the loop has stored for everyone are their own. -/
def AllOwn (org : Organisation) (tables : GroupTables) (userIDs : List String)
    (groups : GoMap String (List GroupInfo)) : Prop :=
  ∀ userID ∈ userIDs, ∀ group, group ∈ (groups.lookup userID).getD [] ↔
    ∃ info ∈ tables.groups, group = ⟨info.id, info.name, ""⟩ ∧ Contains org tables info.id userID

private theorem Looped.allOwn_iff (looped : Looped org tables userIDs found) :
    AllOwn org tables userIDs found.2 ↔ GroupsGrow org tables userIDs := by
  constructor
  · intro own
    refine pairwise_iff_forall_sublist.mpr fun {earlier later} ordered groupID contains => ?_
    have among : later ∈ userIDs := ordered.subset (by simp)
    have before : earlier ∈ userIDs := ordered.subset (by simp)
    obtain ⟨groups, isFound, front, back, whole, last, isGroup⟩ := looped.groups later among
    -- the group exists, since the query reads its name
    obtain ⟨member, isMember, rfl, isAccessor⟩ := (hasMember_accessors groupID earlier).mpr contains
    have collected : member.memberID ∈ found.1 := by
      rw [looped.accessorIDs]
      exact mem_flatMap.mpr ⟨earlier, before, isAccessor⟩
    obtain ⟨info, exists_info, same⟩ := looped.joined member isMember collected
    have inFront : earlier ∈ front := mem_front_of_sublist last (whole ▸ ordered)
    have listed : ⟨info.id, info.name, ""⟩ ∈ (found.2.lookup later).getD [] := by
      rw [isFound, getD_some, isGroup]
      refine ⟨info, exists_info, rfl, hasMember_flatMap info.id |>.mpr ⟨earlier, ?_, same ▸ contains⟩⟩
      exact mem_append_left _ inFront
    obtain ⟨other, _, sameGroup, containsLater⟩ := (own later among _).mp listed
    rw [← same, (GroupInfo.mk.inj sameGroup).1]
    exact containsLater
  · intro grow userID among group
    obtain ⟨groups, isFound, front, back, whole, last, isGroup⟩ := looped.groups userID among
    rw [isFound, getD_some, isGroup]
    refine exists_congr fun info => and_congr_right fun _ => and_congr_right fun _ => ?_
    rw [hasMember_flatMap]
    constructor
    · rintro ⟨earlier, upTo, contains⟩
      rcases mem_append.mp upTo with inFront | isSelf
      · rw [GroupsGrow, whole, pairwise_append] at grow
        exact grow.2.2 earlier inFront userID mem_cons_self info.id contains
      · rwa [← mem_singleton.mp isSelf]
    · intro contains
      exact ⟨userID, by simp, contains⟩

private theorem getUsersBaseInfo_ok {bStrict : Bool} {out : List UserBaseInfo} (shown : range.showGroups = true)
    (success : org.getUsersBaseInfo tables userIDs range bStrict = .ok out) :
    ∃ found, Looped org tables ((org.getUserDBInfo (removeDuplicatStrs userIDs)).map (·.id)) found ∧
      out = (org.getUserDBInfo (removeDuplicatStrs userIDs)).map (org.handleUserInfo range found.2) := by
  obtain ⟨_, success⟩ := guard_ok success
  obtain ⟨_, success⟩ := guard_ok success
  rw [if_pos shown] at success
  obtain ⟨found, ran, success⟩ := bind_ok success
  cases success
  exact ⟨found, looped_of_ok ran, rfl⟩

private theorem ownGroups_iff_allOwn (shown : range.showGroups = true) (rows : List UserDBInfo)
    (groups : GoMap String (List GroupInfo)) :
    (∀ user ∈ rows.map (org.handleUserInfo range groups), OwnGroups org tables user) ↔
    AllOwn org tables (rows.map (·.id)) groups := by
  simp [AllOwn, OwnGroups, Organisation.handleUserInfo, shown]

private theorem foldlM_findGroups_of_joined (joined : ∀ ids, tables.Joined ids)
    (found : List String × GoMap String (List GroupInfo)) :
    ∃ result, userIDs.foldlM (org.findGroups tables) found = .ok result := by
  induction userIDs generalizing found with
  | nil => exact ⟨found, rfl⟩
  | cons first rest ih =>
    obtain ⟨⟨_, groups⟩, queried⟩ := GroupTables.getMembersBelongGroupIDs_of_joined
      (joined (found.1 ++ [first] ++ org.getAllBelongDepartmentIDs first))
    obtain ⟨result, ran⟩ := ih (found.1 ++ [first] ++ org.getAllBelongDepartmentIDs first, found.2.insert first groups)
    refine ⟨result, ?_⟩
    rw [foldlM_cons, Organisation.findGroups, queried]
    exact ran

private theorem getUsersBaseInfo_of_joined (shown : range.showGroups = true) (joined : ∀ ids, tables.Joined ids)
    (different : removeDuplicatStrs userIDs = userIDs)
    (existing : (org.getUserDBInfo userIDs).length = userIDs.length) :
    ∃ out, org.getUsersBaseInfo tables userIDs range true = .ok out := by
  obtain ⟨found, ran⟩ := foldlM_findGroups_of_joined joined ([], ∅)
  refine ⟨(org.getUserDBInfo userIDs).map (org.handleUserInfo range found.2), ?_⟩
  rw [Organisation.getUsersBaseInfo, different, if_neg (by simp), if_neg (by simp [existing]), if_pos shown, ran]
  rfl

/-- The users of a batch get their own groups exactly if, in the order of their rows, every group of one of them
is a group of those after them. -/
theorem batch_groups_own_iff {range : UserBaseInfoRange} {bStrict : Bool} {out : List UserBaseInfo}
    (shown : range.showGroups = true) (success : org.getUsersBaseInfo tables userIDs range bStrict = .ok out) :
    (∀ user ∈ out, OwnGroups org tables user) ↔ GroupsGrow org tables
      ((org.getUserDBInfo (removeDuplicatStrs userIDs)).map (·.id)) := by
  obtain ⟨found, looped, rfl⟩ := getUsersBaseInfo_ok shown success
  rw [ownGroups_iff_allOwn shown, looped.allOwn_iff]

namespace Sample

/-- One group with one member. -/
def groupOf (memberID : String) : GroupTables := ⟨[⟨"group", "Group", ""⟩], [⟨"group", memberID, 1⟩]⟩

def groupsOnly : UserBaseInfoRange := ⟨false, false, true⟩

private theorem groupOf_joined (memberID : String) (ids : List String) : (groupOf memberID).Joined ids := by
  intro member found _
  exact ⟨_, mem_singleton.mpr rfl, by rw [mem_singleton.mp found]⟩

private theorem contains_groupOf (memberID groupID userID : String) :
    Contains company (groupOf memberID) groupID userID ↔
    groupID = "group" ∧ (memberID = userID ∨ OnPath company userID memberID) := by
  simp [Contains, groupOf, eq_comm]

private theorem distinct_pair : removeDuplicatStrs ["first", "second"] = ["first", "second"] :=
  removeDuplicatStrs_of_sorted (by decide)

private theorem pair_succeeds (memberID : String) :
    ∃ out, company.getUsersBaseInfo (groupOf memberID) ["first", "second"] groupsOnly true = .ok out :=
  getUsersBaseInfo_of_joined rfl (groupOf_joined memberID) distinct_pair rfl

end Sample

open UserManagement.Sample

/-- A group of the second user only. -/
theorem batch_groups_own_iff_sample :
    ∃ out, company.getUsersBaseInfo (groupOf "second") ["first", "second"] groupsOnly true = .ok out ∧
    ∀ user ∈ out, OwnGroups company (groupOf "second") user := by
  obtain ⟨out, success⟩ := pair_succeeds "second"
  refine ⟨out, success, (batch_groups_own_iff rfl success).mpr ?_⟩
  rw [distinct_pair]
  refine pairwise_pair.mpr fun groupID contains => ?_
  rw [contains_groupOf] at contains ⊢
  exact ⟨contains.1, .inl rfl⟩

/-- A group of the first user only is told of the second as well. -/
theorem batch_tells_group_of_other_user :
    ∃ out, company.getUsersBaseInfo (groupOf "first") ["first", "second"] groupsOnly true = .ok out ∧
    ¬ ∀ user ∈ out, OwnGroups company (groupOf "first") user := by
  obtain ⟨out, success⟩ := pair_succeeds "first"
  refine ⟨out, success, ?_⟩
  obtain ⟨found, looped, rfl⟩ := getUsersBaseInfo_ok rfl success
  rw [ownGroups_iff_allOwn rfl, looped.allOwn_iff, distinct_pair]
  intro grow
  have contains := pairwise_pair.mp grow "group" ((contains_groupOf _ _ _).mpr ⟨rfl, .inl rfl⟩)
  have elsewhere : ¬ OnPath company "second" "first" := by
    simp [OnPath]
    decide
  rcases ((contains_groupOf _ _ _).mp contains).2 with same | onPath
  · exact absurd same (by decide)
  · exact elsewhere onPath

end SecurityFabric.UserManagement
