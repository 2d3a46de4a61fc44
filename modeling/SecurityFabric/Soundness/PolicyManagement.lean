import SecurityFabric.Proofs.PolicyManagement.Network
import SecurityFabric.Proofs.PolicyManagement.License

/-! # Who may sign in from which address

After a full rebuild the decision is read off the tables: the restriction is off, the accessor is an administrator, a
network bound to the accessor or to one of the accessor's departments holds the address, or the accessor is free. An
accessor is free when accessors without a policy are let in and there is no network at all or no relation names the
accessor or a department of the accessor, also one whose network is gone.
-/

namespace SecurityFabric.PolicyManagement

section

section

variable (tables : NetworkTables) (directory : Directory) (accessor : String) (ipType : IpType) (ip : Int)

/-- The network is bound to the accessor, or to a department the accessor lies in. -/
def BoundTo (networkId accessor : String) : Prop :=
  tables.Relates .user networkId accessor ∨
    ∃ department, tables.Relates .department networkId department ∧ directory.IsMember accessor department

private theorem restricted_iff :
    Restricted tables directory accessor ↔ ∃ networkId, BoundTo tables directory networkId accessor := by
  constructor
  · rintro (⟨id, related⟩ | ⟨department, ⟨id, related⟩, inside⟩)
    · exact ⟨id, .inl related⟩
    · exact ⟨id, .inr ⟨department, related, inside⟩⟩
  · rintro ⟨id, related | ⟨department, related, inside⟩⟩
    · exact .inl ⟨id, related⟩
    · exact .inr ⟨department, ⟨id, related⟩, inside⟩

/-- Some network of the type, bound to the accessor or to a department, holds the address. -/
def Opens : Prop :=
  ∃ network ∈ tables.networks, network.ipType = ipType ∧ BoundTo tables directory network.id accessor ∧
    network.segmentStart ≤ ip ∧ ip ≤ network.segmentEnd

private theorem contains_iff (network : NetworkRestriction) (ip : Int) :
    network.segment.contains ip = true ↔ network.segmentStart ≤ ip ∧ ip ≤ network.segmentEnd := by
  rw [NetSegment.contains, Bool.and_eq_true, decide_eq_true_eq, decide_eq_true_eq]
  rfl

private theorem opens_iff : Opens tables directory accessor ipType ip ↔
      OwnOpens tables accessor ipType ip ∨ DepartmentOpens tables directory accessor ipType ip := by
  simp only [OwnOpens, DepartmentOpens, contains_iff]
  constructor
  · rintro ⟨network, mem, type, related | ⟨department, related, inside⟩, holds⟩
    · exact .inl ⟨network, ⟨mem, type, related⟩, holds⟩
    · exact .inr ⟨network, department, ⟨mem, type, related⟩, inside, holds⟩
  · rintro (⟨network, ⟨mem, type, related⟩, holds⟩ | ⟨network, department, ⟨mem, type, related⟩, inside, holds⟩)
    · exact ⟨network, mem, type, .inl related, holds⟩
    · exact ⟨network, mem, type, .inr ⟨department, related, inside⟩, holds⟩

end

/-- The decision after a full rebuild. -/
theorem accessible_iff {tables : NetworkTables} {directory : Directory}
    {isEnabled noPolicyEnabled : Bool} {info : NetworkInfo}
    (built : getOPAData tables directory isEnabled noPolicyEnabled = .ok info) (accessor : String)
    (ipType : IpType) (ip : Int) :
    accessible info accessor ipType ip = true ↔ isEnabled = false ∨ accessor ∈ adminIDs ∨
    Opens tables directory accessor ipType ip ∨
        noPolicyEnabled = true ∧ (tables.networks = [] ∨
          ¬ ∃ networkId, BoundTo tables directory networkId accessor) := by
  cases isEnabled with
  | false => exact iff_of_true (by cases built; rfl) (.inl rfl)
  | true =>
    obtain ⟨represents, enabled, noPolicy⟩ := getOPAData_represents built
    rw [accessible_of_represents represents enabled, opens_iff, ← restricted_iff, noPolicy]
    simp only [Bool.true_eq_false, false_or, Option.some.injEq, not_and_or, not_not, or_assoc]

namespace Sample

/-- A network of ten addresses bound to a user, and a relation whose network is gone. -/
def tables : NetworkTables where
  networks := [⟨"net", 1, 10, .ipv4⟩]
  relations := [⟨"net", "user01", .user⟩, ⟨"gone", "user02", .user⟩]
  nodup := by decide

/-- Relations but no networks. -/
def emptied : NetworkTables := { tables with networks := [], nodup := by decide }

/-- No department has members. -/
def directory : Directory where
  getDepartUserIds _ := .ok []
  getBelongDepartByUserId _ := .ok []

end Sample

open Sample

theorem accessible_iff_sample : ∃ info, getOPAData tables directory true false = .ok info ∧
    (accessible info "user01" .ipv4 5 = true ↔ true = false ∨ "user01" ∈ adminIDs ∨
      Opens tables directory "user01" .ipv4 5 ∨
        false = true ∧ (tables.networks = [] ∨ ¬ ∃ networkId, BoundTo tables directory networkId "user01")) := by
  have built : getOPAData tables directory true false = .ok _ := rfl
  exact ⟨_, built, accessible_iff built "user01" .ipv4 5⟩

/-- An accessor no network is bound to is refused because of a relation whose network is gone; without
any network, an accessor with such a relation is let in. -/
theorem dangling_relation_decides :
    (∃ info, getOPAData tables directory true true = .ok info ∧ accessible info "user02" .ipv4 5 = false ∧
      ¬ ∃ network ∈ tables.networks, BoundTo tables directory network.id "user02") ∧
    ∃ info, getOPAData emptied directory true true = .ok info ∧ accessible info "user02" .ipv4 5 = true ∧
      ∃ networkId, BoundTo emptied directory networkId "user02" := by
  refine ⟨⟨_, rfl, by decide, ?_⟩, ⟨_, rfl, by decide, "gone", .inl ?_⟩⟩
  · rintro ⟨network, mem, related | ⟨department, -, inside⟩⟩
    · obtain rfl := List.mem_singleton.mp mem
      revert related
      simp [NetworkTables.Relates, tables]
    · obtain ⟨users, answered, inUsers⟩ := inside
      cases answered
      cases inUsers
  · simp [NetworkTables.Relates, emptied, tables]

end

/-! # The incremental update against the rebuild

The store held what a rebuild gives for the old membership of a user, and the update patches the user's entries. The
decision on the user is compared with that after a rebuild for the new membership. An update patches both address types,
or neither, except when only one type has a bound department of the user: the other type then keeps its departments. A
department relation whose network is gone makes the whole update fail. The updates of other users never matter.
-/

section

open List

variable {user : String} {directory' : Directory} {info : NetworkInfo}

/-- The users and, for each, the paths from the root to the departments the user was put in. -/
structure Organisation where
  users : List String
  paths : String → List (List String)
  listed : ∀ user, paths user ≠ [] → user ∈ users

/-- User management over the organisation: a department has the users of all departments below it. -/
def Organisation.directory (organisation : Organisation) : Directory where
  getDepartUserIds department := .ok (organisation.users.filter fun user =>
    decide (∃ path ∈ organisation.paths user, department ∈ path))
  getBelongDepartByUserId user := .ok (organisation.paths user).flatten

private theorem Organisation.isMember_iff (organisation : Organisation) (user department : String) :
    organisation.directory.IsMember user department ↔ ∃ path ∈ organisation.paths user, department ∈ path := by
  constructor
  · rintro ⟨users, answered, mem⟩
    cases answered
    simpa using (mem_filter.mp mem).2
  · rintro ⟨path, listed, inside⟩
    have known := organisation.listed user (ne_nil_of_mem listed)
    exact ⟨_, rfl, mem_filter.mpr ⟨known, decide_eq_true ⟨path, listed, inside⟩⟩⟩

section

variable (tables : NetworkTables) (directory : Directory) (noPolicyEnabled : Bool) (user : String) (ipType : IpType)

/-- One user joins and leaves departments; the paths cover all those joined or left. -/
structure DepartmentChange where
  (old new : Organisation)
  paths : List (List String)
  others : ∀ other, other ≠ user → new.paths other = old.paths other
  left : ∀ path ∈ old.paths user, path ∉ new.paths user → path ∈ paths
  joined : ∀ path ∈ new.paths user, path ∉ old.paths user → path ∈ paths

/-- A network of the type is bound to a department of the user. -/
def TypeBound : Prop :=
  ∃ department, (∃ network, tables.Binds .department ipType department network) ∧ directory.IsMember user department

/-- The update leaves the type alone: the user has bound departments, but none of this type. -/
def Skipped : Prop :=
  ¬ TypeBound tables directory user ipType ∧ ∃ other, TypeBound tables directory user other

/-- The tables let the user in: through a network of the user or of a department, or for want of any. -/
def Admits (ip : Int) : Prop :=
  OwnOpens tables user ipType ip ∨ DepartmentOpens tables directory user ipType ip ∨
    noPolicyEnabled = true ∧ ¬ (tables.networks ≠ [] ∧ Restricted tables directory user)

end

variable {ipType : IpType} {noPolicyEnabled : Bool}

section Segments

variable {tables : NetworkTables} {directory : Directory}

variable (represents : Represents tables directory info.data)

include represents

private theorem Represents.accessible_iff_admits (enabled : info.isEnabled = true)
    (noPolicy : info.noPolicyAccessorEnabled = some noPolicyEnabled) (notAdmin : user ∉ adminIDs)
    (ipType : IpType) (ip : Int) :
    accessible info user ipType ip = true ↔ Admits tables directory noPolicyEnabled user ipType ip := by
  rw [accessible_of_represents represents enabled, or_iff_right notAdmin, noPolicy, Option.some.injEq]
  rfl

private theorem Represents.mem_segments (ipType : IpType) (department : String) (segment : NetSegment) :
    segment ∈ info.segments ipType department ↔
    ∃ network, tables.Binds .department ipType department network ∧ network.segment = segment := by
  unfold NetworkInfo.segments
  cases held : info.data ipType with
  | some data => exact represents.segments held department segment
  | none =>
    have absent := (represents.present ipType).not.mp (by rw [held]; decide)
    refine iff_of_false not_mem_nil ?_
    rintro ⟨network, ⟨mem, type, -⟩, -⟩
    exact absent ⟨network, mem, type⟩

/-- The departments of a list open an address when a network bound to one of them holds it. -/
theorem Represents.any_segments {ids : List String} (listed : ∀ department, department ∈ ids ↔
      (∃ network, tables.Binds .department ipType department network) ∧ directory'.IsMember user department)
    (ip : Int) : (ids.any fun department => (info.segments ipType department).any fun segment => segment.contains ip) =
      true ↔ DepartmentOpens tables directory' user ipType ip := by
  simp only [any_eq_true, listed, represents.mem_segments]
  constructor
  · rintro ⟨department, ⟨-, inside⟩, _, ⟨network, binds, rfl⟩, holds⟩
    exact ⟨network, department, binds, inside, holds⟩
  · rintro ⟨network, department, binds, inside, holds⟩
    exact ⟨department, ⟨⟨network, binds⟩, inside⟩, network.segment, ⟨network, binds, rfl⟩, holds⟩

private theorem Represents.isSome_data_of_typeBound (bound : TypeBound tables directory' user ipType) :
    (info.data ipType).isSome := by
  obtain ⟨_, ⟨network, mem, type, -⟩, -⟩ := bound
  exact (represents.present ipType).mpr ⟨network, mem, type⟩

private theorem Represents.isSome_entry (own : ∃ id, tables.Relates .user id user) (ipType : IpType) :
    (info.entry ipType user).isSome = (info.data ipType).isSome := by
  unfold NetworkInfo.entry
  cases held : info.data ipType with
  | none => rfl
  | some data => exact AList.lookup_isSome.mpr ((represents.users held user).mpr (.inl own))

end Segments

/-- A store after the patches of an update: the bound departments of the user for the new membership by
address type, and the entries written from them. -/
structure Patched (tables : NetworkTables) (old new : Directory) (user : String) (before updated : NetworkInfo)
    (hasOwn : Bool) (ids : IpType → List String) : Prop where
  represents : Represents tables old before.data
  own : hasOwn = true ↔ ∃ id, tables.Relates .user id user
  listed ipType department : department ∈ ids ipType ↔
    (∃ network, tables.Binds .department ipType department network) ∧ new.IsMember user department
  segments : updated.segments = before.segments
  entries ipType : updated.entry ipType user =
    patchedEntry hasOwn (noneBound ids) (before.data ipType).isSome (ids ipType) (before.entry ipType user)

variable {department : String}

section Patched

variable {tables : NetworkTables} {old new : Directory} {before updated : NetworkInfo} {hasOwn : Bool}
  {ids : IpType → List String}

variable (patched : Patched tables old new user before updated hasOwn ids)

include patched

private theorem Patched.typeBound_iff : TypeBound tables new user ipType ↔ ids ipType ≠ [] := by
  constructor
  · rintro ⟨department, bound⟩
    exact ne_nil_of_mem ((patched.listed ipType department).mpr bound)
  · intro nonempty
    obtain ⟨department, mem⟩ := exists_mem_of_ne_nil _ nonempty
    exact ⟨department, (patched.listed ipType department).mp mem⟩

private theorem Patched.skipped_iff : Skipped tables new user ipType ↔ ids ipType = [] ∧ noneBound ids = false := by
  rw [Skipped, ← Bool.not_eq_true, noneBound_iff, not_forall, patched.typeBound_iff, not_not]
  exact and_congr_right' (exists_congr fun _ => patched.typeBound_iff)

private theorem Patched.userNetAllows_iff (ipType : IpType) (ip : Int) :
    userNetAllows updated user ipType ip = true ↔ OwnOpens tables user ipType ip := by
  rw [← PolicyManagement.userNetAllows_iff patched.represents, userNetAllows_eq, userNetAllows_eq,
    patched.entries, any_netSegements_patchedEntry]
  intro unbound
  rw [← userNetAllows_eq, ← Bool.not_eq_true, PolicyManagement.userNetAllows_iff patched.represents]
  rintro ⟨network, ⟨-, -, related⟩, -⟩
  exact absurd (patched.own.mpr ⟨network.id, related⟩) (by rw [unbound]; decide)

/-- A skipped type keeps the old departments; the other types have the new ones. -/
theorem Patched.departmentNetAllows_iff (ipType : IpType) (ip : Int) :
    departmentNetAllows updated user ipType ip = true ↔
    Skipped tables new user ipType ∧ DepartmentOpens tables old user ipType ip ∨
      ¬ Skipped tables new user ipType ∧ DepartmentOpens tables new user ipType ip := by
  have represents := patched.represents
  have loaded (some : ids ipType ≠ []) : (before.data ipType).isSome = true :=
    represents.isSome_data_of_typeBound (patched.typeBound_iff.mpr some)
  rw [departmentNetAllows_eq, patched.entries, patched.segments, any_departments_patchedEntry _ _ loaded]
  · rw [patched.skipped_iff]
    split_ifs with skipped
    · rw [← departmentNetAllows_eq, PolicyManagement.departmentNetAllows_iff represents]
      simp [skipped]
    · rw [represents.any_segments (patched.listed ipType)]
      simp [skipped]
  · intro owned some
    rw [represents.isSome_entry (patched.own.mp owned)]
    exact loaded some

omit patched in
private theorem boundDepartment_of_typeBound (bound : TypeBound tables new user ipType) :
    tables.networks ≠ [] ∧ ∃ department, BoundDepartment tables new user department := by
  obtain ⟨department, ⟨network, mem, -, related⟩, inside⟩ := bound
  exact ⟨ne_nil_of_mem mem, department, ⟨network.id, related⟩, inside⟩

omit patched in
private theorem typeBound_of_boundDepartment (complete : ¬ Dangling tables)
    (bound : BoundDepartment tables new user department) : ∃ ipType, TypeBound tables new user ipType := by
  obtain ⟨⟨id, related⟩, inside⟩ := bound
  obtain ⟨network, mem, rfl⟩ := exists_network_of_not_dangling complete related
  exact ⟨network.ipType, department, ⟨network, mem, rfl, related⟩, inside⟩

private theorem Patched.isSome_entry_of_typeBound (bound : TypeBound tables new user ipType) :
    (updated.entry ipType user).isSome := by
  have loaded := patched.represents.isSome_data_of_typeBound bound
  rw [patched.entries, patchedEntry, if_pos (patched.typeBound_iff.mp bound)]
  cases hasOwn with
  | true => rw [if_pos rfl, Option.isSome_map, patched.represents.isSome_entry (patched.own.mp rfl), loaded]
  | false => rw [if_pos loaded]; rfl

private theorem Patched.isSome_entry_of_noneBound (none : ∀ ipType, ids ipType = []) (ipType : IpType) :
    (updated.entry ipType user).isSome = (hasOwn && (before.data ipType).isSome) := by
  rw [patched.entries, patchedEntry, if_neg (not_not.mpr (none ipType)), if_pos ((noneBound_iff ids).mpr none)]
  cases hasOwn with
  | true => rw [if_pos rfl, Option.isSome_map, patched.represents.isSome_entry (patched.own.mp rfl), Bool.true_and]
  | false => rfl

omit patched in
private theorem checkUserExist_eq_true_iff (info : NetworkInfo) (user : String) :
    checkUserExist info user = true ↔ ∃ ipType, (info.entry ipType user).isSome := by
  rw [checkUserExist_eq, any_eq_true]
  refine exists_congr fun ipType => and_iff_right ?_
  cases ipType <;> decide

private theorem Patched.checkUserExist_iff (complete : ¬ Dangling tables) :
    checkUserExist updated user = true ↔ tables.networks ≠ [] ∧ Restricted tables new user := by
  rw [checkUserExist_eq_true_iff]
  by_cases bound : ∃ ipType, TypeBound tables new user ipType
  · obtain ⟨ipType, bound⟩ := bound
    obtain ⟨nonempty, restricted⟩ := boundDepartment_of_typeBound bound
    exact iff_of_true ⟨ipType, patched.isSome_entry_of_typeBound bound⟩ ⟨nonempty, .inr restricted⟩
  · -- only the user's own relations restrict the user
    have none (ipType : IpType) : ids ipType = [] := not_not.mp (mt patched.typeBound_iff.mpr fun here =>
      bound ⟨ipType, here⟩)
    have restricted : Restricted tables new user ↔ hasOwn = true := by
      rw [patched.own]
      exact or_iff_left fun ⟨_, here⟩ => bound (typeBound_of_boundDepartment complete here)
    simp only [patched.isSome_entry_of_noneBound none, Bool.and_eq_true, restricted, patched.represents.present]
    constructor
    · rintro ⟨ipType, owned, network, mem, -⟩
      exact ⟨ne_nil_of_mem mem, owned⟩
    · rintro ⟨nonempty, owned⟩
      obtain ⟨network, mem⟩ := exists_mem_of_ne_nil _ nonempty
      exact ⟨network.ipType, owned, network, mem, rfl⟩

end Patched

section Change

variable {tables : NetworkTables} (change : DepartmentChange user) {before after : NetworkInfo}

/-- Relations name the user as a user. -/
def NamesUser (tables : NetworkTables) (user : String) : Prop :=
  ∀ relation ∈ tables.relations, relation.accessorId = user → relation.accessorType = .user

private theorem NamesUser.relates (names : NamesUser tables user) :
    (∃ relation ∈ tables.relations, relation.accessorId = user) ↔ ∃ id, tables.Relates .user id user := by
  constructor
  · rintro ⟨⟨id, _, type⟩, mem, rfl⟩
    obtain rfl : type = .user := names _ mem rfl
    exact ⟨id, mem⟩
  · rintro ⟨id, related⟩
    exact ⟨_, related, rfl⟩

/-- The decision on the user after an update that ran through. -/
theorem accessible_updated (names : NamesUser tables user)
    (represents : Represents tables change.old.directory before.data)
    (enabled : before.isEnabled = true) (triggered : Triggered tables change.paths) (complete : ¬ Dangling tables)
    (ipType : IpType) (ip : Int) :
    accessible (incrementalUpdatePolicy tables change.new.directory user change.paths before) user ipType ip = true ↔
      user ∈ adminIDs ∨ OwnOpens tables user ipType ip ∨
        (Skipped tables change.new.directory user ipType ∧ DepartmentOpens tables change.old.directory user ipType ip ∨
          ¬ Skipped tables change.new.directory user ipType ∧
          DepartmentOpens tables change.new.directory user ipType ip) ∨
        before.noPolicyAccessorEnabled = some true ∧ ¬ (tables.networks ≠ [] ∧
          Restricted tables change.new.directory user) := by
  have belongs : change.new.directory.getBelongDepartByUserId user = .ok (change.new.paths user).flatten := rfl
  rcases update_of_triggered belongs triggered complete with ⟨none, ran⟩ | ⟨hasOwn, ids, own, listed, ran⟩
  · -- no department has a relation: nothing is patched, and departments do not count
    have unopened (directory : Directory) : ¬ DepartmentOpens tables directory user ipType ip :=
      fun ⟨network, department, binds, _⟩ => none network.id department binds.2.2
    have restricted (directory : Directory) : Restricted tables directory user ↔ ∃ id, tables.Relates .user id user :=
      or_iff_left fun ⟨department, ⟨id, related⟩, _⟩ => none id department related
    rw [incrementalUpdatePolicy, ran]
    change accessible before user ipType ip = true ↔ _
    rw [accessible_of_represents represents enabled, restricted, restricted]
    simp [unopened]
  · have patched : Patched tables change.old.directory change.new.directory user before
        (incrementalUpdateData before (updatePatches user hasOwn ids)) hasOwn ids :=
      { represents
        own := own.trans names.relates
        listed := fun ipType department => by rw [listed, Organisation.isMember_iff, mem_flatten]
        segments := segments_incrementalUpdateData before _
        entries := entry_updatePatches before user hasOwn ids }
    obtain ⟨switch, noPolicy⟩ := switches_incrementalUpdateData before (updatePatches user hasOwn ids)
    rw [incrementalUpdatePolicy, ran]
    rw [accessible_eq_true_iff (switch.trans enabled), noPolicy, patched.userNetAllows_iff,
      patched.departmentNetAllows_iff, patched.checkUserExist_iff complete]

private theorem isMember_of_not_triggered (untriggered : ¬ Triggered tables change.paths)
    {accessorType : AccessorType} {id : String}
    (related : tables.Relates accessorType id department) :
    change.old.directory.IsMember user department ↔ change.new.directory.IsMember user department := by
  have elsewhere {path : List String} (inside : department ∈ path) : path ∉ change.paths :=
    fun mem => untriggered ⟨path, mem, _, related, inside⟩
  rw [Organisation.isMember_iff, Organisation.isMember_iff]
  constructor
  · rintro ⟨path, mem, inside⟩
    exact ⟨path, by_contra fun gone => elsewhere inside (change.left path mem gone), inside⟩
  · rintro ⟨path, mem, inside⟩
    exact ⟨path, by_contra fun gone => elsewhere inside (change.joined path mem gone), inside⟩

variable (represents : Represents tables change.old.directory before.data)
  (represents' : Represents tables change.new.directory after.data) (enabled : before.isEnabled = true)
  (enabled' : after.isEnabled = true) (noPolicy : after.noPolicyAccessorEnabled = before.noPolicyAccessorEnabled)

include represents represents' enabled enabled' noPolicy

/-- A change that concerns no accessor of a relation changes nothing the decision reads. -/
theorem accessible_of_not_triggered (untriggered : ¬ Triggered tables change.paths) (ipType : IpType) (ip : Int) :
    accessible before user ipType ip = accessible after user ipType ip := by
  have bound (department : String) : BoundDepartment tables change.old.directory user department ↔
      BoundDepartment tables change.new.directory user department :=
    and_congr_right fun ⟨_, related⟩ => isMember_of_not_triggered change untriggered related
  have opens : DepartmentOpens tables change.old.directory user ipType ip ↔
      DepartmentOpens tables change.new.directory user ipType ip := by
    refine exists_congr fun network => exists_congr fun department => and_congr_right fun binds => and_congr_left' ?_
    exact isMember_of_not_triggered change untriggered binds.2.2
  rw [Bool.eq_iff_iff, accessible_of_represents represents enabled,
    accessible_of_represents represents' enabled', noPolicy]
  simp [Restricted, bound, opens]

/-- An update that ran through agrees with the rebuild on an address unless it skipped the type and the
old departments of the user opened it. -/
theorem accessible_updated_eq_iff (names : NamesUser tables user) (triggered : Triggered tables change.paths)
    (complete : ¬ Dangling tables) (ipType : IpType) (ip : Int) :
    accessible (incrementalUpdatePolicy tables change.new.directory user change.paths before) user ipType ip =
        accessible after user ipType ip ↔ (user ∉ adminIDs → Skipped tables change.new.directory user ipType →
        DepartmentOpens tables change.old.directory user ipType ip → OwnOpens tables user ipType ip) := by
  rw [Bool.eq_iff_iff, accessible_updated change names represents enabled triggered complete,
    accessible_of_represents represents' enabled', noPolicy]
  by_cases skipped : Skipped tables change.new.directory user ipType
  · have unopened : ¬ DepartmentOpens tables change.new.directory user ipType ip :=
      fun ⟨network, department, binds, inside, _⟩ => skipped.1 ⟨department, ⟨network, binds⟩, inside⟩
    have counted : tables.networks ≠ [] ∧ Restricted tables change.new.directory user := by
      obtain ⟨other, bound⟩ := skipped.2
      exact (boundDepartment_of_typeBound bound).imp_right .inr
    tauto
  · simp [skipped]

end Change

/-- After the update the user is decided as after a rebuild, and all others as before. -/
def KeepsUp (user : String) (before updated after : NetworkInfo) : Prop :=
  (∀ ipType ip, accessible updated user ipType ip = accessible after user ipType ip) ∧
    ∀ other, other ≠ user → ∀ ipType ip, accessible updated other ipType ip = accessible before other ipType ip

private theorem accessible_of_exempt (exempt : info.isEnabled = false ∨ user ∈ adminIDs) (ipType : IpType) (ip : Int) :
    accessible info user ipType ip = true := by
  rcases exempt with disabled | admin
  · simp only [accessible, disabled, Bool.not_false, Bool.true_or]
  · simp [accessible, admin]

private theorem isEnabled_getOPAData {tables : NetworkTables} {directory : Directory} {isEnabled : Bool}
    (built : getOPAData tables directory isEnabled noPolicyEnabled = .ok info) : info.isEnabled = isEnabled := by
  cases isEnabled with
  | false => cases built; rfl
  | true => exact (getOPAData_represents built).2.1

/-- When the incremental update replaces the rebuild. -/
theorem update_keepsUp_iff {tables : NetworkTables} {user : String} (change : DepartmentChange user)
    (names : NamesUser tables user) {isEnabled noPolicyEnabled : Bool} {before after : NetworkInfo}
    (built : getOPAData tables change.old.directory isEnabled noPolicyEnabled = .ok before)
    (rebuilt : getOPAData tables change.new.directory isEnabled noPolicyEnabled = .ok after) :
    KeepsUp user before (incrementalUpdatePolicy tables change.new.directory user change.paths before) after ↔
      (isEnabled = true → user ∉ adminIDs → Triggered tables change.paths →
        (Dangling tables → ∀ ipType ip, Admits tables change.old.directory noPolicyEnabled user ipType ip ↔
          Admits tables change.new.directory noPolicyEnabled user ipType ip) ∧
        (¬ Dangling tables → ∀ ipType ip, Skipped tables change.new.directory user ipType →
          DepartmentOpens tables change.old.directory user ipType ip → OwnOpens tables user ipType ip)) := by
  rw [KeepsUp, and_iff_left fun other foreign => accessible_incrementalUpdatePolicy_of_ne before foreign]
  by_cases exempt : isEnabled = false ∨ user ∈ adminIDs
  · refine iff_of_true (fun ipType ip => ?_) fun enabled notAdmin => ?_
    · rw [accessible_of_exempt, accessible_of_exempt]
      · rwa [isEnabled_getOPAData rebuilt]
      · rw [incrementalUpdatePolicy]
        split
        case h_1 patches ran => rwa [(switches_incrementalUpdateData _ patches).1, isEnabled_getOPAData built]
        case h_2 => rwa [isEnabled_getOPAData built]
    · exact absurd exempt (not_or.mpr ⟨by rw [enabled]; decide, notAdmin⟩)
  obtain ⟨on, notAdmin⟩ := not_or.mp exempt
  obtain rfl := (Bool.not_eq_false isEnabled).mp on
  obtain ⟨represents, enabled, noPolicy⟩ := getOPAData_represents built
  obtain ⟨represents', enabled', noPolicy'⟩ := getOPAData_represents rebuilt
  have samePolicy := noPolicy'.trans noPolicy.symm
  by_cases triggered : Triggered tables change.paths
  · by_cases dangling : Dangling tables
    · obtain ⟨failure, failed⟩ : ∃ failure, updateUserDepartmentRelation tables change.new.directory user change.paths =
          .error failure := update_of_dangling triggered dangling
      rw [incrementalUpdatePolicy, failed]
      simp only [Bool.eq_iff_iff, represents.accessible_iff_admits enabled noPolicy notAdmin,
        represents'.accessible_iff_admits enabled' noPolicy' notAdmin, true_imp_iff, notAdmin, not_false_eq_true,
        triggered, dangling, not_true, false_imp_iff, and_true]
    · simp only [accessible_updated_eq_iff change represents represents' enabled enabled' samePolicy names triggered
        dangling, true_imp_iff, notAdmin, not_false_eq_true, triggered, dangling, false_imp_iff, true_and]
  · rw [incrementalUpdatePolicy, update_of_not_triggered triggered]
    refine iff_of_true (fun ipType ip => ?_) fun _ _ here => absurd here triggered
    exact accessible_of_not_triggered change represents represents' enabled enabled' samePolicy triggered ipType ip

section Updates

variable {first second : NetworkInfo}

/-- The departments of a user have changed, with the tables and the answers of user management at the time. -/
structure DepartmentUpdate where
  tables : NetworkTables
  directory : Directory
  userId : String
  departmentPaths : List (List String)

namespace NetworkInfo

def update (info : NetworkInfo) (update : DepartmentUpdate) : NetworkInfo :=
  incrementalUpdatePolicy update.tables update.directory update.userId update.departmentPaths info

/-- What decisions and patches for a user read of the document. -/
def view (user : String) (info : NetworkInfo) :=
  (fun ipType => (info.entry ipType user, (info.data ipType).isSome), info.segments, info.isEnabled,
    info.noPolicyAccessorEnabled)

private theorem accessible_congr (same : first.view user = second.view user) :
    accessible first user = accessible second user := by
  simp only [view, Prod.mk.injEq, funext_iff] at same
  funext ipType ip
  simp [accessible, userNetAllows_eq, departmentNetAllows_eq, checkUserExist_eq, same]

private theorem view_write (same : first.view user = second.view user) (patch : OPADataPatch) :
    (first.write patch).view user = (second.write patch).view user := by
  simp only [view, Prod.mk.injEq, funext_iff, segments_write] at same ⊢
  refine ⟨fun ipType => ⟨?_, ?_⟩, same.2⟩
  · by_cases own : ipType = patch.ipType ∧ user = patch.userId
    · obtain ⟨rfl, rfl⟩ := own
      simp [entry_write, same.1]
    · rw [not_and_or] at own
      rw [entry_write_of_ne first patch own, entry_write_of_ne second patch own, (same.1 ipType).1]
  · simp only [write]
    split <;> simp [same.1]

private theorem view_update (same : first.view user = second.view user) (update : DepartmentUpdate) :
    (first.update update).view user = (second.update update).view user := by
  simp only [NetworkInfo.update, incrementalUpdatePolicy]
  split
  · exact foldl_rel (r := fun first second => view user first = view user second) same fun patch _ _ _ same =>
      view_write same patch
  · exact same

private theorem view_update_of_ne {update : DepartmentUpdate} (foreign : user ≠ update.userId) :
    (info.update update).view user = info.view user := by
  simp only [NetworkInfo.update, incrementalUpdatePolicy]
  split
  case h_1 patches ran =>
    have entries (ipType : IpType) : (incrementalUpdateData info patches).entry ipType user = info.entry ipType user :=
      entry_incrementalUpdateData_of_ne info fun patch mem => .inr ((userId_of_update ran mem).symm ▸ foreign)
    simp [view, entries, isSome_data_incrementalUpdateData, segments_incrementalUpdateData,
      switches_incrementalUpdateData]
  case h_2 => rfl

private theorem view_foldl_update (same : first.view user = second.view user) (updates : List DepartmentUpdate) :
    (updates.foldl update first).view user = ((updates.filter (·.userId = user)).foldl update second).view user := by
  induction updates generalizing first second with
  | nil => exact same
  | cons update rest ih =>
    rw [filter_cons]
    split
    · exact ih (view_update same update)
    · rename_i foreign
      exact ih ((view_update_of_ne fun same => foreign (decide_eq_true same.symm)).trans same)

end NetworkInfo

/-- However the updates of users are interleaved, the decision on a user is the one that the updates of this user alone
lead to. -/
theorem updates_of_others_ignored (info : NetworkInfo) (updates : List DepartmentUpdate) (user : String) :
    accessible (updates.foldl .update info) user = accessible ((updates.filter (·.userId = user)).foldl .update info)
      user :=
  NetworkInfo.accessible_congr (NetworkInfo.view_foldl_update rfl updates)

end Updates

namespace Sample

/-- One department with an ipv6 network and one with an ipv4 network. -/
def boundDepartments : NetworkTables where
  networks := [⟨"net6", 1, 10, .ipv6⟩, ⟨"net4", 1, 10, .ipv4⟩]
  relations := [⟨"net6", "departA", .department⟩, ⟨"net4", "departB", .department⟩]
  nodup := by decide

/-- A single user, in a department below the root. -/
def memberOf (department : String) : Organisation where
  users := ["user01"]
  paths user := if user = "user01" then [["root", department]] else []
  listed := by
    intro user
    split_ifs with same
    · exact fun _ => mem_singleton.mpr same
    · exact fun nonempty => absurd rfl nonempty

/-- The user moves from the first department to the second. -/
def moved : DepartmentChange "user01" where
  old := memberOf "departA"
  new := memberOf "departB"
  paths := [["root", "departA"], ["root", "departB"]]
  others other different := by simp only [memberOf, if_neg different]
  left := by decide
  joined := by decide

private theorem namesUser_boundDepartments : NamesUser boundDepartments "user01" := by
  unfold NamesUser
  decide

end Sample

open Sample

theorem update_keepsUp_iff_sample :
    ∃ before after, getOPAData boundDepartments moved.old.directory true false = .ok before ∧
    getOPAData boundDepartments moved.new.directory true false = .ok after ∧
    (KeepsUp "user01" before (incrementalUpdatePolicy boundDepartments moved.new.directory "user01" moved.paths before)
      after ↔ (true = true → "user01" ∉ adminIDs → Triggered boundDepartments moved.paths →
        (Dangling boundDepartments → ∀ ipType ip, Admits boundDepartments moved.old.directory false "user01" ipType ip ↔
            Admits boundDepartments moved.new.directory false "user01" ipType ip) ∧
        (¬ Dangling boundDepartments → ∀ ipType ip, Skipped boundDepartments moved.new.directory "user01" ipType →
          DepartmentOpens boundDepartments moved.old.directory "user01" ipType ip →
          OwnOpens boundDepartments "user01" ipType ip))) := by
  have built : getOPAData boundDepartments moved.old.directory true false = .ok _ := rfl
  have rebuilt : getOPAData boundDepartments moved.new.directory true false = .ok _ := rfl
  exact ⟨_, _, built, rebuilt, update_keepsUp_iff moved namesUser_boundDepartments built rebuilt⟩

/-- The ipv6 network of the department the user left stays open to the user. -/
theorem left_department_stays_open :
    ∃ before after, getOPAData boundDepartments moved.old.directory true false = .ok before ∧
    getOPAData boundDepartments moved.new.directory true false = .ok after ∧
    accessible (incrementalUpdatePolicy boundDepartments moved.new.directory "user01" moved.paths before)
      "user01" .ipv6 5 = true ∧ accessible after "user01" .ipv6 5 = false :=
  ⟨_, _, rfl, rfl, by decide, by decide⟩

end

/-! # When product quotas are kept

A handler finds room for the products it adds before its transaction, in the numbers it counted and the rows it means to
delete. A product stays within its quota as long as, at each write, the rows to delete are still there and there are no
more rows than were counted.
-/

open List GoMap AList Machine

variable {quotas : GoMap String Int}

/-- The product has a quota. -/
def Limited (quotas : GoMap String Int) (product : String) : Prop :=
  ∃ quota, quotas.lookup product = some quota ∧ quota ≠ -1

/-- For each product with a quota that a plan adds: the rows it means to delete are still in the table, and
the table has no more rows of it than were counted. -/
structure StillHolds (quotas : GoMap String Int) (rows : List ProductInfo) (plan : Plan)
    (counts : List (String × Nat)) : Prop where
  deleted : ∀ info ∈ plan.needAddProducts, Limited quotas info.product →
    getProductsAuthorizedCount plan.needDeleteProducts info.product ≤ plan.removed rows info.product
  counted : ∀ info ∈ plan.needAddProducts, Limited quotas info.product → ∀ count, (info.product, count) ∈ counts →
    getProductsAuthorizedCount rows info.product ≤ count

/-- If the step is the transaction of a plan, what the handler read for it still holds. -/
def WritesUpToDate (quotas : GoMap String Int) (state : Shared Nat LicenseStore HandlerPhase)
    (label : Nat × HandlerChoice) : Prop :=
  ∀ plan counts, label.2 = .proceed → state.phase label.1 = .writing plan counts →
    StillHolds quotas state.store.rows plan counts

variable {rows : List ProductInfo}

/-- A transaction whose reads still hold. -/
theorem WithinQuota.write {plan : Plan} {counts : List (String × Nat)} (within : WithinQuota quotas rows)
    (room : plan.HasRoom quotas counts) (holds : StillHolds quotas rows plan counts) :
    WithinQuota quotas (plan.write rows) := by
  intro product quota limited bounded
  have before := within product quota limited bounded
  have written := count_write plan rows product
  by_cases adds : 0 < getProductsAuthorizedCount plan.needAddProducts product
  · obtain ⟨info, mem, same⟩ := countP_pos_iff.mp adds
    obtain rfl : info.product = product := of_decide_eq_true same
    have deleted := holds.deleted info mem ⟨quota, limited, bounded⟩
    rcases room info.product quota limited bounded adds with balanced | ⟨count, counted, fits⟩
    · omega
    · have current := holds.counted info mem ⟨quota, limited, bounded⟩ count counted
      omega
  · omega

private theorem WithinQuota.deleteUser (within : WithinQuota quotas rows) (userID : String) :
    WithinQuota quotas (deleteUserAuthorizedProducts rows userID) := by
  intro product quota limited bounded
  have fewer : getProductsAuthorizedCount (deleteUserAuthorizedProducts rows userID) product ≤
      getProductsAuthorizedCount rows product := Sublist.countP_le filter_sublist
  have before := within product quota limited bounded
  omega

/-- One step of a handler keeps the quotas and what it has checked. -/
theorem Handler.advance_keeps {handler : Handler} {choice : HandlerChoice} {store after : LicenseStore}
    {phase next : HandlerPhase} (within : WithinQuota quotas store.rows) (checked : handler.Checked quotas phase)
    (holds : ∀ plan counts, choice = .proceed → phase = .writing plan counts → StillHolds quotas store.rows plan counts)
    (advanced : handler.advance quotas choice store phase = some (after, next)) :
    WithinQuota quotas after.rows ∧ handler.Checked quotas next := by
  unfold Handler.advance at advanced
  repeat' split at advanced
  all_goals cases advanced
  · exact ⟨within, trivial⟩
  · exact ⟨within, handler.checked_begin quotas⟩
  · exact ⟨within, handler.checked_afterReading quotas _⟩
  · exact ⟨within, trivial⟩
  · rename_i waiting
    exact ⟨within, Handler.Counting.count checked waiting _⟩
  · exact ⟨within, Handler.checked_afterCounting checked⟩
  · exact ⟨within.write checked (holds _ _ rfl rfl), trivial⟩
  · exact ⟨within.deleteUser _, trivial⟩

/-- In every run of any handlers whose transactions all find what they rest on, no product exceeds its quota. -/
theorem quotas_kept {quotas : GoMap String Int} {handlers : Nat → Handler} {rows : List ProductInfo}
    {schedule : List (Nat × HandlerChoice)}
    {final : Shared Nat LicenseStore HandlerPhase} (within : WithinQuota quotas rows)
    (upToDate : Meets (licenseStep quotas handlers) (WritesUpToDate quotas) (licenseStart rows) schedule)
    (reached : Machine.run (licenseStep quotas handlers) (licenseStart rows) schedule = some final) :
    WithinQuota quotas final.store.rows := by
  have checked (i : Nat) : (handlers i).Checked quotas ((licenseStart rows).phase i) := trivial
  exact (Shared.invariant_of_parties (fun store => WithinQuota quotas store.rows)
    (fun i => (handlers i).Checked quotas) Handler.advance_keeps within checked upToDate reached).1

namespace Sample

/-- One place for one product. -/
def onePlace : GoMap String Int := assign Prod.fst Prod.snd [("product", 1)] ∅

/-- An administrator's request to authorize a user for the product. -/
def grant (userID : String) : UpdateRequest where
  visitor := ⟨"admin", .realName, .americanEnglish⟩
  products := assign id (fun _ => ["product"]) [userID] ∅
  userInfos := assign id (fun id => ⟨id, collect [.superAdmin]⟩) ["admin", userID] ∅

/-- The first handler is the request, the others the event of a new user. -/
def handlers : Nat → Handler
  | 0 => .updateAuthorizedProducts (grant "u")
  | _ => .userAddAllProducts ⟨"v", none⟩

/-- Two requests for the product. -/
def requests : Nat → Handler
  | 0 => .updateAuthorizedProducts (grant "u")
  | _ => .updateAuthorizedProducts (grant "v")

/-- A handler up to its transaction. -/
def upToWrite (i : Nat) : List (Nat × HandlerChoice) :=
  [(i, .proceed), (i, .proceed), (i, .proceed), (i, .count "product"), (i, .proceed)]

end Sample

open Sample

private theorem withinQuota_empty : WithinQuota onePlace [] := by
  intro product quota limited _
  have mem := mem_lookup_iff.mp limited
  simp only [onePlace, assign, foldl_cons, foldl_nil, insert_empty, singleton_entries, mem_singleton] at mem
  cases mem
  decide

/-- One request after the other: the first one takes the only place, the second one is refused. -/
theorem quotas_kept_sample : ∃ final, Machine.run (licenseStep onePlace requests) (licenseStart [])
      (upToWrite 0 ++ [(0, .proceed)] ++ upToWrite 1) = some final ∧ final.store.rows = [⟨"u", "product"⟩] ∧
    (∃ failure, final.phase 1 = .finished (.error failure)) ∧ WithinQuota onePlace final.store.rows := by
  have reads (state : Shared Nat LicenseStore HandlerPhase) (label : Nat × HandlerChoice)
      (other : ∀ plan counts, state.phase label.1 ≠ .writing plan counts) : WritesUpToDate onePlace state label :=
    fun plan counts _ writing => absurd writing (other plan counts)
  have meets : Meets (licenseStep onePlace requests) (WritesUpToDate onePlace) (licenseStart [])
      (upToWrite 0 ++ [(0, .proceed)] ++ upToWrite 1) := by
    iterate 5 refine .cons (reads _ _ (by rintro _ _ ⟨⟩)) rfl ?_
    refine .cons ?_ rfl ?_
    · rintro plan counts _ ⟨⟩
      exact ⟨fun _ _ _ => Nat.zero_le _, fun _ _ _ _ _ => Nat.zero_le _⟩
    · iterate 5 refine .cons (reads _ _ (by rintro _ _ ⟨⟩)) rfl ?_
      trivial
  exact ⟨_, rfl, rfl, ⟨_, rfl⟩, quotas_kept withinQuota_empty meets rfl⟩

/-- Both handlers count the product before either writes, and both take its last place. -/
theorem overlapping_handlers_exceed_quota :
    WithinQuota onePlace [] ∧ ∃ final, Machine.run (licenseStep onePlace handlers) (licenseStart [])
    (upToWrite 0 ++ upToWrite 1 ++ [(0, .proceed), (1, .proceed)]) = some final ∧
    ¬ WithinQuota onePlace final.store.rows := by
  refine ⟨withinQuota_empty, _, rfl, fun within => ?_⟩
  exact absurd (within "product" 1 rfl (by decide)) (by decide)

end SecurityFabric.PolicyManagement
