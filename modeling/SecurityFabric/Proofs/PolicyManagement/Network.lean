import SecurityFabric.Model.PolicyManagement
import SecurityFabric.ToMathlib.Guarantees

/-! # What the rebuilt network data hold

The rebuild joins relations, networks and memberships into maps. `Represents` says what the maps hold
in terms of the tables alone, and the results after it read the decision rules off such data.
-/

namespace SecurityFabric.PolicyManagement

section

open List GoMap

variable {info : NetworkInfo}
variable {data : IpType → Option NetworkData} {noPolicyEnabled : Bool}

section

variable (tables : NetworkTables) (directory : Directory) (data : IpType → Option NetworkData)
  (accessorType : AccessorType)

/-- A relation binds the network to the accessor. -/
def NetworkTables.Relates (networkId accessorId : String) :
    Prop := ⟨networkId, accessorId, accessorType⟩ ∈ tables.relations

/-- User management lists the user below the department. -/
def Directory.IsMember (user department : String) : Prop :=
  ∃ users, directory.getDepartUserIds department = .ok users ∧ user ∈ users

/-- A department with a relation that the user lies in. -/
def BoundDepartment (user department : String) : Prop :=
  (∃ networkId, tables.Relates .department networkId department) ∧ directory.IsMember user department

/-- A relation names the user or a department the user lies in. -/
def Restricted (user : String) : Prop :=
  (∃ networkId, tables.Relates .user networkId user) ∨ ∃ department, BoundDepartment tables directory user department

def NetworkRestriction.segment (network : NetworkRestriction) : NetSegment := ⟨network.segmentStart, network.segmentEnd⟩

/-- A network of the type, bound to the accessor. -/
def NetworkTables.Binds (ipType : IpType) (accessorId : String) (network : NetworkRestriction) : Prop :=
  network ∈ tables.networks ∧ network.ipType = ipType ∧ tables.Relates accessorType network.id accessorId

/-- Data built from the tables: what each map holds. -/
structure Represents : Prop where
  present ipType : (data ipType).isSome ↔ ∃ network ∈ tables.networks, network.ipType = ipType
  users {ipType found} (held : data ipType = some found) (user : String) : user ∈ found.users ↔
    Restricted tables directory user
  nets {ipType found} (held : data ipType = some found) {user : String} {info : UserNetworkInfo}
    (entry : found.users.lookup user = some info) (segment : NetSegment) :
    segment ∈ info.netSegements ↔ ∃ network, tables.Binds .user ipType user network ∧ network.segment = segment
  departments {ipType found} (held : data ipType = some found) {user : String} {info : UserNetworkInfo}
    (entry : found.users.lookup user = some info) (department : String) :
    department ∈ info.departments ↔ BoundDepartment tables directory user department
  segments {ipType found} (held : data ipType = some found) (department : String) (segment : NetSegment) :
    segment ∈ (found.departments.lookup department).getD [] ↔
      ∃ network, tables.Binds .department ipType department network ∧ network.segment = segment

end

variable {tables : NetworkTables} {directory : Directory}

private theorem mem_getNetsByType {accessorType : AccessorType} {relation : NetworkAccessorRelation} :
    relation ∈ getNetsByType tables accessorType ↔
      relation.accessorType = accessorType ∧ tables.Relates accessorType relation.networkId relation.accessorId := by
  simp only [getNetsByType, mem_filter, decide_eq_true_eq]
  constructor
  · rintro ⟨mem, rfl⟩
    exact ⟨rfl, mem⟩
  · rintro ⟨rfl, mem⟩
    exact ⟨mem, rfl⟩

variable (accessorType : AccessorType)

private theorem mem_lookup_netsMap (accessorId networkId : String) :
    networkId ∈ ((collectBy (·.accessorId) (·.networkId) (getNetsByType tables accessorType)).lookup
      accessorId).getD ∅ ↔ tables.Relates accessorType networkId accessorId := by
  rw [mem_lookup_collectBy]
  constructor
  · rintro ⟨relation, mem, rfl, rfl⟩
    exact (mem_getNetsByType.mp mem).2
  · intro related
    exact ⟨⟨networkId, accessorId, accessorType⟩, mem_getNetsByType.mpr ⟨rfl, related⟩, rfl, rfl⟩

private theorem mem_netsMap (accessorId : String) :
    accessorId ∈ collectBy (·.accessorId) (·.networkId) (getNetsByType tables accessorType) ↔
    ∃ networkId, tables.Relates accessorType networkId accessorId := by
  rw [mem_collectBy]
  constructor
  · rintro ⟨relation, mem, rfl⟩
    exact ⟨relation.networkId, (mem_getNetsByType.mp mem).2⟩
  · rintro ⟨networkId, related⟩
    exact ⟨⟨networkId, accessorId, accessorType⟩, mem_getNetsByType.mpr ⟨rfl, related⟩, rfl⟩

/-- The pairs of user and department that the members of the bound departments give. -/
theorem mem_memberPairs {loaded : GoMap String (List String)}
    (success : load directory.getDepartUserIds ((getNetsByType tables .department).map (·.accessorId)) ∅ =
      .ok loaded) (user department : String) :
    (user, department) ∈ loaded.entries.flatMap (fun entry => entry.2.map fun userid => (userid, entry.1)) ↔
      BoundDepartment tables directory user department := by
  have lookups := lookup_load success department
  have bound : department ∈ (getNetsByType tables .department).map (·.accessorId) ↔
      ∃ networkId, tables.Relates .department networkId department := by
    rw [← mem_netsMap, mem_collectBy, mem_map]
  have listed : (user, department) ∈ loaded.entries.flatMap (fun entry => entry.2.map fun userid => (userid, entry.1)) ↔
      ∃ users, loaded.lookup department = some users ∧ user ∈ users := by
    simp only [mem_flatMap, mem_map, Prod.mk.injEq]
    constructor
    · rintro ⟨⟨id, users⟩, mem, user', present, rfl, rfl⟩
      exact ⟨users, AList.mem_lookup_iff.mpr mem, present⟩
    · rintro ⟨users, found, present⟩
      exact ⟨⟨department, users⟩, AList.mem_lookup_iff.mp found, user, present, rfl, rfl⟩
  rw [listed, lookups, BoundDepartment, ← bound, Directory.IsMember]
  by_cases related : department ∈ (getNetsByType tables .department).map (·.accessorId)
  · cases directory.getDepartUserIds department with
    | error failure | ok users => simp [Except.toOption]
  · simp [related]

private theorem lookup_getNetidSegMap (tables : NetworkTables) (ipType : IpType) (id : String) (segment : NetSegment) :
    (getNetidSegMap tables ipType).lookup id = some segment ↔
      ∃ network ∈ tables.networks, network.ipType = ipType ∧ network.id = id ∧ network.segment = segment := by
  rw [getNetidSegMap, lookup_assign, AList.lookup_empty, Option.or_none, Option.map_eq_some_iff]
  constructor
  · rintro ⟨network, found, rfl⟩
    have mem := mem_filter.mp (mem_reverse.mp (mem_of_find?_eq_some found))
    exact ⟨network, mem.1, of_decide_eq_true mem.2, by simpa using find?_some found, rfl⟩
  · rintro ⟨network, mem, type, rfl, rfl⟩
    have listed : network ∈ tables.networks.filter fun network => network.ipType = ipType := by
      simpa using ⟨mem, type⟩
    obtain ⟨other, stored, same, found⟩ := exists_last NetworkRestriction.id listed
    obtain rfl := inj_on_of_nodup_map tables.nodup (mem_filter.mp stored).1 mem same
    exact ⟨other, found, rfl⟩

private theorem mem_segmentsOf (ipType : IpType) (accessorId : String) (segment : NetSegment) {netIDs : GoSet String}
    (held : ∀ id, id ∈ netIDs ↔ tables.Relates accessorType id accessorId) :
    segment ∈ segmentsOf (getNetidSegMap tables ipType) netIDs ↔
      ∃ network, tables.Binds accessorType ipType accessorId network ∧ network.segment = segment := by
  simp only [segmentsOf, mem_filterMap, ← AList.mem_keys, lookup_getNetidSegMap, held]
  constructor
  · rintro ⟨_, related, network, mem, type, rfl, same⟩
    exact ⟨network, ⟨mem, type, related⟩, same⟩
  · rintro ⟨network, ⟨mem, type, related⟩, same⟩
    exact ⟨network.id, related, network, mem, type, rfl, same⟩

private theorem lookup_convertUserData (useridNetsMap useridDepartmentidsMap : GoMap String (GoSet String))
    (netIDSegmentMap : GoMap String NetSegment) (user : String) (info : UserNetworkInfo) :
    (convertUserData useridNetsMap useridDepartmentidsMap netIDSegmentMap).lookup user = some info ↔
      (user ∈ useridNetsMap ∨ user ∈ useridDepartmentidsMap) ∧
        info = ⟨((useridDepartmentidsMap.lookup user).getD ∅).keys,
          segmentsOf netIDSegmentMap ((useridNetsMap.lookup user).getD ∅)⟩ := by
  rw [convertUserData, lookup_overlay, lookup_filterMap, ← AList.lookup_isSome, ← AList.lookup_isSome]
  have emptied : segmentsOf netIDSegmentMap ∅ = [] := rfl
  cases useridNetsMap.lookup user <;> cases useridDepartmentidsMap.lookup user <;>
    simp [eq_comm, emptied]

/-- What the three maps of the rebuild hold. -/
theorem getAllPolicies_spec {useridNetsMap departmentidNetsMap useridDepartmentidsMap : GoMap String (GoSet String)}
    (built : getAllPolicies tables directory = .ok (useridNetsMap, departmentidNetsMap, useridDepartmentidsMap)) :
    (∀ user, user ∈ useridNetsMap ↔ ∃ id, tables.Relates .user id user) ∧
      (∀ user id, id ∈ (useridNetsMap.lookup user).getD ∅ ↔ tables.Relates .user id user) ∧
      (∀ department id, id ∈ (departmentidNetsMap.lookup department).getD ∅ ↔
        tables.Relates .department id department) ∧
      (∀ user, user ∈ useridDepartmentidsMap ↔ ∃ department, BoundDepartment tables directory user department) ∧
      ∀ user department, department ∈ (useridDepartmentidsMap.lookup user).getD ∅ ↔
      BoundDepartment tables directory user department := by
  obtain ⟨loaded, loading, built⟩ := bind_ok built
  cases built
  refine ⟨mem_netsMap .user, mem_lookup_netsMap .user, mem_lookup_netsMap .department, ?_, ?_⟩
  · intro user
    simp only [mem_collectBy, ← mem_memberPairs loading]
    constructor
    · rintro ⟨⟨_, department⟩, mem, rfl⟩
      exact ⟨department, mem⟩
    · rintro ⟨department, mem⟩
      exact ⟨_, mem, rfl⟩
  · intro user department
    rw [mem_lookup_collectBy, ← mem_memberPairs loading]
    constructor
    · rintro ⟨⟨_, _⟩, mem, rfl, rfl⟩
      exact mem
    · exact fun mem => ⟨_, mem, rfl, rfl⟩

private theorem getNetidSegMap_ne_nil (tables : NetworkTables) (ipType : IpType) :
    (getNetidSegMap tables ipType).keys ≠ [] ↔ ∃ network ∈ tables.networks, network.ipType = ipType := by
  have keys (id : String) : id ∈ (getNetidSegMap tables ipType).keys ↔
      ∃ network ∈ tables.networks, network.ipType = ipType ∧ network.id = id := by
    simp [← AList.mem_keys, getNetidSegMap, mem_assign, and_assoc]
  constructor
  · intro nonempty
    obtain ⟨id, mem⟩ := exists_mem_of_ne_nil _ nonempty
    obtain ⟨network, stored, type, -⟩ := (keys id).mp mem
    exact ⟨network, stored, type⟩
  · rintro ⟨network, stored, type⟩
    exact ne_nil_of_mem ((keys network.id).mpr ⟨network, stored, type, rfl⟩)

/-- The rebuild represents the tables. -/
theorem getNetworkData_represents (built : getNetworkData tables directory = .ok data) :
    Represents tables directory data := by
  obtain ⟨⟨useridNetsMap, departmentidNetsMap, useridDepartmentidsMap⟩, joined, built⟩ := bind_ok built
  obtain ⟨users, nets, departmentNets, userDepartments, departments⟩ := getAllPolicies_spec joined
  obtain rfl := Except.ok.inj built
  have fields {segments} {found : NetworkData} (held : (if segments.keys = [] then none else some {
        users := convertUserData useridNetsMap useridDepartmentidsMap segments
        departments := convertDepartmentData departmentidNetsMap segments : NetworkData }) = some found) :
      found.users = convertUserData useridNetsMap useridDepartmentidsMap segments ∧
        found.departments = convertDepartmentData departmentidNetsMap segments := by
    split_ifs at held
    cases held
    exact ⟨rfl, rfl⟩
  refine ⟨?_, ?_, ?_, ?_, ?_⟩
  · intro ipType
    rw [← getNetidSegMap_ne_nil]
    change Option.isSome (if (getNetidSegMap tables ipType).keys = [] then none else _) = true ↔ _
    split_ifs with empty <;> simp [empty]
  · intro ipType found held user
    rw [(fields held).1, ← AList.lookup_isSome, Option.isSome_iff_exists]
    simp only [lookup_convertUserData, exists_and_left, exists_eq, and_true, users, userDepartments]
    rfl
  · intro ipType found held user info entry segment
    rw [(fields held).1, lookup_convertUserData] at entry
    rw [entry.2]
    exact mem_segmentsOf .user ipType user segment (nets user)
  · intro ipType found held user info entry department
    rw [(fields held).1, lookup_convertUserData] at entry
    rw [entry.2]
    exact departments user department
  · intro ipType found held department segment
    rw [(fields held).2, convertDepartmentData, lookup_filterMap]
    refine Iff.trans ?_ (mem_segmentsOf .department ipType department segment (departmentNets department))
    cases departmentidNetsMap.lookup department <;> rfl

/-- A network of the type bound to the user holds the address. -/
def OwnOpens (tables : NetworkTables) (user : String) (ipType : IpType) (ip : Int) : Prop :=
  ∃ network, tables.Binds .user ipType user network ∧ network.segment.contains ip = true

/-- A network of the type bound to a department of the user holds the address. -/
def DepartmentOpens (tables : NetworkTables) (directory : Directory) (user : String) (ipType : IpType) (ip : Int) :
    Prop :=
  ∃ network department, tables.Binds .department ipType department network ∧
    directory.IsMember user department ∧ network.segment.contains ip = true

private theorem Represents.entry (represents : Represents tables directory data) {ipType : IpType} {user : String}
    (network : ∃ network ∈ tables.networks, network.ipType = ipType) (restricted : Restricted tables directory user) :
    ∃ found info, data ipType = some found ∧ found.users.lookup user = some info := by
  obtain ⟨found, held⟩ := Option.isSome_iff_exists.mp ((represents.present ipType).mpr network)
  have mem := (represents.users held user).mpr restricted
  obtain ⟨info, entry⟩ := Option.isSome_iff_exists.mp (AList.lookup_isSome.mpr mem)
  exact ⟨found, info, held, entry⟩

section OfUser

variable (represents : Represents tables directory info.data) (user : String)

include represents user

theorem userNetAllows_iff (ipType : IpType) (ip : Int) :
    userNetAllows info user ipType ip = true ↔ OwnOpens tables user ipType ip := by
  simp only [userNetAllows, Option.any_eq_true, any_eq_true]
  constructor
  · rintro ⟨found, held, entry, listed, segment, mem, holds⟩
    obtain ⟨network, binds, rfl⟩ := (represents.nets held listed segment).mp mem
    exact ⟨network, binds, holds⟩
  · rintro ⟨network, binds, holds⟩
    obtain ⟨found, entry, held, listed⟩ := represents.entry ⟨network, binds.1, binds.2.1⟩ (.inl ⟨network.id, binds.2.2⟩)
    exact ⟨found, held, entry, listed, network.segment,
      (represents.nets held listed _).mpr ⟨network, binds, rfl⟩, holds⟩

theorem departmentNetAllows_iff (ipType : IpType) (ip : Int) :
    departmentNetAllows info user ipType ip = true ↔ DepartmentOpens tables directory user ipType ip := by
  simp only [departmentNetAllows, Option.any_eq_true, any_eq_true]
  constructor
  · rintro ⟨found, held, entry, listed, department, inside, segment, mem, holds⟩
    obtain ⟨network, binds, rfl⟩ := (represents.segments held department segment).mp mem
    exact ⟨network, department, binds, ((represents.departments held listed department).mp inside).2, holds⟩
  · rintro ⟨network, department, binds, inside, holds⟩
    have bound : BoundDepartment tables directory user department := ⟨⟨network.id, binds.2.2⟩, inside⟩
    obtain ⟨found, entry, held, listed⟩ := represents.entry ⟨network, binds.1, binds.2.1⟩ (.inr ⟨department, bound⟩)
    exact ⟨found, held, entry, listed, department, (represents.departments held listed department).mpr bound,
      network.segment, (represents.segments held department _).mpr ⟨network, binds, rfl⟩, holds⟩

private theorem checkUserExist_iff :
    checkUserExist info user = true ↔ tables.networks ≠ [] ∧ Restricted tables directory user := by
  simp only [checkUserExist, any_eq_true, Option.any_eq_true]
  constructor
  · rintro ⟨ipType, -, found, held, listed⟩
    obtain ⟨network, mem, -⟩ := (represents.present ipType).mp (by rw [held]; rfl)
    exact ⟨ne_nil_of_mem mem, (represents.users held user).mp (AList.lookup_isSome.mp listed)⟩
  · rintro ⟨nonempty, restricted⟩
    obtain ⟨network, mem⟩ := exists_mem_of_ne_nil _ nonempty
    obtain ⟨found, entry, held, listed⟩ := represents.entry ⟨network, mem, rfl⟩ restricted
    refine ⟨network.ipType, ?_, found, held, by rw [listed]; rfl⟩
    cases network.ipType <;> simp

end OfUser

theorem accessible_eq_true_iff (enabled : info.isEnabled = true) (user : String) (ipType : IpType) (ip : Int) :
    accessible info user ipType ip = true ↔
      user ∈ adminIDs ∨ userNetAllows info user ipType ip = true ∨ departmentNetAllows info user ipType ip = true ∨
        info.noPolicyAccessorEnabled = some true ∧ ¬ checkUserExist info user = true := by
  simp only [accessible, enabled, Bool.or_eq_true, Bool.and_eq_true, decide_eq_true_eq, beq_iff_eq,
    Bool.not_eq_true', Bool.not_eq_true]
  tauto

theorem accessible_of_represents (represents : Represents tables directory info.data)
    (enabled : info.isEnabled = true) (user : String)
    (ipType : IpType) (ip : Int) : accessible info user ipType ip = true ↔
      user ∈ adminIDs ∨ OwnOpens tables user ipType ip ∨ DepartmentOpens tables directory user ipType ip ∨
        info.noPolicyAccessorEnabled = some true ∧ ¬ (tables.networks ≠ [] ∧ Restricted tables directory user) := by
  rw [accessible_eq_true_iff enabled, userNetAllows_iff represents, departmentNetAllows_iff represents,
    checkUserExist_iff represents]

theorem getOPAData_represents (built : getOPAData tables directory true noPolicyEnabled = .ok info) :
    Represents tables directory info.data ∧ info.isEnabled = true ∧
    info.noPolicyAccessorEnabled = some noPolicyEnabled := by
  obtain ⟨data, rebuilt, built⟩ := bind_ok built
  cases built
  exact ⟨getNetworkData_represents rebuilt, rfl, rfl⟩

end

/-! # What patches do to the document

The decision on a user reads the user's entry for each address type and the segments of departments. A
patch changes one entry of its user and nothing else; the patches of an update are those of the two
address types one after the other.
-/

open List AList NetworkInfo

variable (info : NetworkInfo) (patch : OPADataPatch)
variable {departIds : List String} {user : String} {other : String}

/-- The entry of a user for an address type. -/
def NetworkInfo.entry (ipType : IpType) (user : String) : Option UserNetworkInfo :=
  (info.data ipType).bind fun data => data.users.lookup user

/-- The segments of a department for an address type. -/
def NetworkInfo.segments (ipType : IpType) (department : String) : List NetSegment :=
  ((info.data ipType).bind fun data => data.departments.lookup department).getD []

def OPADataPatch.userId : OPADataPatch → String
  | .addDepartments _ userId _ | .addUser _ userId _ | .removeDepartments _ userId | .removeUser _ userId => userId

/-- The entry a patch leaves, from the entry there was and whether there are data of the type. -/
def OPADataPatch.entry (hasData : Bool) (old : Option UserNetworkInfo) : OPADataPatch → Option UserNetworkInfo
  | .addDepartments _ _ departments => old.map fun user => { user with departments }
  | .addUser _ _ departments => if hasData then some { departments } else none
  | .removeDepartments _ _ => old.map fun user => { user with departments := [] }
  | .removeUser _ _ => none

theorem userNetAllows_eq (user : String) (ipType : IpType) (ip : Int) : userNetAllows info user ipType ip =
    (info.entry ipType user).any fun entry => entry.netSegements.any fun segment => segment.contains ip := by
  rw [userNetAllows, entry]
  cases info.data ipType <;> rfl

theorem departmentNetAllows_eq (user : String) (ipType : IpType) (ip : Int) :
    departmentNetAllows info user ipType ip = (info.entry ipType user).any fun entry =>
      entry.departments.any fun department =>
        (info.segments ipType department).any fun segment => segment.contains ip := by
  simp only [departmentNetAllows, entry, segments]
  cases info.data ipType <;> rfl

theorem checkUserExist_eq (user : String) :
    checkUserExist info user = [IpType.ipv4, .ipv6].any fun ipType => (info.entry ipType user).isSome := by
  simp only [checkUserExist, entry]
  congr 1
  funext ipType
  cases info.data ipType <;> rfl

theorem segments_write : (info.write patch).segments = info.segments := by
  funext ipType department
  simp only [segments, write]
  split_ifs
  · cases info.data ipType with
    | none => rfl
    | some data =>
      cases patch with
      | addUser | removeUser => rfl
      | addDepartments ipType' userId | removeDepartments ipType' userId =>
        simp only [Option.map_some, NetworkData.write]
        cases data.users.lookup userId <;> rfl
  · rfl

variable {ipType : IpType}

/-- Other users and other address types keep their entries. -/
theorem entry_write_of_ne (other : ipType ≠ patch.ipType ∨ user ≠ patch.userId) :
    (info.write patch).entry ipType user = info.entry ipType user := by
  simp only [entry, write]
  split_ifs with same
  · replace other := other.resolve_left (not_not.mpr same)
    cases info.data ipType with
    | none => rfl
    | some data =>
      simp only [Option.map_some]
      cases patch with
      | addUser => exact lookup_insert_ne other
      | removeUser => exact lookup_erase_ne other
      | addDepartments ipType' userId | removeDepartments ipType' userId =>
        simp only [NetworkData.write]
        cases data.users.lookup userId with
        | none => rfl
        | some entry => exact lookup_insert_ne other
  · rfl

theorem entry_write : (info.write patch).entry patch.ipType patch.userId =
    patch.entry (info.data patch.ipType).isSome (info.entry patch.ipType patch.userId) := by
  simp only [entry, write]
  cases held : info.data patch.ipType with
  | none => cases patch <;> rfl
  | some data =>
    simp only [Option.map_some, Option.bind_some]
    cases patch with
    | addUser => exact lookup_insert _
    | removeUser => exact lookup_erase _ _
    | addDepartments ipType userId | removeDepartments ipType userId =>
      simp only [NetworkData.write, OPADataPatch.userId]
      cases found : data.users.lookup userId with
      | none => exact found
      | some entry => exact lookup_insert _

section Run

variable {user : String} {patches : List OPADataPatch}

theorem switches_incrementalUpdateData (patches : List OPADataPatch) :
    (incrementalUpdateData info patches).isEnabled = info.isEnabled ∧
    (incrementalUpdateData info patches).noPolicyAccessorEnabled = info.noPolicyAccessorEnabled := by
  induction patches generalizing info with
  | nil => exact ⟨rfl, rfl⟩
  | cons patch rest ih => exact ih (info.write patch)

theorem segments_incrementalUpdateData (patches : List OPADataPatch) :
    (incrementalUpdateData info patches).segments = info.segments := by
  induction patches generalizing info with
  | nil => rfl
  | cons patch rest ih => exact (ih (info.write patch)).trans (segments_write info patch)

theorem entry_incrementalUpdateData_of_ne (other : ∀ patch ∈ patches, ipType ≠ patch.ipType ∨ user ≠ patch.userId) :
    (incrementalUpdateData info patches).entry ipType user = info.entry ipType user := by
  induction patches generalizing info with
  | nil => rfl
  | cons patch rest ih =>
    have later := ih (info.write patch) (forall_mem_cons.mp other).2
    exact later.trans (entry_write_of_ne info patch (other patch (mem_cons_self ..)))

private theorem accessible_incrementalUpdateData_of_ne (foreign : ∀ patch ∈ patches, other ≠ patch.userId)
    (ipType : IpType) (ip : Int) :
    accessible (incrementalUpdateData info patches) other ipType ip = accessible info other ipType ip := by
  obtain ⟨enabled, noPolicy⟩ := switches_incrementalUpdateData info patches
  have entries (ipType : IpType) : (incrementalUpdateData info patches).entry ipType other = info.entry ipType other :=
    entry_incrementalUpdateData_of_ne info fun patch mem => .inr (foreign patch mem)
  simp [accessible, userNetAllows_eq, departmentNetAllows_eq, checkUserExist_eq, enabled, noPolicy,
    segments_incrementalUpdateData, entries]

end Run

/-- The entry an update leaves for an address type, given the bound departments of the type. -/
def patchedEntry (hasOwn nothing hasData : Bool) (ids : List String) (old : Option UserNetworkInfo) :
    Option UserNetworkInfo :=
  if ids ≠ [] then
    if hasOwn then old.map fun user => { user with departments := ids }
    else if hasData then some { departments := ids } else none
  else if nothing then
    if hasOwn then old.map fun user => { user with departments := [] } else none
  else old

section PatchedEntry

variable {hasOwn nothing hasData : Bool} {ids : List String} {old : Option UserNetworkInfo}

theorem any_netSegements_patchedEntry (test : NetSegment → Bool)
    (noNets : hasOwn = false → (old.any fun entry => entry.netSegements.any test) = false) :
    ((patchedEntry hasOwn nothing hasData ids old).any fun entry => entry.netSegements.any test) =
      old.any fun entry => entry.netSegements.any test := by
  unfold patchedEntry
  cases hasOwn with
  | true => cases old <;> split_ifs <;> first | rfl | contradiction
  | false =>
    split_ifs
    all_goals first
      | rfl
      | contradiction
      | exact (noNets rfl).symm

theorem any_departments_patchedEntry (test : String → Bool) (listed : hasOwn = true → ids ≠ [] → old.isSome)
    (loaded : ids ≠ [] → hasData = true) :
    ((patchedEntry hasOwn nothing hasData ids old).any fun entry => entry.departments.any test) =
      if ids = [] ∧ nothing = false then old.any fun entry => entry.departments.any test else ids.any test := by
  unfold patchedEntry
  by_cases empty : ids = []
  · subst empty
    cases nothing <;> cases hasOwn <;> cases old <;> rfl
  · have kept : ¬ (ids = [] ∧ nothing = false) := fun both => empty both.1
    rw [if_pos empty, if_neg kept]
    cases hasOwn with
    | true =>
      obtain ⟨entry, rfl⟩ := Option.isSome_iff_exists.mp (listed rfl empty)
      rfl
    | false =>
      rw [loaded empty]
      rfl

end PatchedEntry

private theorem mem_patchesFor {userId : String} {hasOwn nothing : Bool} {ids : List String} {patch : OPADataPatch}
    (mem : patch ∈ patchesFor userId hasOwn nothing ipType ids) : patch.ipType = ipType ∧ patch.userId = userId := by
  unfold patchesFor at mem
  split_ifs at mem
  all_goals first
    | exact absurd mem not_mem_nil
    | (obtain rfl := mem_singleton.mp mem; exact ⟨rfl, rfl⟩)

section

variable (tables : NetworkTables) (userId : String) (hasOwn : Bool) (ids : IpType → List String)

private theorem entry_patchesFor (hasOwn nothing : Bool) (ipType : IpType) (ids : List String) :
    (incrementalUpdateData info (patchesFor userId hasOwn nothing ipType ids)).entry ipType userId =
      patchedEntry hasOwn nothing (info.data ipType).isSome ids (info.entry ipType userId) := by
  unfold patchesFor patchedEntry
  split_ifs with chosen own present
  · exact entry_write info (.addDepartments ipType userId ids)
  · exact (entry_write info (.addUser ipType userId ids)).trans (if_pos present)
  · exact (entry_write info (.addUser ipType userId ids)).trans (if_neg present)
  · exact entry_write info (.removeDepartments ipType userId)
  · exact entry_write info (.removeUser ipType userId)
  · rfl

theorem isSome_data_incrementalUpdateData (patches : List OPADataPatch) (ipType : IpType) :
    ((incrementalUpdateData info patches).data ipType).isSome = (info.data ipType).isSome := by
  induction patches generalizing info with
  | nil => rfl
  | cons patch rest ih =>
    refine (ih (info.write patch)).trans ?_
    simp only [write]
    split_ifs
    · rw [Option.isSome_map]
    · rfl

/-- Neither address type has a bound department. -/
def noneBound : Bool := (ids .ipv4).isEmpty && (ids .ipv6).isEmpty

theorem noneBound_iff : noneBound ids = true ↔ ∀ ipType, ids ipType = [] := by
  rw [noneBound, Bool.and_eq_true, List.isEmpty_iff, List.isEmpty_iff]
  constructor
  · rintro ⟨none4, none6⟩ (_ | _)
    · exact none4
    · exact none6
  · exact fun none => ⟨none _, none _⟩

/-- The patches of both address types. -/
def updatePatches : List OPADataPatch :=
  patchesFor userId hasOwn (noneBound ids) .ipv4 (ids .ipv4) ++
    patchesFor userId hasOwn (noneBound ids) .ipv6 (ids .ipv6)

theorem entry_updatePatches (ipType : IpType) :
    (incrementalUpdateData info (updatePatches userId hasOwn ids)).entry ipType userId =
      patchedEntry hasOwn (noneBound ids) (info.data ipType).isSome (ids ipType) (info.entry ipType userId) := by
  have others {ipType' : IpType} (differ : ipType ≠ ipType') (patch : OPADataPatch)
      (mem : patch ∈ patchesFor userId hasOwn (noneBound ids) ipType' (ids ipType')) :
      ipType ≠ patch.ipType ∨ userId ≠ patch.userId := by
    rw [(mem_patchesFor mem).1]
    exact .inl differ
  rw [incrementalUpdateData, updatePatches, foldl_append]
  cases ipType with
  | ipv4 =>
    exact (entry_incrementalUpdateData_of_ne _ (others (by decide))).trans (entry_patchesFor info ..)
  | ipv6 =>
    refine (entry_patchesFor (incrementalUpdateData info _) ..).trans ?_
    rw [isSome_data_incrementalUpdateData, entry_incrementalUpdateData_of_ne _ (others (by decide))]

/-- Some path has a department, or another id, with a relation. -/
def Triggered (departmentPaths : List (List String)) : Prop :=
  ∃ path ∈ departmentPaths, ∃ relation ∈ tables.relations, relation.accessorId ∈ path

/-- A department relation whose network is gone. -/
def Dangling : Prop :=
  ∃ id department, tables.Relates .department id department ∧ ∀ network ∈ tables.networks, network.id ≠ id

end

variable {department : String}

theorem exists_network_of_not_dangling {tables : NetworkTables} (complete : ¬ Dangling tables) {id : String}
    (related : tables.Relates .department id department) : ∃ network ∈ tables.networks, network.id = id := by
  by_contra gone
  exact complete ⟨id, department, related, fun network mem same => gone ⟨network, mem, same⟩⟩

private theorem mem_departmentRelations (tables : NetworkTables) (department : String) (ipType : IpType) :
    (department, some ipType) ∈ departmentRelations tables ↔
    ∃ network, tables.Binds .department ipType department network := by
  simp only [departmentRelations, mem_map, mem_getNetsByType, Prod.mk.injEq, Option.map_eq_some_iff]
  constructor
  · rintro ⟨relation, ⟨-, related⟩, rfl, network, found, rfl⟩
    have same : network.id = relation.networkId := by simpa using find?_some found
    exact ⟨network, mem_of_find?_eq_some found, rfl, same ▸ related⟩
  · rintro ⟨network, mem, rfl, related⟩
    refine ⟨⟨network.id, department, .department⟩, ⟨rfl, related⟩, rfl, network, ?_, rfl⟩
    refine find?_of_unique mem (decide_eq_true rfl) fun other isOther same => ?_
    exact inj_on_of_nodup_map tables.nodup isOther mem (of_decide_eq_true same)

private theorem dangling_iff (tables : NetworkTables) :
    Dangling tables ↔ ∃ department, (department, none) ∈ departmentRelations tables := by
  simp only [departmentRelations, mem_map, mem_getNetsByType, Prod.mk.injEq, Option.map_eq_none_iff,
    find?_eq_none, decide_eq_true_eq]
  constructor
  · rintro ⟨id, department, related, gone⟩
    exact ⟨department, ⟨id, department, .department⟩, ⟨rfl, related⟩, rfl, gone⟩
  · rintro ⟨_, relation, ⟨-, related⟩, rfl, gone⟩
    exact ⟨relation.networkId, relation.accessorId, related, gone⟩

/-- The scan fails at the first missing address type and returns the rows otherwise. -/
theorem scanRelations_spec (rows : List (String × Option IpType)) :
    (∃ department, (department, none) ∈ rows) ∧ (∃ failure, scanRelations rows = .error failure) ∨
      (¬ ∃ department, (department, none) ∈ rows) ∧ ∃ scanned, scanRelations rows = .ok scanned ∧
        ∀ department ipType, (department, ipType) ∈ scanned ↔ (department, some ipType) ∈ rows := by
  induction rows with
  | nil => exact .inr ⟨by simp, [], rfl, by simp⟩
  | cons row rest ih =>
    obtain ⟨department, ipType⟩ := row
    rw [scanRelations, mapM_cons]
    cases ipType with
    | none => exact .inl ⟨⟨department, mem_cons_self ..⟩, _, rfl⟩
    | some ipType =>
      rcases ih with ⟨⟨missing, mem⟩, failure, failed⟩ | ⟨complete, scanned, done, listed⟩
      · rw [scanRelations] at failed
        refine .inl ⟨⟨missing, mem_cons_of_mem _ mem⟩, failure, ?_⟩
        simp [failed]
      · rw [scanRelations] at done
        refine .inr ⟨?_, (department, ipType) :: scanned, ?_, ?_⟩
        · rintro ⟨missing, mem⟩
          exact complete ⟨missing, by simpa using mem⟩
        · simp only [done]
          rfl
        · simp [listed]

section Update

variable {tables : NetworkTables} {directory : Directory} {userId : String} {departmentPaths : List (List String)}

private theorem updateInfo_iff (tables : NetworkTables) (departmentPaths : List (List String)) :
    (departmentPaths.any fun path => tables.relations.any fun relation => decide (relation.accessorId ∈ path)) = true ↔
      Triggered tables departmentPaths := by
  simp [Triggered]

theorem update_of_not_triggered (unbound : ¬ Triggered tables departmentPaths) :
    updateUserDepartmentRelation tables directory userId departmentPaths = .ok [] := by
  rw [updateUserDepartmentRelation, if_neg (mt (updateInfo_iff tables departmentPaths).mp unbound)]
  rfl

theorem update_of_dangling (triggered : Triggered tables departmentPaths) (dangling : Dangling tables) :
    ∃ failure, updateUserDepartmentRelation tables directory userId departmentPaths = .error failure := by
  rw [updateUserDepartmentRelation, if_pos ((updateInfo_iff tables departmentPaths).mpr triggered)]
  rcases scanRelations_spec (departmentRelations tables) with ⟨-, failure, failed⟩ | ⟨complete, -⟩
  · exact ⟨failure, by rw [failed]; rfl⟩
  · exact absurd ((dangling_iff tables).mp dangling) complete

private theorem mem_departmentsOf {relations : List (String × IpType)} : department ∈ (relations.flatMap fun relation =>
        (departIds.filter fun value => relation.2 = ipType ∧ relation.1 = value).map fun _ => relation.1) ↔
      (department, ipType) ∈ relations ∧ department ∈ departIds := by
  simp only [mem_flatMap, mem_map, mem_filter, decide_eq_true_eq]
  constructor
  · rintro ⟨relation, mem, value, ⟨inside, rfl, rfl⟩, rfl⟩
    exact ⟨mem, inside⟩
  · rintro ⟨mem, inside⟩
    exact ⟨(department, ipType), mem, department, ⟨inside, rfl, rfl⟩, rfl⟩

/-- A triggered update without dangling relations: the bound departments of each type, as patches. -/
theorem update_of_triggered (belongs : directory.getBelongDepartByUserId userId = .ok departIds)
    (triggered : Triggered tables departmentPaths) (complete : ¬ Dangling tables) :
    (∀ id department, ¬ tables.Relates .department id department) ∧
        updateUserDepartmentRelation tables directory userId departmentPaths = .ok [] ∨
      ∃ (hasOwn : Bool) (ids : IpType → List String), (hasOwn = true ↔
        ∃ relation ∈ tables.relations, relation.accessorId = userId) ∧
        (∀ ipType department, department ∈ ids ipType ↔
          (∃ network, tables.Binds .department ipType department network) ∧ department ∈ departIds) ∧
        updateUserDepartmentRelation tables directory userId departmentPaths =
          .ok (updatePatches userId hasOwn ids) := by
  rw [updateUserDepartmentRelation, if_pos ((updateInfo_iff tables departmentPaths).mpr triggered)]
  rcases scanRelations_spec (departmentRelations tables) with ⟨missing, -⟩ | ⟨-, scanned, done, listed⟩
  · exact absurd ((dangling_iff tables).mpr missing) complete
  rw [done]
  cases scanned with
  | nil =>
    refine .inl ⟨fun id department related => ?_, rfl⟩
    -- the network of the relation exists, so the scan would list the department
    obtain ⟨network, mem, rfl⟩ := exists_network_of_not_dangling complete related
    have bound := (mem_departmentRelations tables department network.ipType).mpr ⟨network, mem, rfl, related⟩
    exact not_mem_nil ((listed department network.ipType).mpr bound)
  | cons first rest =>
    refine .inr ⟨tables.relations.any fun relation => decide (relation.accessorId = userId),
      fun ipType => (first :: rest).flatMap fun relation =>
        (departIds.filter fun value => relation.2 = ipType ∧ relation.1 = value).map fun _ => relation.1, ?_, ?_, ?_⟩
    · simp only [any_eq_true, decide_eq_true_eq]
    · intro ipType department
      rw [← mem_departmentRelations, ← listed]
      exact mem_departmentsOf
    · simp only [belongs]
      rfl

theorem userId_of_update {patches : List OPADataPatch}
    (ran : updateUserDepartmentRelation tables directory userId departmentPaths = .ok patches)
    {patch : OPADataPatch} (mem : patch ∈ patches) : patch.userId = userId := by
  obtain ⟨relations, -, ran⟩ := bind_ok ran
  split at ran
  · cases ran
    cases mem
  · obtain ⟨departIds, -, ran⟩ := bind_ok ran
    cases ran
    exact (mem_append.mp mem).elim (fun left => (mem_patchesFor left).2) fun right => (mem_patchesFor right).2

theorem accessible_incrementalUpdatePolicy_of_ne (foreign : other ≠ userId) (ipType : IpType) (ip : Int) :
    accessible (incrementalUpdatePolicy tables directory userId departmentPaths info) other ipType ip =
      accessible info other ipType ip := by
  rw [incrementalUpdatePolicy]
  split
  case h_1 patches ran =>
    exact accessible_incrementalUpdateData_of_ne info (fun patch mem =>
      (userId_of_update ran mem).symm ▸ foreign) ipType ip
  case h_2 => rfl

end Update

end SecurityFabric.PolicyManagement
