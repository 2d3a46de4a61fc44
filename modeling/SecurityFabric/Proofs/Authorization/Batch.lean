import SecurityFabric.Proofs.Authorization.PolicyCalc

/-! # What the batch entry points decide

A batch keeps its maps by bare resource id. This module reads the maps back: `lastWithID` is the
resource that survives under an id, `belowWord` the word of a level below `*`, and `filterWord` and
`operationWord` the word stored under a key once the whole-type level has been entered under the
synthetic keys. Both entry points then answer by the walk over the levels of the surviving resource.
-/

namespace SecurityFabric.Authorization

open List GoMap

section

section

variable (resources : List ResourceInfo) (accessor : AccessorInfo) (level : String) (id : String)

/-- Of the requested resources with an id, the last, which the maps keep. -/
def lastWithID : Option ResourceInfo :=
  resources.reverse.find? fun resource => resource.id = id

/-- The type the shared query asks for. -/
def batchType : String := (resources.head?.map (·.type)).getD ""

/-- The ids below `*` the shared query asks for. -/
def askedIDs : List String := (resources.flatMap createAncestorsResource).map (·.id)

/-- The data the conditions of a level below `*` see in a batch. -/
def batchData : Option Json :=
  match lastWithID resources level with
  | some resource => some (makeDataInfo resource accessor)
  | none => some (.obj [])

end

section Words

variable (svc : Services) (table : PolicyTable) (now : Int) (tokens : List String) (accessor : AccessorInfo)
  (resources : List ResourceInfo)

/-- The word of a level below `*` in a batch. -/
def belowWord (level op : String) : Option Bool :=
  if level ≠ "*" ∧ level ∈ askedIDs resources then
    mention svc (batchData resources accessor level) (atLevel table now (batchType resources) tokens level) op
  else none

/-- The word under a key once the whole-type level is entered: synthetic keys replace levels. -/
def filterWord (key op : String) : Option Bool :=
  match resources.reverse.find? fun resource => typeKey resource = key with
  | some resource =>
    mention svc (requestData resource accessor) (atLevel table now (batchType resources) tokens "*") op
  | none => belowWord svc table now tokens accessor resources key op

/-- Listing operations enters the whole-type level only when it has policies. -/
def operationWord (key op : String) : Option Bool :=
  if (atLevel table now (batchType resources) tokens "*").isEmpty then
    belowWord svc table now tokens accessor resources key op
  else filterWord svc table now tokens accessor resources key op

end Words

/-- The walk a batch makes for an id: over the levels of the resource that survives under it. -/
def batchVerdict (word : String → String → Option Bool) (resources : List ResourceInfo) (id op : String) :
    Option Bool :=
  nearest word (walkIDs calcResourceID (((lastWithID resources id).map createAncestorsResource).getD [])) op

variable {svc : Services} {table : PolicyTable} {now : Int} {accessor : AccessorInfo} {tokens : List String}
  {resources : List ResourceInfo}

private theorem head_flatMap_createAncestorsResource :
    ∀ first ∈ (resources.flatMap createAncestorsResource).head?, first.type = batchType resources := by
  cases resources with
  | nil => simp
  | cons resource rest =>
    intro first mem
    have own : first ∈ (createAncestorsResource resource).head? := by
      cases created : createAncestorsResource resource with
      | nil => simp [createAncestorsResource] at created
      | cons head tail => simpa [created] using mem
    exact head_createAncestorsResource_type resource first own

private theorem Batch.levelData_eq (batch : Batch) (accessor : AccessorInfo) (level : String)
    (kept : batch.resourceDataMap.lookup level = lastWithID resources level) :
    batch.levelData accessor level = batchData resources accessor level := by
  rw [Batch.levelData, kept]
  rfl

/-- Collecting a batch succeeds, and its maps are read back by `lastWithID` and the levels in force. -/
theorem collectBatch_spec (table : PolicyTable) (now : Int) (resources : List ResourceInfo) (held : tokens ≠ [])
    (nonempty : resources ≠ []) : ∃ batch, collectBatch table now resources tokens = .ok batch ∧
      (∀ id, batch.resourceTmpMap.lookup id = (lastWithID resources id).map createAncestorsResource) ∧
      (∀ svc accessor level op, ((batch.levelPerms svc accessor).lookup level |>.getD .zero).mention op =
          belowWord svc table now tokens accessor resources level op) ∧
      batch.typePolicies = (atLevel table now (batchType resources) tokens "*").map PolicyInfo.selected := by
  obtain ⟨policies, queried⟩ := getPoliciesByResources_ok table now held (resources.flatMap createAncestorsResource)
  simp only [collectBatch, queried]
  refine ⟨_, rfl, ?_, ?_, ?_⟩
  · simp [lookup_assign, lastWithID]
  · intro svc accessor level op
    have survivor : (assign (·.id) id resources ∅).lookup level = lastWithID resources level := by
      simp [lookup_assign, lastWithID]
    rw [Batch.levelPerms, mention_calcEach, Batch.levelData_eq _ accessor level survivor, belowWord, filter_filter]
    generalize isHere : policies.filter _ = here
    split_ifs with below
    · obtain rfl : here = (atLevel table now (batchType resources) tokens level).map PolicyInfo.selected := by
        rw [← isHere, ← filter_getPoliciesByResources head_flatMap_createAncestorsResource held queried (.inr below.2)]
        apply filter_congr
        intro policy _
        by_cases same : policy.resourceID = level
        · simp [same, below.1]
        · simp [same]
      rw [mention_map_selected]
    · obtain rfl : here = [] := by
        rw [← isHere, filter_eq_nil_iff]
        intro policy mem kept
        simp only [Bool.and_eq_true, decide_eq_true_eq] at kept
        obtain ⟨rfl, notWhole⟩ := kept
        rcases resourceID_of_getPoliciesByResources held queried mem with whole | asked
        · exact notWhole whole
        · exact below ⟨notWhole, asked⟩
      rw [mention_nil]
  · exact filter_getPoliciesByResources head_flatMap_createAncestorsResource held queried
      (.inl ⟨rfl, by
        obtain ⟨resource, rest, rfl⟩ := exists_cons_of_ne_nil nonempty
        simp [createAncestorsResource]⟩)

/-- Entering the whole-type level under the synthetic keys gives `filterWord`. -/
theorem mention_addTypePerms {batch : Batch} {op : String}
    (below : ∀ level, (((batch.levelPerms svc accessor).lookup level).getD .zero).mention op =
      belowWord svc table now tokens accessor resources level op)
    (whole : batch.typePolicies = (atLevel table now (batchType resources) tokens "*").map PolicyInfo.selected)
    (key : String) :
    (((batch.addTypePerms svc accessor resources (batch.levelPerms svc accessor)).lookup key).getD .zero).mention op =
      filterWord svc table now tokens accessor resources key op := by
  rw [Batch.addTypePerms, lookup_assign, filterWord]
  cases resources.reverse.find? fun resource => typeKey resource = key with
  | none => simpa using below key
  | some resource =>
    simp only [Option.map_some, Option.some_or, Option.getD_some]
    rw [mention_calcOneResourcePerm, whole, mention_map_selected]

/-- The filter keeps a resource exactly when its batch verdict allows every operation, and lists
exactly the operations the verdict allows. -/
theorem resourceFilter_spec (table : PolicyTable) (now : Int) (found : getAccessorIDs svc accessor = .ok tokens)
    (nonempty : resources ≠ []) (operation : List String) (includes : List PolicCalcyIncludeType) :
    ∃ filtered, resourceFilter svc table now resources accessor operation includes = .ok filtered ∧
      ∀ resource ∈ resources, (resource ∈ filtered.result ↔ ∀ op ∈ operation,
          batchVerdict (filterWord svc table now tokens accessor resources) resources resource.id op = some true) ∧
        (resource ∈ filtered.result → ∀ op, op ∈ (filtered.resourceOperationMap.lookup resource.id).getD [] ↔
          batchVerdict (filterWord svc table now tokens accessor resources) resources resource.id op = some true) := by
  obtain ⟨batch, collected, levelsOf, below, whole⟩ :=
    collectBatch_spec table now resources (getAccessorIDs_ne_nil found) nonempty
  have decided (id op : String) : (calcResourceInheritedOperationEx ((batch.resourceTmpMap.lookup id).getD [])
        (batch.addTypePerms svc accessor resources (batch.levelPerms svc accessor))).decision op =
      batchVerdict (filterWord svc table now tokens accessor resources) resources id op := by
    rw [calcResourceInheritedOperationEx, decision_inheritedOperation, levelsOf]
    exact nearest_congr fun key _ => mention_addTypePerms (below svc accessor · op) whole key
  simp only [resourceFilter, List.isEmpty_iff, nonempty, found, collected, bind, Except.bind]
  refine ⟨_, rfl, fun resource mem => ⟨?_, ?_⟩⟩
  · rw [List.mem_filter, InheritedOperation.allows_iff]
    simp [decided, mem]
  · intro kept op
    obtain ⟨other, -, same, last⟩ := exists_last ResourceInfo.id kept
    rw [lookup_assign, last]
    simp only [Option.map_some, Option.some_or, Option.getD_some, ← AList.mem_keys]
    rw [InheritedOperation.mem_allowMap_iff, same, decided]

/-- The operations of a resource type within the scope that fits a resource id. -/
def InScope (svc : Services) (type resourceID op : String) : Prop :=
  ∃ operation ∈ (((getByIDsInternal svc [type]).lookup type).getD { id := "", operation := [] }).operation,
    operation.id = op ∧ (if resourceID = "*" then OperationScopeType.scopeType else .scopeInstance) ∈ operation.scope

private theorem checkOperationScope_iff (svc : Services) (type resourceID op : String) :
    checkOperationScope resourceID op
    (getTypeAndInstanceOperation (((getByIDsInternal svc [type]).lookup type).getD { id := "", operation := [] })).1
      (getTypeAndInstanceOperation (((getByIDsInternal svc [type]).lookup type).getD { id := "", operation := [] })).2 =
        true ↔ InScope svc type resourceID op := by
  simp only [checkOperationScope, InScope]
  split_ifs with whole
  · rw [getTypeAndInstanceOperation]
    simp [and_comm, and_assoc]
  · rw [getTypeAndInstanceOperation]
    simp [and_comm, and_assoc]

/-- The operations listed for a resource are those its batch verdict allows, within the scope of the
first resource's type. -/
theorem getResourceOperation_spec (table : PolicyTable) (now : Int) (found : getAccessorIDs svc accessor = .ok tokens)
    (nonempty : resources ≠ []) :
    ∃ operations obligations, getResourceOperation svc table now resources accessor = .ok (operations, obligations) ∧
      ∀ resource ∈ resources, ∀ op, op ∈ (operations.lookup resource.id).getD [] ↔
        batchVerdict (operationWord svc table now tokens accessor resources) resources resource.id op = some true ∧
          InScope svc (batchType resources) resource.id op := by
  obtain ⟨batch, collected, levelsOf, below, whole⟩ :=
    collectBatch_spec table now resources (getAccessorIDs_ne_nil found) nonempty
  have decided (id op : String) : (calcResourceInheritedOperationEx ((batch.resourceTmpMap.lookup id).getD [])
        (if batch.typePolicies.isEmpty then batch.levelPerms svc accessor
          else batch.addTypePerms svc accessor resources (batch.levelPerms svc accessor))).decision op =
      batchVerdict (operationWord svc table now tokens accessor resources) resources id op := by
    rw [calcResourceInheritedOperationEx, decision_inheritedOperation, levelsOf]
    apply nearest_congr
    intro key _
    rw [operationWord, whole, isEmpty_map]
    split_ifs with empty
    · exact below svc accessor key op
    · exact mention_addTypePerms (below svc accessor · op) whole key
  cases resources with
  | nil => contradiction
  | cons first rest =>
    simp only [getResourceOperation, found, collected, bind, Except.bind]
    refine ⟨_, _, rfl, fun resource mem op => ?_⟩
    obtain ⟨other, -, same, last⟩ := exists_last ResourceInfo.id mem
    rw [lookup_assign, last]
    simp only [Option.map_some, Option.some_or, Option.getD_some, List.mem_filter, ← AList.mem_keys]
    rw [InheritedOperation.mem_allowMap_iff, same, decided, checkOperationScope_iff]
    rfl

end

/-! # When the resources of a batch do not interfere

Two requested resources can meet in the shared query, which asks for one type only, and in the maps keyed by bare ids:
under a common id, the id of another's `ancestor/*` level, another's synthetic `id_*` key, or the empty id with which
every walk is padded. `NoInterference` rules this out, and then each resource gets the verdict of its own levels, most
of which see empty data.
-/

variable {resource : ResourceInfo}

/-- No two resources of a batch meet under one key with different meanings. -/
structure NoInterference (resources : List ResourceInfo) : Prop where
  sameType : ∀ first ∈ resources, ∀ second ∈ resources, first.type = second.type
  sameLevels : ∀ first ∈ resources, ∀ second ∈ resources, first.id = second.id →
    (levels first).eraseDups = (levels second).eraseDups
  sameCreator : ∀ first ∈ resources, ∀ second ∈ resources, first.id = second.id → first.id ≠ "*" →
    first.createdBy = second.createdBy
  notLevel : ∀ first ∈ resources, ∀ second ∈ resources, first.id ≠ second.id → second.id ∉ inheritedLevels first
  notTypeKey : ∀ first ∈ resources, ∀ second ∈ resources, second.id ≠ "*" → first.id ≠ second.id ++ "_*"
  notEmpty : ∀ first ∈ resources, ∀ second ∈ resources, second.id = "" → first.id = ""

/-- The data a level of a resource submitted alone sees: that of the request at the resource and at
the whole type, and an empty map in between. -/
def filterData (resource : ResourceInfo) (accessor : AccessorInfo) (level : String) : Option Json :=
  if level = resource.id ∨ level = "*" then requestData resource accessor else some (.obj [])

variable {level : String}

section Keys

private theorem calcResourceID_ne {text id : String} (shorter : text.length < id.length + 2) :
    text ≠ calcResourceID id := by
  intro same
  have length := congrArg String.length same
  rw [calcResourceID, String.length_append, show "_*".length = 2 from rfl] at length
  omega

theorem calcResourceID_ne_star (id : String) : "*" ≠ calcResourceID id :=
  calcResourceID_ne (Nat.succ_lt_succ (Nat.succ_pos _))

theorem inheritedLevel_ne_star (mem : level ∈ inheritedLevels resource) : level ≠ "*" := by
  rintro rfl
  simp only [inheritedLevels, mem_reverse, mem_map] at mem
  obtain ⟨ancestor, _, same⟩ := mem
  have length := congrArg String.length same
  rw [String.length_append, show "/*".length = 2 from rfl, show "*".length = 1 from rfl] at length
  omega

private theorem inheritedLevel_ne_calcResourceID (mem : level ∈ inheritedLevels resource) (id : String) :
    level ≠ calcResourceID id := by
  rintro rfl
  simp only [inheritedLevels, mem_reverse, mem_map] at mem
  obtain ⟨ancestor, _, same⟩ := mem
  have lists := congrArg String.toList same
  simp only [calcResourceID, String.toList_append] at lists
  have suffix := (append_inj' lists rfl).2
  exact absurd suffix (by decide)

private theorem typeKey_ne_inheritedLevel (mem : level ∈ inheritedLevels resource) (other : ResourceInfo) :
    typeKey other ≠ level := by
  rw [typeKey]
  split_ifs
  · exact (inheritedLevel_ne_star mem).symm
  · exact (inheritedLevel_ne_calcResourceID mem other.id).symm

theorem typeKey_ne_empty (resource : ResourceInfo) : typeKey resource ≠ "" := by
  rw [typeKey]
  split_ifs
  · decide
  · exact (@calcResourceID_ne "" _ (Nat.succ_pos _)).symm

end Keys

variable {svc : Services} {table : PolicyTable} {now : Int} {accessor : AccessorInfo} {tokens : List String}
  {resources : List ResourceInfo}

theorem mem_of_lastWithID {id : String} (found : lastWithID resources id = some resource) :
    resource ∈ resources ∧ resource.id = id :=
  ⟨mem_reverse.mp (mem_of_find?_eq_some found), by simpa using find?_some found⟩

theorem exists_lastWithID (mem : resource ∈ resources) :
    ∃ last, lastWithID resources resource.id = some last ∧ last ∈ resources ∧ last.id = resource.id := by
  obtain ⟨last, present, same, found⟩ := exists_last ResourceInfo.id mem
  exact ⟨last, found, present, same⟩

theorem find_typeKey_eq_none {key : String} (absent : ∀ resource ∈ resources, typeKey resource ≠ key) :
    (resources.reverse.find? fun resource => typeKey resource = key) = none := by
  rw [find?_eq_none]
  intro resource mem same
  exact absent resource (mem_reverse.mp mem) (by simpa using same)

/-- The level of a resource or one it inherits from is not the key of a type. -/
theorem find_typeKey_of_inside {last : ResourceInfo}
    (apart : ∀ other ∈ resources, other.id ≠ "*" → last.id ≠ other.id ++ "_*")
    (inside : level = last.id ∨ level ∈ inheritedLevels last) (below : level ≠ "*") :
    (resources.reverse.find? fun resource => typeKey resource = level) = none := by
  apply find_typeKey_eq_none
  intro other otherMem keys
  rcases inside with rfl | inherited
  · rw [typeKey] at keys
    split_ifs at keys with whole
    · exact below keys.symm
    · exact apart other otherMem whole keys.symm
  · exact typeKey_ne_inheritedLevel inherited other keys

theorem mem_askedIDs :
    level ∈ askedIDs resources ↔ ∃ resource ∈ resources, level = resource.id ∨ level ∈ inheritedLevels resource := by
  simp only [askedIDs, map_flatMap, mem_flatMap, map_id_createAncestorsResource, mem_append, mem_reverse, mem_singleton]
  exact exists_congr fun resource => and_congr_right fun _ => or_comm

theorem batchType_eq (calm : NoInterference resources) (mem : resource ∈ resources) :
    batchType resources = resource.type := by
  cases resources with
  | nil => cases mem
  | cons first rest => exact calm.sameType first mem_cons_self resource mem

private theorem belowWord_empty (named : ∀ resource ∈ resources, resource.id ≠ "") (op : String) :
    belowWord svc table now tokens accessor resources "" op = none := by
  rw [belowWord, if_neg]
  rintro ⟨_, asked⟩
  obtain ⟨resource, mem, here | inherited⟩ := mem_askedIDs.mp asked
  · exact named resource mem here.symm
  · exact named resource mem ((empty_mem_levels_iff resource).mp (by simp [levels, inherited]))

theorem filterWord_empty (named : ∀ resource ∈ resources, resource.id ≠ "") (op : String) :
    filterWord svc table now tokens accessor resources "" op = none := by
  rw [filterWord, find_typeKey_eq_none (fun other _ => typeKey_ne_empty other)]
  exact belowWord_empty named op

section Calm

variable (calm : NoInterference resources) {resource last : ResourceInfo} (mem : resource ∈ resources)
  (present : last ∈ resources) (same : last.id = resource.id)
include calm mem present same

private theorem makeDataInfo_of_sameID (named : resource.id ≠ "*") :
    makeDataInfo last accessor = makeDataInfo resource accessor := by
  rw [makeDataInfo, makeDataInfo, calm.sameCreator last present resource mem same (same ▸ named)]

private theorem requestData_of_sameID : requestData last accessor = requestData resource accessor := by
  rw [requestData, requestData, same]
  split_ifs with whole
  · rfl
  · rw [makeDataInfo_of_sameID calm mem present same whole]

/-- Below `*`, every level of the surviving resource speaks with the data of the resource alone. -/
theorem belowWord_level {op : String} (inside : level = last.id ∨ level ∈ inheritedLevels last) (below : level ≠ "*") :
    belowWord svc table now tokens accessor resources level op =
      levelWord svc table now resource.type tokens (filterData resource accessor) level op := by
  rw [belowWord, if_pos ⟨below, mem_askedIDs.mpr ⟨last, present, inside⟩⟩, batchType_eq calm mem]
  congr 1
  rw [batchData, filterData]
  cases found : lastWithID resources level with
  | none =>
    have foreign : level ≠ resource.id := by
      rintro rfl
      obtain ⟨survivor, kept, _⟩ := exists_lastWithID mem
      rw [found] at kept
      cases kept
    rw [if_neg (by simp [foreign, below])]
  | some other =>
    obtain ⟨otherMem, otherID⟩ := mem_of_lastWithID found
    have own : level = resource.id := by
      rcases inside with rfl | inherited
      · exact same
      · by_contra foreign
        refine calm.notLevel last present other otherMem ?_ (otherID ▸ inherited)
        exact fun equal => foreign (otherID ▸ equal ▸ same)
    change some (makeDataInfo other accessor) = _
    rw [if_pos (.inl own), requestData, if_neg (own ▸ below),
      makeDataInfo_of_sameID calm mem otherMem (otherID.trans own) (own ▸ below)]

private theorem filterWord_whole (op : String) : filterWord svc table now tokens accessor resources (typeKey last) op =
    levelWord svc table now resource.type tokens (filterData resource accessor) "*" op := by
  obtain ⟨other, otherMem, keys, found⟩ := exists_last typeKey present
  have otherID : other.id = resource.id := by
    simp only [typeKey] at keys
    split_ifs at keys with one two two
    · rw [one, ← same, two]
    · exact absurd keys (calcResourceID_ne_star last.id)
    · exact absurd keys.symm (calcResourceID_ne_star other.id)
    · have lists := congrArg String.toList keys
      simp only [calcResourceID, String.toList_append, append_cancel_right_eq] at lists
      rw [String.toList_injective lists, same]
  rw [filterWord, found]
  simp only [levelWord, filterData, or_true, ↓reduceIte]
  rw [batchType_eq calm mem, requestData_of_sameID calm mem otherMem otherID]

private theorem filterWord_below {op : String} (inside : level = last.id ∨ level ∈ inheritedLevels last)
    (below : level ≠ "*") : filterWord svc table now tokens accessor resources level op =
      levelWord svc table now resource.type tokens (filterData resource accessor) level op := by
  rw [filterWord, find_typeKey_of_inside (calm.notTypeKey last present) inside below,
    belowWord_level calm mem present same inside below]

end Calm

/-- Without interference the filter's verdict is that of the resource's own levels. -/
theorem batchVerdict_filterWord (calm : NoInterference resources) (mem : resource ∈ resources) (op : String) :
    batchVerdict (filterWord svc table now tokens accessor resources) resources resource.id op =
      verdict svc table now resource.type tokens (filterData resource accessor) (levels resource) op := by
  obtain ⟨last, kept, present, same⟩ := exists_lastWithID mem
  rw [batchVerdict, kept, Option.map_some, verdict, ← nearest_eraseDups (levels resource),
    ← calm.sameLevels last present resource mem same, nearest_eraseDups]
  apply nearest_walkIDs_eq_levels
  · intro named
    exact filterWord_empty (fun other otherMem empty =>
      named (calm.notEmpty last present other otherMem empty)) op
  · by_cases whole : last.id = "*"
    · have key : typeKey last = last.id := by rw [typeKey, if_pos whole, whole]
      rw [← key, filterWord_whole calm mem present same, key, whole]
    · exact filterWord_below calm mem present same (.inl rfl) whole
  · intro level inherited
    exact filterWord_below calm mem present same (.inr inherited) (inheritedLevel_ne_star inherited)
  · intro named
    have key : typeKey last = calcResourceID last.id := by rw [typeKey, if_neg named]
    rw [← key, filterWord_whole calm mem present same]

/-- Without interference the verdict behind the listed operations is the same one. -/
theorem batchVerdict_operationWord (calm : NoInterference resources) (mem : resource ∈ resources) (op : String) :
    batchVerdict (operationWord svc table now tokens accessor resources) resources resource.id op =
      verdict svc table now resource.type tokens (filterData resource accessor) (levels resource) op := by
  by_cases empty : (atLevel table now (batchType resources) tokens "*").isEmpty = true
  · obtain ⟨last, kept, present, same⟩ := exists_lastWithID mem
    have silent : levelWord svc table now resource.type tokens (filterData resource accessor) "*" op = none := by
      rw [levelWord, ← batchType_eq calm mem, isEmpty_iff.mp empty, mention_nil]
    have word (key : String) : operationWord svc table now tokens accessor resources key op =
        belowWord svc table now tokens accessor resources key op := by rw [operationWord, if_pos empty]
    rw [batchVerdict, kept, Option.map_some, verdict, ← nearest_eraseDups (levels resource),
      ← calm.sameLevels last present resource mem same, nearest_eraseDups]
    apply nearest_walkIDs_eq_levels
    · intro named
      rw [word]
      exact belowWord_empty (fun other otherMem empty =>
        named (calm.notEmpty last present other otherMem empty)) op
    · rw [word]
      by_cases whole : last.id = "*"
      · rw [whole, silent, belowWord, if_neg (by simp)]
      · exact belowWord_level calm mem present same (.inl rfl) whole
    · intro level inherited
      rw [word]
      exact belowWord_level calm mem present same (.inr inherited) (inheritedLevel_ne_star inherited)
    · intro named
      rw [word, silent, belowWord, if_neg]
      rintro ⟨_, asked⟩
      obtain ⟨other, otherMem, here | inherited⟩ := mem_askedIDs.mp asked
      · exact calm.notTypeKey other otherMem last present named here.symm
      · exact inheritedLevel_ne_calcResourceID inherited last.id rfl
  · rw [← batchVerdict_filterWord calm mem op]
    have word : operationWord svc table now tokens accessor resources =
        filterWord svc table now tokens accessor resources := by
      funext key op
      rw [operationWord, if_neg empty]
    rw [word]

theorem noInterference_singleton (resource : ResourceInfo) : NoInterference [resource] where
  sameType first firstMem second secondMem := by simp_all
  sameLevels first firstMem second secondMem _ := by simp_all
  sameCreator first firstMem second secondMem _ _ := by simp_all
  notLevel first firstMem second secondMem different := by simp_all
  notTypeKey first firstMem second secondMem _ := by
    obtain rfl := mem_singleton.mp firstMem
    obtain rfl := mem_singleton.mp secondMem
    exact calcResourceID_ne (by omega)
  notEmpty first firstMem second secondMem empty := by simp_all

end SecurityFabric.Authorization
