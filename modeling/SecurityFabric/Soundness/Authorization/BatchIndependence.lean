import SecurityFabric.Model.Authorization.Policy
import SecurityFabric.Proofs.Authorization.Batch

/-! # Checking one resource

The contract of `check`, in terms of the stored rows alone: per requested operation, the first level
on the way from the resource over its ancestors to the whole type at which an applicable rule names
the operation, and no applicable denial at that level.
-/

namespace SecurityFabric.Authorization

variable {svc : Services} {accessor : AccessorInfo} {tokens : List String}

/-- `check` grants a request exactly when for every requested operation there is a first level at
which an applicable rule names it, and no applicable deny rule of that level does. -/
theorem check_result_iff (table : PolicyTable) (now : Int) (found : getAccessorIDs svc accessor = .ok tokens)
    (resource : ResourceInfo) (operation : List String) (includes : List PolicCalcyIncludeType) :
    ∃ checkResult, check svc table now resource accessor operation includes = .ok checkResult ∧
      (checkResult.result = true ↔ ∀ op ∈ operation, ∃ closer level farther,
        resource.id :: (resource.ancestors.map fun ancestor => ancestor.id ++ "/*").reverse ++
          ["*"] = closer ++ level :: farther ∧
        (∀ nearer ∈ closer, ∀ policy ∈ atLevel table now resource.type tokens nearer,
          ¬ Names svc (requestData resource accessor) policy.rules.allow op ∧
            ¬ Names svc (requestData resource accessor) policy.rules.deny op) ∧
        (∃ policy ∈ atLevel table now resource.type tokens level,
          Names svc (requestData resource accessor) policy.rules.allow op ∨
            Names svc (requestData resource accessor) policy.rules.deny op) ∧
        ∀ policy ∈ atLevel table now resource.type tokens level,
          ¬ Names svc (requestData resource accessor) policy.rules.deny op) := by
  obtain ⟨checkResult, answered, granted⟩ := check_spec table now found resource operation includes
  refine ⟨checkResult, answered, granted.trans (forall₂_congr fun op _ => ?_)⟩
  rw [verdict, nearest_eq_some_iff]
  simp only [levelWord, mention_eq_none_iff, mention_eq_true_iff]
  rfl

open Sample in
/-- Reading is denied below the root and allowed below the parent; the parent is nearer. -/
theorem check_result_iff_sample : getAccessorIDs services app = .ok ["app"] ∧
    ∃ checkResult, check services [row "parent/*" [rule "read"] [], row "root/*" [] [rule "read"]] 0
        ⟨"d", "doc", "", [⟨"root", "", ""⟩, ⟨"parent", "", ""⟩], {}⟩ app ["read"] [] = .ok checkResult ∧
        checkResult.result = true := by
  obtain ⟨checkResult, answered, granted⟩ := check_result_iff
    [row "parent/*" [rule "read"] [], row "root/*" [] [rule "read"]] 0 getAccessorIDs_app
    ⟨"d", "doc", "", [⟨"root", "", ""⟩, ⟨"parent", "", ""⟩], {}⟩ ["read"] []
  refine ⟨rfl, checkResult, answered, granted.mpr ?_⟩
  rintro op member
  obtain rfl : op = "read" := by simpa using member
  exact ⟨["d"], "parent/*", ["root/*", "*"], rfl, by decide, by decide, by decide⟩

/-! # The batch entry points against `check`

For a resource submitted alone, filtering and listing operations should answer as `check` does. They judge the inherited
levels with an empty map, so that conditions there do not see the accessor or the creator. This shows only through
operations that the resource's own level leaves open.
-/

open List

/-- Filtering and listing operations of one resource answer as `check` does. -/
structure AgreesWithCheck (svc : Services) (table : PolicyTable) (now : Int) (accessor : AccessorInfo)
    (resource : ResourceInfo) : Prop where
  filter : ∀ operation includes, ∃ filtered, resourceFilter svc table now [resource] accessor operation includes =
    .ok filtered ∧
      (resource ∈ filtered.result ↔ Granted svc table now accessor resource operation) ∧
      (resource ∈ filtered.result → ∀ op, op ∈ (filtered.resourceOperationMap.lookup resource.id).getD [] ↔
        Granted svc table now accessor resource [op])
  operations : ∃ operations obligations, getResourceOperation svc table now [resource] accessor =
    .ok (operations, obligations) ∧
      ∀ op, op ∈ (operations.lookup resource.id).getD [] ↔
        Granted svc table now accessor resource [op] ∧ InScope svc resource.type resource.id op

/-- The operations left open by the resource's own level fare alike when the other inherited levels
see the data of the request and when they see an empty map. -/
def InheritedAgree (svc : Services) (table : PolicyTable) (now : Int) (tokens : List String)
    (accessor : AccessorInfo) (resource : ResourceInfo) : Prop :=
  let word := levelWord svc table now resource.type tokens
  let above := (inheritedLevels resource).filter (· ≠ resource.id)
  ∀ op, word (fun _ => requestData resource accessor) resource.id op = none →
    ((nearest (word fun _ => requestData resource accessor) above op).or
        (word (fun _ => requestData resource accessor) "*" op) = some true ↔
      (nearest (word fun _ => some (.obj [])) above op).or (word (fun _ => requestData resource accessor) "*" op) =
        some true)

variable {table : PolicyTable} {now : Int}

/-- Agreement is agreement of the two verdicts on every operation. -/
theorem agreesWithCheck_iff_verdict (found : getAccessorIDs svc accessor = .ok tokens) (resource : ResourceInfo) :
    AgreesWithCheck svc table now accessor resource ↔ ∀ op,
      (verdict svc table now resource.type tokens (filterData resource accessor) (levels resource) op = some true ↔
        verdict svc table now resource.type tokens (fun _ => requestData resource accessor) (levels resource)
          op = some true) := by
  have alone := noInterference_singleton resource
  have here : resource ∈ [resource] := mem_singleton_self resource
  constructor
  · intro agrees op
    obtain ⟨filtered, ran, kept, _⟩ := agrees.filter [op] []
    obtain ⟨filtered', ran', spec⟩ := resourceFilter_spec table now found (cons_ne_nil resource []) [op] []
    obtain rfl := Except.ok.inj (ran.symm.trans ran')
    have verdicts := ((spec resource here).1).symm.trans kept
    simpa only [granted_iff found, batchVerdict_filterWord alone here, forall_mem_singleton] using verdicts
  · intro same
    refine ⟨fun operation includes => ?_, ?_⟩
    · obtain ⟨filtered, ran, spec⟩ := resourceFilter_spec table now found (cons_ne_nil resource []) operation includes
      refine ⟨filtered, ran, ?_, ?_⟩
      · rw [(spec resource here).1, granted_iff found]
        simp [batchVerdict_filterWord alone here, same]
      · intro kept op
        rw [(spec resource here).2 kept, granted_iff found, forall_mem_singleton,
          batchVerdict_filterWord alone here, same]
    · obtain ⟨operations, obligations, ran, spec⟩ := getResourceOperation_spec table now found (cons_ne_nil resource [])
      refine ⟨operations, obligations, ran, fun op => ?_⟩
      rw [spec resource here op, granted_iff found, forall_mem_singleton, batchVerdict_operationWord alone here, same]
      rfl

variable {resource : ResourceInfo}

private theorem nearest_inherited_of_silent {data : String → Option Json} {op : String}
    (own : data resource.id = requestData resource accessor)
    (silent : levelWord svc table now resource.type tokens (fun _ => requestData resource accessor) resource.id op =
      none) : nearest (levelWord svc table now resource.type tokens data) (inheritedLevels resource) op =
      nearest (levelWord svc table now resource.type tokens data)
      ((inheritedLevels resource).filter (· ≠ resource.id)) op := by
  rw [nearest_filter]
  intro level _ dropped
  obtain rfl : level = resource.id := by simpa using dropped
  rw [levelWord, own]
  exact silent

/-- Filtering and listing agree with `check` exactly when the inherited levels do not depend on the
request's data in a way the resource's own level leaves visible. -/
theorem agreesWithCheck_iff (table : PolicyTable) (now : Int) (found : getAccessorIDs svc accessor = .ok tokens)
    (resource : ResourceInfo) :
    AgreesWithCheck svc table now accessor resource ↔ InheritedAgree svc table now tokens accessor resource := by
  rw [agreesWithCheck_iff_verdict found]
  refine forall_congr' fun op => ?_
  have same {level : String} (asked : level = resource.id ∨ level = "*") :
      levelWord svc table now resource.type tokens (filterData resource accessor) level op =
        levelWord svc table now resource.type tokens (fun _ => requestData resource accessor) level op := by
    simp only [levelWord, filterData, if_pos asked]
  rw [verdict, verdict, nearest_levels, nearest_levels, same (.inl rfl), same (.inr rfl)]
  cases spoken : levelWord svc table now resource.type tokens (fun _ => requestData resource accessor)
      resource.id op with
  | some word => simp
  | none =>
    have between : nearest (levelWord svc table now resource.type tokens (filterData resource accessor))
        ((inheritedLevels resource).filter (· ≠ resource.id)) op =
        nearest (levelWord svc table now resource.type tokens fun _ => some (.obj []))
          ((inheritedLevels resource).filter (· ≠ resource.id)) op := by
      apply nearest_congr
      intro level member
      obtain ⟨inherited, foreign⟩ := mem_filter.mp member
      simp only [levelWord, filterData]
      rw [if_neg]
      rintro (same | star)
      · simp [same] at foreign
      · exact inheritedLevel_ne_star inherited star
    simp only [forall_const]
    rw [nearest_inherited_of_silent (by simp [filterData]) spoken, between, nearest_inherited_of_silent rfl spoken]
    exact Iff.comm

theorem inheritedAgree_of_unconditional
    (unconditional : ∀ level ∈ inheritedLevels resource, ∀ policy ∈ atLevel table now resource.type tokens level,
      policy.Unconditional) : InheritedAgree svc table now tokens accessor resource := by
  refine fun op _ => iff_of_eq (congrArg (fun found : Option Bool =>
    found.or _ = some true) (nearest_congr fun level mem => ?_))
  exact mention_of_unconditional (unconditional level (mem_filter.mp mem).1) _ _

open Sample in
/-- A document that the application may read, in a folder below which it may write. -/
theorem agreesWithCheck_iff_sample : getAccessorIDs services app = .ok ["app"] ∧
    AgreesWithCheck services [row "d" [rule "read"] [], row "p/*" [rule "write"] []]
      0 app ⟨"d", "doc", "", [⟨"p", "", ""⟩], {}⟩ :=
  ⟨rfl, (agreesWithCheck_iff _ 0 getAccessorIDs_app _).mpr (inheritedAgree_of_unconditional (by decide))⟩

open Sample in
/-- `check` grants reading through the condition on the parent; the filter drops the document. -/
theorem filter_ignores_inherited_condition :
    ¬ AgreesWithCheck services [row "p/*" [ruleWhen (varEquals "accessor.id" "app") "read"] []] 0 app
      ⟨"d", "doc", "", [⟨"p", "", ""⟩], {}⟩ := by
  intro agrees
  obtain ⟨filtered, ran, kept, _⟩ := agrees.filter ["read"] []
  have empty : [] = filtered.result := Except.ok.inj (congrArg (Except.map ResourceFilterResult.result) ran)
  have granted := kept.mpr ⟨_, rfl, rfl⟩
  rw [← empty] at granted
  cases granted

/-! # Batch independence

A resource of a batch should get the verdict and the operations it gets when submitted alone. This holds for every
store, accessor and operation list exactly when no two resources of the batch interfere. Each kind of interference is
made visible by a store of one row, or of one row a level.
-/

open Option

variable {spoken : List String} {last : ResourceInfo}

/-- Each resource of the batch gets from the batch what it gets alone. -/
structure AnswersAlone (svc : Services) (table : PolicyTable) (now : Int) (accessor : AccessorInfo)
    (operation : List String) (resources : List ResourceInfo) : Prop where
  filter : ∀ resource ∈ resources, ∃ together alone, resourceFilter svc table now resources accessor operation [] =
    .ok together ∧
      resourceFilter svc table now [resource] accessor operation [] = .ok alone ∧
      (resource ∈ together.result ↔ resource ∈ alone.result)
  operations : ∀ resource ∈ resources, ∃ together togetherObligations alone aloneObligations,
    getResourceOperation svc table now resources accessor = .ok (together, togetherObligations) ∧
      getResourceOperation svc table now [resource] accessor = .ok (alone, aloneObligations) ∧
      ∀ op, op ∈ (together.lookup resource.id).getD [] ↔ op ∈ (alone.lookup resource.id).getD []

/-- A batch whose resources do not influence each other, whatever is stored. -/
def BatchIndependent (resources : List ResourceInfo) : Prop :=
  ∀ svc table now accessor operation tokens, getAccessorIDs svc accessor = .ok tokens →
    AnswersAlone svc table now accessor operation resources

variable {resources : List ResourceInfo}

private theorem answersAlone_of_noInterference (found : getAccessorIDs svc accessor = .ok tokens)
    (calm : NoInterference resources)
    (operation : List String) : AnswersAlone svc table now accessor operation resources := by
  refine ⟨fun resource mem => ?_, fun resource mem => ?_⟩
  · have nonempty := ne_nil_of_mem mem
    have here : resource ∈ [resource] := mem_singleton_self resource
    obtain ⟨together, ran, spec⟩ := resourceFilter_spec table now found nonempty operation []
    obtain ⟨alone, ranAlone, specAlone⟩ := resourceFilter_spec table now found (cons_ne_nil resource []) operation []
    refine ⟨together, alone, ran, ranAlone, ?_⟩
    rw [(spec resource mem).1, (specAlone resource here).1]
    simp [batchVerdict_filterWord calm mem, batchVerdict_filterWord (noInterference_singleton resource) here]
  · have nonempty := ne_nil_of_mem mem
    have here : resource ∈ [resource] := mem_singleton_self resource
    obtain ⟨together, togetherObligations, ran, spec⟩ := getResourceOperation_spec table now found nonempty
    obtain ⟨alone, aloneObligations, ranAlone, specAlone⟩ :=
      getResourceOperation_spec table now found (cons_ne_nil resource [])
    refine ⟨together, togetherObligations, alone, aloneObligations, ran, ranAlone, fun op => ?_⟩
    rw [spec resource mem op, specAlone resource here op, batchVerdict_operationWord calm mem,
      batchVerdict_operationWord (noInterference_singleton resource) here, batchType_eq calm mem]
    rfl

open Sample

section

variable (data : Option Json) (condition : Json) (type level : String) (allow deny : List PolicyRuleItem)

/-- A row of the sample application at any level of any type. -/
def oneRow : PolicyInfo :=
  { row level allow deny with resourceType := type }

/-- What an independent batch promises for the sample application and one operation. -/
theorem observe (independent : BatchIndependent resources) (table : PolicyTable) (mem : resource ∈ resources) :
    batchVerdict (filterWord services table 0 ["app"] app resources) resources resource.id "read" = some true ↔
      verdict services table 0 resource.type ["app"] (filterData resource app) (levels resource)
        "read" = some true := by
  have here : resource ∈ [resource] := mem_singleton_self resource
  obtain ⟨together, alone, ran, ranAlone, same⟩ :=
    (independent services table 0 app ["read"] ["app"] getAccessorIDs_app).filter resource mem
  obtain ⟨together', ran', spec⟩ := resourceFilter_spec table 0 getAccessorIDs_app (ne_nil_of_mem mem) ["read"] []
  obtain ⟨alone', ranAlone', specAlone⟩ := resourceFilter_spec table 0 getAccessorIDs_app
    (cons_ne_nil resource []) ["read"] []
  obtain rfl := Except.ok.inj (ran.symm.trans ran')
  obtain rfl := Except.ok.inj (ranAlone.symm.trans ranAlone')
  rw [(spec resource mem).1, (specAlone resource here).1, forall_mem_singleton,
    forall_mem_singleton, batchVerdict_filterWord (noInterference_singleton resource) here] at same
  exact same

private theorem atLevel_oneRow (type level key : String) (allow deny : List PolicyRuleItem) (asked : String) :
    atLevel [oneRow type level allow deny] 0 asked ["app"] key =
      if key = level ∧ asked = type then [oneRow type level allow deny] else [] := by
  have kept : ((oneRow type level allow deny).resourceID = key ∧ (oneRow type level allow deny).resourceType = asked ∧
      (oneRow type level allow deny).accessorID ∈ ["app"] ∧ (oneRow type level allow deny).expired 0 = false) ↔
      key = level ∧ asked = type := by
    simp [PolicyInfo.expired, oneRow, row, eq_comm]
  rw [atLevel, filter_singleton]
  split_ifs with both
  · rw [decide_eq_true (kept.mpr both), cond_true]
  · rw [decide_eq_false (fun holds => both (kept.mp holds)), cond_false]

private theorem filterWord_eq_none {key op : String} (whole : atLevel table now (batchType resources) tokens "*" = [])
    (here : atLevel table now (batchType resources) tokens key = []) :
    filterWord svc table now tokens accessor resources key op = none := by
  rw [filterWord]
  split
  · rw [whole, mention_nil]
  · rw [belowWord, here]
    split_ifs <;> simp

/-- The word of an allow rule under a condition. -/
theorem mention_oneRow : mention services data [oneRow type level [ruleWhen condition "read"] []] "read" =
      if ruleApplies services data (ruleWhen condition "read") then some true else none := by
  split_ifs with applies
  · rw [mention_eq_true_iff]
    refine ⟨⟨_, mem_singleton_self _, .inl ⟨_, mem_singleton_self _, applies, _, mem_singleton_self _, rfl⟩⟩, ?_⟩
    intro policy mem
    obtain rfl := mem_singleton.mp mem
    rintro ⟨denied, impossible, _⟩
    cases impossible
  · rw [mention_eq_none_iff]
    intro policy mem
    obtain rfl := mem_singleton.mp mem
    refine ⟨?_, by rintro ⟨denied, impossible, _⟩; cases impossible⟩
    rintro ⟨named, present, holds, _⟩
    obtain rfl := mem_singleton.mp present
    exact applies holds

private theorem mention_oneRow_allow :
    mention services data [oneRow type level [rule "read"] []] "read" = some true := mention_oneRow data _ type level

private theorem verdict_oneRow (data : String → Option Json) (resource : ResourceInfo)
    (op : String) : verdict services [oneRow type level allow deny] 0 type ["app"] data (levels resource) op =
      if level ∈ levels resource then mention services (data level) [oneRow type level allow deny] op else none := by
  rw [verdict, nearest_eq_of_silent_ne level]
  · simp [levelWord, atLevel_oneRow]
  · intro other _ foreign
    simp [levelWord, atLevel_oneRow, foreign]

end

/-- One unconditional row at each level that is to speak. -/
def storeOf (type : String) (spoken : List String) (word : String → Option Bool) : PolicyTable :=
  spoken.filterMap fun level => (word level).map fun allowed =>
    if allowed then oneRow type level [rule "read"] [] else oneRow type level [] [rule "read"]

variable {level : String}

private theorem mem_atLevel_storeOf {type : String} {word : String → Option Bool} {policy : PolicyInfo} :
    policy ∈ atLevel (storeOf type spoken word) 0 type ["app"] level ↔
      level ∈ spoken ∧ (word level = some true ∧ policy = oneRow type level [rule "read"] [] ∨
        word level = some false ∧ policy = oneRow type level [] [rule "read"]) := by
  simp only [atLevel, storeOf, mem_filter, mem_filterMap, map_eq_some_iff, decide_eq_true_eq]
  constructor
  · rintro ⟨⟨other, mem, allowed, said, rfl⟩, here, _⟩
    cases allowed with
    | true =>
      obtain rfl : other = level := here
      exact ⟨mem, .inl ⟨said, rfl⟩⟩
    | false =>
      obtain rfl : other = level := here
      exact ⟨mem, .inr ⟨said, rfl⟩⟩
  · rintro ⟨mem, ⟨said, rfl⟩ | ⟨said, rfl⟩⟩
    · exact ⟨⟨level, mem, true, said, rfl⟩, rfl, rfl, mem_singleton_self _, rfl⟩
    · exact ⟨⟨level, mem, false, said, rfl⟩, rfl, rfl, mem_singleton_self _, rfl⟩

/-- Such a store says at each of its levels what it was built to say. -/
theorem mention_storeOf {type : String} (mem : level ∈ spoken) (word : String → Option Bool) (data : Option Json) :
    mention services data (atLevel (storeOf type spoken word) 0 type ["app"] level) "read" = word level := by
  cases said : word level with
  | none =>
    rw [mention_eq_none_iff]
    intro policy present
    rw [mem_atLevel_storeOf, said] at present
    simp at present
  | some allowed =>
    cases allowed with
    | true =>
      rw [← mention_oneRow_allow data type level]
      apply mention_congr
      · intro policy present
        rw [mem_atLevel_storeOf] at present
        exact ⟨_, mem_singleton_self _, by simp_all⟩
      · intro policy present
        obtain rfl := mem_singleton.mp present
        exact ⟨_, mem_atLevel_storeOf.mpr ⟨mem, .inl ⟨said, rfl⟩⟩, rfl⟩
    | false =>
      rw [mention, if_pos]
      exact ⟨_, mem_atLevel_storeOf.mpr ⟨mem, .inr ⟨said, rfl⟩⟩, rule "read", mem_singleton_self _, rfl, _,
        mem_singleton_self _, rfl⟩

/-- A condition on the creator tells two resources apart exactly when their creators differ. -/
theorem ruleApplies_creator {creator : String} (known : creator ≠ "") (resource : ResourceInfo) :
    ruleApplies services (some (makeDataInfo resource app))
      (ruleWhen (varEquals "resource.created_by.id" creator) "read") = decide (resource.createdBy.id = creator) := by
  by_cases anonymous : resource.createdBy.id = ""
  · have data : makeDataInfo resource app = .obj [("accessor", .field "id" (.str "app"))] := by
      rw [makeDataInfo, if_neg (by simpa using anonymous)]
      rfl
    rw [data, anonymous, decide_eq_false known.symm]
    rfl
  · have data : makeDataInfo resource app = .obj [("accessor", .field "id" (.str "app")),
        ("resource", .field "created_by" (.field "id" (.str resource.createdBy.id)))] := by
      rw [makeDataInfo, if_pos anonymous]
      rfl
    rw [data]
    exact beq_eq_decide _ _

section Necessary

variable (independent : BatchIndependent resources)
include independent

/-- In the batch some level hears a row at the resource's own level. -/
theorem not_silent (mem : resource ∈ resources) : ¬ ∀ key,
    filterWord services [oneRow resource.type resource.id [rule "read"] []] 0 ["app"]
      app resources key "read" = none := by
  intro silent
  have alone := observe independent [oneRow resource.type resource.id [rule "read"] []] mem
  rw [verdict_oneRow, if_pos (by simp [levels]), mention_oneRow_allow, batchVerdict,
    nearest_eq_none_iff.mpr fun key _ => silent key] at alone
  simp at alone

private theorem type_eq_batchType (mem : resource ∈ resources) : resource.type = batchType resources := by
  by_contra different
  have nothing (key : String) : atLevel [oneRow resource.type resource.id [rule "read"] []] 0
      (batchType resources) ["app"] key = [] := by
    rw [atLevel_oneRow, if_neg fun both => different both.2.symm]
  exact not_silent independent mem fun key => filterWord_eq_none (nothing "*") (nothing key)

variable {first second : ResourceInfo}

/-- An id that is another resource's synthetic key is judged by the whole type instead of its rows. -/
theorem not_typeKey (firstMem : first ∈ resources) (secondMem : second ∈ resources) (named : second.id ≠ "*") :
    first.id ≠ second.id ++ "_*" := by
  intro meets
  have notStar : "*" ≠ first.id := meets ▸ calcResourceID_ne_star second.id
  refine not_silent independent firstMem fun key => ?_
  by_cases own : key = first.id
  · -- the synthetic entry of the second resource has replaced the first one's own level
    rw [filterWord]
    cases found : resources.reverse.find? fun other => typeKey other = key with
    | none =>
      have absent := find?_eq_none.mp found second (mem_reverse.mpr secondMem)
      rw [typeKey, if_neg named, own, meets] at absent
      simp [calcResourceID] at absent
    | some other => simp [atLevel_oneRow, notStar]
  · apply filterWord_eq_none
    · rw [atLevel_oneRow, if_neg fun both => notStar both.1]
    · rw [atLevel_oneRow, if_neg fun both => own both.1]

/-- Every walk of a batch begins with the empty id, so a resource of that id reaches all others. -/
theorem not_empty (firstMem : first ∈ resources) (secondMem : second ∈ resources) (empty : second.id = "") :
    first.id = "" := by
  by_contra named
  have alone := observe independent [oneRow first.type "" [rule "read"] []] firstMem
  have type := type_eq_batchType independent firstMem
  have heard : filterWord services [oneRow first.type "" [rule "read"] []] 0 ["app"] app resources "" "read" =
      some true := by
    rw [filterWord, find_typeKey_eq_none fun other _ => typeKey_ne_empty other]
    change belowWord _ _ _ _ _ _ _ _ = _
    rw [belowWord, if_pos ⟨by decide, mem_askedIDs.mpr ⟨second, secondMem, .inl empty.symm⟩⟩, atLevel_oneRow,
      if_pos ⟨rfl, type.symm⟩, mention_oneRow_allow]
  obtain ⟨last, kept, _⟩ := exists_lastWithID firstMem
  rw [verdict_oneRow, if_neg (fun inside => named ((empty_mem_levels_iff first).mp inside)), batchVerdict, kept,
    map_some, getD_some, nearest_walkIDs, heard] at alone
  simp at alone

/-- On a store with a word for each level of a resource, the batch hears the words below `*`. -/
theorem filterWord_storeOf_below (present : last ∈ resources) (covered : levels last ⊆ spoken)
    (word : String → Option Bool) (inside : level = last.id ∨ level ∈ inheritedLevels last) (notStar : level ≠ "*") :
    filterWord services (storeOf (batchType resources) spoken word) 0 ["app"]
      app resources level "read" = word level := by
  rw [filterWord, find_typeKey_of_inside (fun other => not_typeKey independent present) inside notStar]
  rw [belowWord, if_pos ⟨notStar, mem_askedIDs.mpr ⟨last, present, inside⟩⟩]
  exact mention_storeOf (covered (by rcases inside with rfl | inside <;> simp_all [levels])) word _

omit independent in
private theorem filterWord_storeOf_typeKey (present : last ∈ resources) (covered : levels last ⊆ spoken)
    (word : String → Option Bool) :
    filterWord services (storeOf (batchType resources) spoken word) 0 ["app"] app resources (typeKey last)
      "read" = word "*" := by
  obtain ⟨other, -, -, found⟩ := GoMap.exists_last typeKey present
  rw [filterWord, found]
  exact mention_storeOf (covered (by simp [levels])) word _

/-- On such a store the batch walks the levels of the resource it keeps for an id. -/
theorem batchVerdict_storeOf {id : String} (kept : lastWithID resources id = some last)
    (covered : levels last ⊆ spoken) (word : String → Option Bool) :
    batchVerdict (filterWord services (storeOf (batchType resources) spoken word) 0 ["app"] app resources) resources
      id "read" = nearest (fun level _ => word level) (levels last) "read" := by
  have present := (mem_of_lastWithID kept).1
  have whole := filterWord_storeOf_typeKey present covered word
  rw [batchVerdict, kept]
  apply nearest_walkIDs_eq_levels
  · intro named
    exact filterWord_empty (fun other otherMem empty =>
      named (not_empty independent present otherMem empty)) "read"
  · by_cases star : last.id = "*"
    · have key : typeKey last = last.id := by rw [typeKey, if_pos star, star]
      rw [← key, whole, key, star]
    · exact filterWord_storeOf_below independent present covered word (.inl rfl) star
  · intro level inherited
    exact filterWord_storeOf_below independent present covered word (.inr inherited) (inheritedLevel_ne_star inherited)
  · intro named
    have key : typeKey last = calcResourceID last.id := by rw [typeKey, if_neg named]
    rw [← key, whole]

section Kept

variable (mem : resource ∈ resources) (kept : lastWithID resources resource.id = some last)

include mem kept

/-- A resource must have the levels of the last resource with its id, which are the ones walked. -/
theorem eraseDups_levels_last : (levels resource).eraseDups = (levels last).eraseDups := by
  have type := type_eq_batchType independent mem
  apply eq_of_forall_nearest "read" (nodup_eraseDups _) (nodup_eraseDups _)
  intro word
  have alone := observe independent (storeOf resource.type (levels resource ++ levels last) word) mem
  have aloneWord : verdict services (storeOf resource.type (levels resource ++ levels last) word) 0 resource.type
      ["app"] (filterData resource app) (levels resource) "read" =
      nearest (fun level _ => word level) (levels resource) "read" :=
    nearest_congr fun level inside => mention_storeOf (mem_append_left _ inside) word _
  rw [aloneWord, type, batchVerdict_storeOf independent kept (subset_append_right ..) word] at alone
  rw [nearest_eraseDups, nearest_eraseDups]
  exact alone.symm

/-- In a batch a single row below `*` is heard exactly by the resources whose walk visits it, with the
data the batch keeps for its id. -/
theorem batchVerdict_oneRow {allow deny : List PolicyRuleItem} (inside : level = last.id ∨ level ∈ inheritedLevels last)
    (below : level ≠ "*") :
    batchVerdict (filterWord services [oneRow resource.type level allow deny] 0 ["app"] app resources)
      resources resource.id "read" =
      mention services (batchData resources app level) [oneRow resource.type level allow deny] "read" := by
  obtain ⟨present, same⟩ := mem_of_lastWithID kept
  have type := type_eq_batchType independent mem
  have walked : level ∈ walkIDs calcResourceID (createAncestorsResource last) := by
    rw [walkIDs_createAncestorsResource]
    rcases inside with rfl | inherited <;> simp_all
  rw [batchVerdict, kept, map_some, getD_some, nearest_eq_of_silent_ne level, if_pos walked, filterWord,
    find_typeKey_of_inside (fun other => not_typeKey independent present) inside below]
  · change belowWord _ _ _ _ _ _ _ _ = _
    rw [belowWord, if_pos ⟨below, mem_askedIDs.mpr ⟨last, present, inside⟩⟩, atLevel_oneRow, if_pos ⟨rfl, type.symm⟩]
  · intro key _ foreign
    apply filterWord_eq_none
    · rw [atLevel_oneRow, if_neg fun both => below both.1.symm]
    · rw [atLevel_oneRow, if_neg fun both => foreign both.1]

/-- A resource must have the creator of the last resource with its id, whose data is kept. -/
theorem createdBy_last (named : resource.id ≠ "*") : resource.createdBy = last.createdBy := by
  obtain ⟨present, same⟩ := mem_of_lastWithID kept
  have together (creator : String) (known : creator ≠ "") : resource.createdBy.id = creator ↔
      last.createdBy.id = creator := by
    have alone := observe independent [oneRow resource.type resource.id
      [ruleWhen (varEquals "resource.created_by.id" creator) "read"] []] mem
    have own : filterData resource app resource.id = some (makeDataInfo resource app) := by
      rw [filterData, if_pos (.inl rfl), requestData, if_neg named]
    have survivor : batchData resources app resource.id = some (makeDataInfo last app) := by
      rw [batchData, kept]
    rw [batchVerdict_oneRow independent mem kept (.inl same.symm) named, verdict_oneRow,
      if_pos (by simp [levels]), own, survivor, mention_oneRow, mention_oneRow,
      ruleApplies_creator known, ruleApplies_creator known] at alone
    simpa using alone.symm
  have ids : resource.createdBy.id = last.createdBy.id := by
    by_cases known : resource.createdBy.id = ""
    · by_cases other : last.createdBy.id = ""
      · rw [known, other]
      · exact (together _ other).mpr rfl
    · exact ((together _ known).mp rfl).symm
  cases first : resource.createdBy
  cases second : last.createdBy
  simpa [first, second] using ids

end Kept

/-- A requested resource must not lie at an inherited level of another, which would then see its
data instead of an empty map. -/
theorem not_inheritedLevel (firstMem : first ∈ resources) (secondMem : second ∈ resources)
    (different : first.id ≠ second.id) :
    second.id ∉ inheritedLevels first := by
  intro inherited
  obtain ⟨last, kept, present, same⟩ := exists_lastWithID firstMem
  have below := inheritedLevel_ne_star inherited
  have alone := observe independent [oneRow first.type second.id [ruleWhen (varEquals "accessor.id" "app") "read"] []]
    firstMem
  have inside : second.id = last.id ∨ second.id ∈ inheritedLevels last := by
    have visited : second.id ∈ (levels first).eraseDups := by
      simp [levels, inherited]
    rw [eraseDups_levels_last independent firstMem kept] at visited
    simpa [levels, below] using visited
  obtain ⟨survivor, found, _⟩ := exists_lastWithID secondMem
  have seen : batchData resources app second.id = some (makeDataInfo survivor app) := by
    rw [batchData, found]
  have unseen : filterData first app second.id = some (.obj []) := by
    rw [filterData, if_neg]
    rintro (own | star)
    · exact different own.symm
    · exact below star
  rw [batchVerdict_oneRow independent firstMem kept inside below, verdict_oneRow,
    if_pos (by simp [levels, inherited]), seen, unseen, mention_oneRow, mention_oneRow] at alone
  exact absurd (alone.mp rfl) (by decide)

end Necessary

/-- A batch is independent exactly when no two of its resources interfere. -/
theorem batchIndependent_iff (resources : List ResourceInfo) :
    BatchIndependent resources ↔ NoInterference resources := by
  constructor
  · intro independent
    refine ⟨?_, ?_, ?_, ?_, ?_, ?_⟩
    · intro first firstMember second secondMember
      rw [type_eq_batchType independent firstMember, type_eq_batchType independent secondMember]
    · intro first firstMember second secondMember same
      obtain ⟨last, kept, _⟩ := exists_lastWithID firstMember
      rw [eraseDups_levels_last independent firstMember kept,
        eraseDups_levels_last independent secondMember (same ▸ kept)]
    · intro first firstMember second secondMember same named
      obtain ⟨last, kept, _⟩ := exists_lastWithID firstMember
      rw [createdBy_last independent firstMember kept named,
        createdBy_last independent secondMember (same ▸ kept) (same ▸ named)]
    · exact fun first firstMember second secondMember => not_inheritedLevel independent firstMember secondMember
    · exact fun first firstMember second secondMember => not_typeKey independent firstMember secondMember
    · exact fun first firstMember second secondMember => not_empty independent firstMember secondMember
  · intro calm svc table now accessor operation tokens found
    exact answersAlone_of_noInterference found calm operation

/-- What the filter keeps of a request of the sample application to read. -/
def keptForReading (table : PolicyTable) (resources : List ResourceInfo) : Except ServiceError (List ResourceInfo) :=
  (resourceFilter services table 0 resources app ["read"] []).map (·.result)

private theorem not_answersAlone_of_kept (resource : ResourceInfo) {together alone : List ResourceInfo}
    (mem : resource ∈ resources) (kept : keptForReading table resources = .ok together)
    (keptAlone : keptForReading table [resource] = .ok alone) (differ : ¬ (resource ∈ together ↔ resource ∈ alone)) :
    ¬ AnswersAlone services table 0 app ["read"] resources := by
  intro answers
  obtain ⟨batch, single, ran, ranAlone, same⟩ := answers.filter resource mem
  rw [keptForReading, ran] at kept
  rw [keptForReading, ranAlone] at keptAlone
  obtain rfl : batch.result = together := Except.ok.inj kept
  obtain rfl : single.result = alone := Except.ok.inj keptAlone
  exact differ same

/-- A document loses its permission when a folder is asked for before it, and another gains one when
its parent's level is asked for with it. -/
theorem batch_interferes :
    ¬ AnswersAlone services [oneRow "doc" "d" [rule "read"] []] 0 app ["read"]
    [⟨"f", "folder", "", [], {}⟩, ⟨"d", "doc", "", [], {}⟩] ∧
    ¬ AnswersAlone services [oneRow "doc" "p/*" [ruleWhen (varEquals "accessor.id" "app") "read"] []] 0 app ["read"]
      [⟨"d", "doc", "", [⟨"p", "", ""⟩], {}⟩, ⟨"p/*", "doc", "", [⟨"p", "", ""⟩], {}⟩] :=
  ⟨not_answersAlone_of_kept ⟨"d", "doc", "", [], {}⟩ (by decide) rfl rfl (by decide),
    not_answersAlone_of_kept ⟨"d", "doc", "", [⟨"p", "", ""⟩], {}⟩ (by decide) rfl rfl (by decide)⟩

end SecurityFabric.Authorization
