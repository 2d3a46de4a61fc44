import SecurityFabric.Model.Authorization.PolicyCalc
import SecurityFabric.ToMathlib.Nearest
import SecurityFabric.ToMathlib.Guarantees

/-! # What the steps of the policy calculation decide

A level's word on an operation (`mention`) is deny when an applicable deny rule names it, allow when only an applicable
allow rule does, and open otherwise. `calcOneResourcePerm` computes that word, one level of the walk settles exactly the
operations left open by the nearer ones, and so the walk computes the nearest decision. The entry points are then
characterised without their maps.
-/

namespace SecurityFabric.Authorization

section

open List GoMap AList

variable {policies : List PolicyInfo} {svc : Services} {data : Option Json} {op : String}

/-- An applicable rule among `rules` names the operation. -/
def Names (svc : Services) (data : Option Json) (rules : List PolicyRuleItem) (op : String) : Prop :=
  ∃ rule ∈ rules, ruleApplies svc data rule = true ∧ ∃ ope ∈ rule.operations, ope.id = op

instance (svc : Services) (data : Option Json) (rules : List PolicyRuleItem) (op : String) :
    Decidable (Names svc data rules op) := by unfold Names; infer_instance

/-- The word of a level with the given policies: a denial outweighs a permission. -/
def mention (svc : Services) (data : Option Json) (policies : List PolicyInfo) (op : String) : Option Bool :=
  if ∃ policy ∈ policies, Names svc data policy.rules.deny op then some false
  else if ∃ policy ∈ policies, Names svc data policy.rules.allow op then some true
  else none

/-- The word of a computed level. -/
def ResourcePerm.mention (perm : ResourcePerm) (op : String) : Option Bool :=
  if op ∈ perm.deny then some false else if op ∈ perm.allow then some true else none

/-- The decision the walk has reached so far. -/
def InheritedOperation.decision (acc : InheritedOperation) (op : String) : Option Bool :=
  if op ∈ acc.denyMap then some false else if op ∈ acc.allowMap then some true else none

private theorem mem_ruleOperations {rules : List PolicyRuleItem} :
    (∃ ope ∈ ruleOperations svc data rules, ope.id = op) ↔ Names svc data rules op := by
  simp only [ruleOperations, mem_flatMap, mem_filter]
  constructor
  · rintro ⟨ope, ⟨rule, ⟨mem, applies⟩, present⟩, named⟩
    exact ⟨rule, mem, applies, ope, present, named⟩
  · rintro ⟨rule, mem, applies, ope, present, named⟩
    exact ⟨ope, ⟨rule, ⟨mem, applies⟩, present⟩, named⟩

@[simp] theorem mention_nil (svc : Services) (data : Option Json) (op : String) :
    mention svc data [] op = none := by simp [mention]

/-- The word of a level depends on the policies' rules only. -/
theorem mention_congr {first second : List PolicyInfo}
    (forth : ∀ policy ∈ first, ∃ other ∈ second, other.rules = policy.rules)
    (back : ∀ policy ∈ second, ∃ other ∈ first, other.rules = policy.rules) :
    mention svc data first op = mention svc data second op := by
  have transfer (side : PolicyRules → List PolicyRuleItem) :
      (∃ policy ∈ first, Names svc data (side policy.rules) op) ↔
      ∃ policy ∈ second, Names svc data (side policy.rules) op := by
    constructor
    · rintro ⟨policy, mem, named⟩
      obtain ⟨other, present, same⟩ := forth policy mem
      exact ⟨other, present, same ▸ named⟩
    · rintro ⟨policy, mem, named⟩
      obtain ⟨other, present, same⟩ := back policy mem
      exact ⟨other, present, same ▸ named⟩
  simp [mention, transfer PolicyRules.deny, transfer PolicyRules.allow]

/-- A policy none of whose rules has a condition. -/
def PolicyInfo.Unconditional (policy : PolicyInfo) : Prop :=
  ∀ rule ∈ policy.rules.allow ++ policy.rules.deny, isConditionEmpty rule.condition = true

instance (policy : PolicyInfo) : Decidable policy.Unconditional := by
  unfold PolicyInfo.Unconditional; infer_instance

/-- Without conditions the data does not matter. -/
theorem mention_of_unconditional (unconditional : ∀ policy ∈ policies, policy.Unconditional)
    (data other : Option Json) : mention svc data policies op = mention svc other policies op := by
  have names (rules : List PolicyRuleItem) (empty : ∀ rule ∈ rules, isConditionEmpty rule.condition = true) :
      Names svc data rules op ↔ Names svc other rules op := by
    refine exists_congr fun rule => and_congr_right fun mem => ?_
    simp [ruleApplies, empty rule mem]
  have allow :=
    exists_congr fun policy => and_congr_right fun mem => names _ fun rule present =>
      unconditional policy mem rule (mem_append_left _ present)
  have deny :=
    exists_congr fun policy => and_congr_right fun mem => names _ fun rule present =>
      unconditional policy mem rule (mem_append_right _ present)
  simp [mention, allow, deny]

private theorem mem_deny_calcOneResourcePerm :
    op ∈ (calcOneResourcePerm svc data policies).deny ↔ ∃ policy ∈ policies, Names svc data policy.rules.deny op := by
  simp [calcOneResourcePerm, mem_ruleOperations]

private theorem mem_allow_calcOneResourcePerm : op ∈ (calcOneResourcePerm svc data policies).allow ↔
    (∃ policy ∈ policies, Names svc data policy.rules.allow op) ∧
    ¬ ∃ policy ∈ policies, Names svc data policy.rules.deny op := by
  rw [← mem_deny_calcOneResourcePerm]
  simp only [calcOneResourcePerm, mem_concat, mem_flatMap, mem_map, mem_filter, decide_eq_true_eq]
  constructor
  · rintro (⟨_, ⟨policy, mem, ope, ⟨present, undenied⟩, rfl⟩, named⟩ | empty)
    · obtain rfl : ope.id = op := named
      exact ⟨⟨policy, mem, mem_ruleOperations.mp ⟨ope, present, rfl⟩⟩, undenied⟩
    · exact absurd empty (notMem_empty _)
  · rintro ⟨⟨policy, mem, named⟩, undenied⟩
    obtain ⟨ope, present, rfl⟩ := mem_ruleOperations.mpr named
    exact .inl ⟨_, ⟨policy, mem, ope, ⟨present, undenied⟩, rfl⟩, rfl⟩

theorem mention_calcOneResourcePerm (svc : Services) (data : Option Json) (policies : List PolicyInfo) (op : String) :
    (calcOneResourcePerm svc data policies).mention op = mention svc data policies op := by
  simp only [ResourcePerm.mention, mention, mem_deny_calcOneResourcePerm, mem_allow_calcOneResourcePerm]
  split_ifs <;> simp_all

@[simp] theorem mention_zero (op : String) : ResourcePerm.zero.mention op = none := by
  simp [ResourcePerm.mention, ResourcePerm.zero]

theorem mention_calcEach (svc : Services) (data : String → Option Json) (policies : List PolicyInfo)
    (key : PolicyInfo → String)
    (level op : String) : (((calcEach svc data (groupBy key policies)).lookup level).getD .zero).mention op =
      mention svc (data level) (policies.filter fun policy => key policy = level) op := by
  rw [calcEach, lookup_filterMap, lookup_groupBy]
  split_ifs with empty
  · simp [empty]
  · simp only [Option.bind_some]
    rw [if_neg (by simpa using empty), Option.getD_some, mention_calcOneResourcePerm]

namespace InheritedOperation

variable (acc : InheritedOperation)

@[simp] theorem decision_empty (op : String) : empty.decision op = none := by
  simp [decision, empty]

theorem mem_allowMap_iff (op : String) : op ∈ acc.allowMap ↔ acc.decision op = some true := by
  simp only [decision]
  split_ifs with denied allowed
  · simp [acc.disjoint op denied]
  · simp [allowed]
  · simp [allowed]

theorem allows_iff (operation : List String) :
    acc.allows operation = true ↔ ∀ op ∈ operation, acc.decision op = some true := by
  simp only [allows, all_eq_true, decision]
  refine forall₂_congr fun op _ => ?_
  by_cases denied : op ∈ acc.denyMap <;> by_cases allowed : op ∈ acc.allowMap <;> simp [allowed]

private theorem decision_addDeny (v op : String) :
    (acc.addDeny v).decision op = (acc.decision op).or (if v = op then some false else none) := by
  unfold addDeny
  split_ifs with unsettled same same
  · subst same
    simp [decision, unsettled.1, unsettled.2]
  · simp [decision, Ne.symm same]
  · subst same
    have settled : v ∈ acc.denyMap ∨ v ∈ acc.allowMap := by tauto
    rcases settled with denied | allowed
    · simp [decision, denied]
    · by_cases denied : v ∈ acc.denyMap <;> simp [decision, denied, allowed]
  · simp

private theorem decision_addAllow (v op : String) (value : List PolicyObligationCalcItem) :
    (acc.addAllow v value).decision op = (acc.decision op).or (if v = op then some true else none) := by
  unfold addAllow
  by_cases denied : v ∈ acc.denyMap
  · split_ifs with same
    · subst same
      simp [decision, denied]
    · simp
  · rw [dif_pos denied]
    by_cases same : v = op
    · subst same
      by_cases allowed : v ∈ acc.allowMap <;> simp [decision, denied, allowed]
    · by_cases allowed : v ∈ acc.allowMap <;>
        simp [decision, allowed, same, Ne.symm same]

private theorem decision_foldl_addDeny (vs : List String) (op : String) :
    (vs.foldl addDeny acc).decision op = (acc.decision op).or (if op ∈ vs then some false else none) := by
  induction vs generalizing acc with
  | nil => simp
  | cons v rest ih =>
    rw [foldl_cons, ih, decision_addDeny]
    by_cases same : v = op
    · simp [same]
    · simp [same, Ne.symm same]

private theorem decision_foldl_addAllow (entries : List (Σ _ : String, List PolicyObligationCalcItem)) (op : String) :
    (entries.foldl (fun acc entry => acc.addAllow entry.1 entry.2) acc).decision op =
      (acc.decision op).or (if op ∈ entries.map Sigma.fst then some true else none) := by
  induction entries generalizing acc with
  | nil => simp
  | cons entry rest ih =>
    rw [foldl_cons, ih, decision_addAllow, Option.or_assoc]
    by_cases same : entry.1 = op
    · simp [same]
    · simp only [same, ↓reduceIte, Option.none_or, map_cons, mem_cons, Ne.symm same, false_or]

private theorem decision_addLevel (perm : ResourcePerm) (op : String) :
    (acc.addLevel perm).decision op = (acc.decision op).or (perm.mention op) := by
  rw [addLevel, decision_foldl_addAllow, decision_foldl_addDeny, Option.or_assoc]
  have denyKeys : op ∈ perm.deny.keys ↔ op ∈ perm.deny := mem_keys
  have allowKeys : op ∈ perm.allow.entries.map Sigma.fst ↔ op ∈ perm.allow := Iff.rfl
  simp only [ResourcePerm.mention, denyKeys, allowKeys]
  split_ifs <;> rfl

end InheritedOperation

theorem decision_inheritedOperation (typeLevel : String → String) (resources : List ResourceInfo)
    (resourcePermMap : GoMap String ResourcePerm) (op : String) :
    (inheritedOperation typeLevel resources resourcePermMap).decision op =
      nearest (fun id op => ((resourcePermMap.lookup id).getD .zero).mention op) (walkIDs typeLevel resources) op := by
  have settles (acc : InheritedOperation) (id op : String) :
    (acc.addLevel ((resourcePermMap.lookup id).getD .zero)).decision op =
        (acc.decision op).or (((resourcePermMap.lookup id).getD .zero).mention op) :=
    acc.decision_addLevel _ op
  rw [inheritedOperation, decision_foldl _ InheritedOperation.decision settles,
    InheritedOperation.decision_empty, Option.none_or]

end

/-! # The verdict on a resource

An operation is judged at the levels of a resource, from the resource itself over its ancestors' `ancestor/*` levels to
the whole type, and the nearest level that speaks decides. `verdict` states this over the stored table, with the data
each level's conditions see left open; `check` answers by it with the data of the requested resource.
-/

open List GoMap Function

variable {policies : List PolicyInfo} {op : String}
variable (resource : ResourceInfo)
variable {resourceInfo : List ResourceInfo} {data : Option Json}

section

variable (resource : ResourceInfo) (svc : Services) (table : PolicyTable) (now : Int) (type : String)
  (tokens : List String) (data : String → Option Json)

/-- The unexpired policies of a type that one of the tokens holds at a level. -/
def atLevel (level : String) : List PolicyInfo :=
  table.filter fun policy => policy.resourceID = level ∧ policy.resourceType = type ∧
    policy.accessorID ∈ tokens ∧ policy.expired now = false

/-- The `ancestor/*` levels, from the parent up to the root. -/
def inheritedLevels : List String := (resource.ancestors.map fun ancestor => ancestor.id ++ "/*").reverse

/-- All levels of a resource, nearest first. -/
def levels : List String := resource.id :: inheritedLevels resource ++ ["*"]

/-- The word of one level of the store, its conditions seeing the level's data. -/
def levelWord (level op : String) : Option Bool :=
  mention svc (data level) (atLevel table now type tokens level) op

/-- The decision of the nearest level that speaks. -/
def verdict (levels : List String) (op : String) : Option Bool :=
  nearest (levelWord svc table now type tokens data) levels op

end

variable {svc : Services} {table : PolicyTable} {now : Int} {accessor : AccessorInfo} {tokens : List String}

theorem whereIn_ok {α : Type} {ids : List String} (nonempty : ids ≠ []) (rows : α) : whereIn ids rows = .ok rows :=
  if_neg nonempty

theorem getAccessorIDs_ne_nil (found : getAccessorIDs svc accessor = .ok tokens) : tokens ≠ [] := by
  obtain ⟨own, _, found⟩ := bind_ok found
  obtain ⟨roles, queried, found⟩ := bind_ok found
  obtain ⟨systemRoles, _, found⟩ := bind_ok found
  cases found
  cases own with
  | nil => contradiction
  | cons first rest => simp [eraseDups_cons]

theorem mention_eq_none_iff : mention svc data policies op = none ↔
    ∀ policy ∈ policies, ¬ Names svc data policy.rules.allow op ∧ ¬ Names svc data policy.rules.deny op := by
  simp only [mention]
  split_ifs with denied allowed
  · obtain ⟨policy, mem, named⟩ := denied
    simp only [false_iff, not_forall]
    exact ⟨policy, mem, fun silent => silent.2 named⟩
  · obtain ⟨policy, mem, named⟩ := allowed
    simp only [false_iff, not_forall]
    exact ⟨policy, mem, fun silent => silent.1 named⟩
  · simp only [true_iff]
    exact fun policy mem => ⟨fun named => allowed ⟨policy, mem, named⟩, fun named => denied ⟨policy, mem, named⟩⟩

/-- The word of a level is allow exactly when some applicable rule names the operation and no
applicable deny rule does. -/
theorem mention_eq_true_iff : mention svc data policies op = some true ↔
    (∃ policy ∈ policies, Names svc data policy.rules.allow op ∨ Names svc data policy.rules.deny op) ∧
      ∀ policy ∈ policies, ¬ Names svc data policy.rules.deny op := by
  simp only [mention]
  split_ifs with denied allowed
  · obtain ⟨policy, mem, named⟩ := denied
    simp only [Option.some.injEq, Bool.false_eq_true, false_iff, not_and, not_forall, not_not]
    exact fun _ => ⟨policy, mem, named⟩
  · obtain ⟨policy, mem, named⟩ := allowed
    simp only [true_iff]
    exact ⟨⟨policy, mem, .inl named⟩, fun other present named => denied ⟨other, present, named⟩⟩
  · simp only [false_iff, not_and]
    rintro ⟨policy, mem, named | named⟩
    · exact absurd ⟨policy, mem, named⟩ allowed
    · exact absurd ⟨policy, mem, named⟩ denied

/-- The query returns, at each requested level and at `*`, the policies in force there. -/
theorem filter_getPoliciesByResources {type level : String}
    (sameType : ∀ resource ∈ resourceInfo.head?, resource.type = type)
    (nonempty : tokens ≠ []) (found : getPoliciesByResourcesAndAccessToken table now resourceInfo tokens = .ok policies)
    (asked : level = "*" ∧ resourceInfo ≠ [] ∨ level ∈ resourceInfo.map (·.id)) :
    policies.filter (fun policy => policy.resourceID = level) =
      (atLevel table now type tokens level).map PolicyInfo.selected := by
  cases resourceInfo with
  | nil => simp at asked
  | cons first rest =>
    have firstType : first.type = type := sameType first rfl
    have mem : level ∈ collect ("*" :: (first :: rest).map (·.id)) := by
      rw [mem_collect, mem_cons]
      rcases asked with ⟨whole, _⟩ | listed
      · exact .inl whole
      · exact .inr listed
    simp only [getPoliciesByResourcesAndAccessToken, whereIn_ok nonempty, Except.ok.injEq] at found
    subst found
    rw [filter_map, filter_filter, filter_filter]
    congr 1
    apply filter_congr
    intro policy _
    simp only [comp_apply, PolicyInfo.selected, firstType]
    by_cases here : policy.resourceID = level
    · subst here
      simp only [mem]
      cases policy.expired now <;> simp
    · simp [here]

theorem mention_map_selected (data : Option Json) (policies : List PolicyInfo) (op : String) :
    mention svc data (policies.map PolicyInfo.selected) op = mention svc data policies op := by
  apply mention_congr
  · rintro policy mem
    obtain ⟨row, present, rfl⟩ := mem_map.mp mem
    exact ⟨row, present, rfl⟩
  · intro policy mem
    exact ⟨policy.selected, mem_map_of_mem mem, rfl⟩

@[simp] theorem map_id_createAncestorsResource :
    (createAncestorsResource resource).map (·.id) = (inheritedLevels resource).reverse ++ [resource.id] := by
  simp [createAncestorsResource, inheritedLevels]

@[simp] theorem lastID_createAncestorsResource : lastID (createAncestorsResource resource) = resource.id := by
  simp [lastID, createAncestorsResource]

theorem head_createAncestorsResource_type :
    ∀ first ∈ (createAncestorsResource resource).head?, first.type = resource.type := by
  intro first mem
  cases ancestors : resource.ancestors with
  | nil => simp_all [createAncestorsResource]
  | cons root rest =>
    simp only [createAncestorsResource, ancestors, map_cons, cons_append, head?_cons, Option.mem_def,
      Option.some.injEq] at mem
    exact mem ▸ rfl

section

variable (word : String → String → Option Bool) (typeLevel : String → String) (resource : ResourceInfo) (op : String)

theorem walkIDs_createAncestorsResource : walkIDs typeLevel (createAncestorsResource resource) =
      replicate (resource.ancestors.length + 1) "" ++ (resource.id :: inheritedLevels resource) ++
        if resource.id ≠ "*" then [typeLevel resource.id] else [] := by
  have length : (createAncestorsResource resource).length = resource.ancestors.length + 1 := by
    simp [createAncestorsResource]
  rw [walkIDs, length, map_id_createAncestorsResource, lastID_createAncestorsResource, reverse_append, reverse_reverse]
  rfl

theorem nearest_walkIDs : nearest word (walkIDs typeLevel (createAncestorsResource resource)) op =
      (word "" op).or ((word resource.id op).or ((nearest word (inheritedLevels resource) op).or
        (if resource.id ≠ "*" then word (typeLevel resource.id) op else none))) := by
  rw [walkIDs_createAncestorsResource, nearest_append, nearest_append, nearest_replicate_succ, nearest_cons,
    Option.or_assoc, Option.or_assoc]
  split_ifs <;> simp [nearest_cons]

theorem nearest_levels :
    nearest word (levels resource) op = (word resource.id op).or
      ((nearest word (inheritedLevels resource) op).or (word "*" op)) := by
  rw [levels, cons_append, nearest_cons, nearest_append]
  simp [nearest_cons]

end

/-- A walk whose words are those of the resource's levels, with the whole type under its key and
nothing under the empty id, decides as these levels do. -/
theorem nearest_walkIDs_eq_levels {word level : String → String → Option Bool} {typeLevel : String → String}
    {resource : ResourceInfo}
    (silent : resource.id ≠ "" → word "" op = none) (own : word resource.id op = level resource.id op)
    (inherited : ∀ id ∈ inheritedLevels resource, word id op = level id op)
    (whole : resource.id ≠ "*" → word (typeLevel resource.id) op = level "*" op) :
    nearest word (walkIDs typeLevel (createAncestorsResource resource)) op = nearest level (levels resource) op := by
  rw [nearest_walkIDs, nearest_levels, own, nearest_congr inherited]
  have tail : (level resource.id op).or ((nearest level (inheritedLevels resource) op).or
      (if resource.id ≠ "*" then word (typeLevel resource.id) op else none)) =
      (level resource.id op).or ((nearest level (inheritedLevels resource) op).or (level "*" op)) := by
    by_cases star : resource.id = "*"
    · -- the whole type was already heard as the resource itself
      rw [star]
      cases level "*" op <;> simp
    · rw [if_pos star, whole star]
  rw [tail]
  by_cases empty : resource.id = ""
  · rw [empty] at own ⊢
    rw [own]
    cases level "" op <;> simp
  · rw [silent empty, Option.none_or]

theorem resourceID_of_getPoliciesByResources (nonempty : tokens ≠ [])
    (found : getPoliciesByResourcesAndAccessToken table now resourceInfo tokens = .ok policies)
    {policy : PolicyInfo} (mem : policy ∈ policies) :
    policy.resourceID = "*" ∨ policy.resourceID ∈ resourceInfo.map (·.id) := by
  cases resourceInfo with
  | nil =>
    cases found
    cases mem
  | cons first rest =>
    simp only [getPoliciesByResourcesAndAccessToken, whereIn_ok nonempty, Except.ok.injEq] at found
    subst found
    obtain ⟨row, present, rfl⟩ := mem_map.mp mem
    have asked := (mem_filter.mp (mem_filter.mp present).1).2
    simp only [mem_collect, decide_eq_true_eq] at asked
    exact mem_cons.mp asked.1

private theorem mem_levels_iff (level : String) :
    level ∈ levels resource ↔ level = "*" ∨ level ∈ (createAncestorsResource resource).map (·.id) := by
  simp only [levels, map_id_createAncestorsResource, mem_append, mem_reverse, mem_cons]
  tauto

theorem empty_mem_levels_iff : "" ∈ levels resource ↔ resource.id = "" := by
  have nonempty (ancestor : String) : "" ≠ ancestor ++ "/*" := by
    intro same
    have length := congrArg String.length same
    have suffix : "/*".length = 2 := rfl
    rw [String.length_append, suffix] at length
    exact absurd length (by simp)
  simp only [levels, inheritedLevels, cons_append, mem_cons, mem_append, mem_reverse, mem_map]
  constructor
  · rintro (same | ⟨ancestor, _, same⟩ | same)
    · exact same.symm
    · exact absurd same.symm (nonempty ancestor.id)
    · exact absurd same (by decide)
  · exact fun same => .inl same.symm

theorem getPoliciesByResources_ok (table : PolicyTable) (now : Int) (held : tokens ≠ [])
    (resources : List ResourceInfo) :
    ∃ policies, getPoliciesByResourcesAndAccessToken table now resources tokens = .ok policies := by
  cases resources with
  | nil => exact ⟨[], rfl⟩
  | cons first rest => exact ⟨_, whereIn_ok held _⟩

/-- The walk of `check` over the policies it queried ends with the verdict. -/
theorem decision_check {resource : ResourceInfo} (held : tokens ≠ [])
    (queried : getPoliciesByResourcesAndAccessToken table now (createAncestorsResource resource) tokens = .ok policies)
    (data : Option Json) (op : String) : (calcResourceInheritedOperation (createAncestorsResource resource)
        (calcEach svc (fun _ => data) (groupBy (·.resourceID) policies))).decision op =
      verdict svc table now resource.type tokens (fun _ => data) (levels resource) op := by
  have heard (level : String) (mem : level ∈ levels resource) :
      (((calcEach svc (fun _ => data) (groupBy (·.resourceID) policies)).lookup level).getD .zero).mention op =
        levelWord svc table now resource.type tokens (fun _ => data) level op := by
    rw [mention_calcEach, filter_getPoliciesByResources (head_createAncestorsResource_type resource) held
      queried, mention_map_selected, levelWord]
    rcases (mem_levels_iff resource level).mp mem with whole | listed
    · exact .inl ⟨whole, by simp [createAncestorsResource]⟩
    · exact .inr listed
  rw [calcResourceInheritedOperation, decision_inheritedOperation]
  apply nearest_walkIDs_eq_levels
  · -- the padding levels have the empty id, under which the query found nothing
    intro named
    have none : policies.filter (fun policy => policy.resourceID = "") = [] := by
      rw [filter_eq_nil_iff]
      intro policy mem empty
      have asked := resourceID_of_getPoliciesByResources held queried mem
      rw [← mem_levels_iff, of_decide_eq_true empty, empty_mem_levels_iff] at asked
      exact named asked
    rw [mention_calcEach, none, mention_nil]
  · exact heard _ (by simp [levels])
  · exact fun level mem => heard level (by simp [levels, mem])
  · exact fun _ => heard "*" (by simp [levels])

/-- `check` answers, and its answer is the verdict with the data of the request at every level. -/
theorem check_spec (table : PolicyTable) (now : Int) (found : getAccessorIDs svc accessor = .ok tokens)
    (resource : ResourceInfo) (operation : List String) (includes : List PolicCalcyIncludeType) :
    ∃ checkResult, check svc table now resource accessor operation includes = .ok checkResult ∧
      (checkResult.result = true ↔ ∀ op ∈ operation,
        verdict svc table now resource.type tokens (fun _ => requestData resource accessor) (levels resource)
          op = some true) := by
  have held := getAccessorIDs_ne_nil found
  obtain ⟨policies, queried⟩ := getPoliciesByResources_ok table now held (createAncestorsResource resource)
  simp only [← decision_check held queried, ← InheritedOperation.allows_iff]
  simp only [check, found, queried, bind, Except.bind]
  cases allowed : (calcResourceInheritedOperation (createAncestorsResource resource)
    (calcEach svc (fun _ => requestData resource accessor)
        (groupBy (·.resourceID) policies))).allows operation with
  | true => exact ⟨_, rfl, by simp⟩
  | false => exact ⟨_, rfl, by simp⟩

/-- `check` answers and grants every operation. -/
def Granted (svc : Services) (table : PolicyTable) (now : Int) (accessor : AccessorInfo)
    (resource : ResourceInfo) (operation : List String) : Prop :=
  ∃ checkResult, check svc table now resource accessor operation [] = .ok checkResult ∧ checkResult.result = true

theorem granted_iff (found : getAccessorIDs svc accessor = .ok tokens) (resource : ResourceInfo)
    (operation : List String) : Granted svc table now accessor resource operation ↔ ∀ op ∈ operation,
      verdict svc table now resource.type tokens (fun _ => requestData resource accessor)
      (levels resource) op = some true := by
  obtain ⟨checkResult, answered, granted⟩ := check_spec table now found resource operation []
  rw [← granted, Granted, answered]
  exact ⟨fun ⟨_, same, result⟩ => Except.ok.inj same ▸ result, fun result => ⟨_, rfl, result⟩⟩

end SecurityFabric.Authorization
