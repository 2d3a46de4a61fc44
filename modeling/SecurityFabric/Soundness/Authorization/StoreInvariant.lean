import SecurityFabric.Proofs.Authorization.PolicyStore

/-! # What every reachable store keeps

One row a key, at most one unconditional rule a side, and no operation that is both allowed and denied unconditionally.
Requests and removals keep this from any such store. The initial policies of a service are stored without any check, so
they must keep it themselves.
-/

namespace SecurityFabric.Authorization

section

open PolicyTable RowUpdates List Function

variable {table : PolicyTable} {policys : List PolicyInfo} {now : Int} {svc : Services}
variable {old policy : PolicyInfo} {ids : List String} {visitor : Visitor}

/-- At most one unconditional rule a side. -/
@[mk_iff]
structure PolicyRules.Single (rules : PolicyRules) : Prop where
  allow : (unconditionalRules rules.allow).length ≤ 1
  deny : (unconditionalRules rules.deny).length ≤ 1

instance (rules : PolicyRules) : Decidable rules.Single := decidable_of_iff' _ (PolicyRules.single_iff rules)

/-- Each side has at most one unconditional rule, and no operation is in both. -/
@[mk_iff]
structure PolicyRules.Consistent (rules : PolicyRules) : Prop extends rules.Single where
  disjoint : ∀ op ∈ unconditionalIDs rules.allow, op ∉ unconditionalIDs rules.deny

instance (rules : PolicyRules) : Decidable rules.Consistent := decidable_of_iff' _ (PolicyRules.consistent_iff rules)

/-- One row a key, each with consistent rules. -/
structure PolicyTable.Consistent (table : PolicyTable) : Prop where
  keys : (table.map PolicyInfo.key).Nodup
  rules : ∀ row ∈ table, row.rules.Consistent

/-- What keeps a store consistent: a request has at most one unconditional rule a side, and initial
policies have distinct keys and clash neither with themselves nor with what is stored. -/
def StoreOp.Careful (table : PolicyTable) : StoreOp table → Prop
  | .create _ _ _ _ policys => ∀ policy ∈ policys, policy.rules.Single
  | .initPolicy _ _ policys => (policys.map PolicyInfo.key).Nodup ∧ ∀ policy ∈ policys,
      policy.rules.Consistent ∧ ∀ row ∈ table, row.key = policy.key →
        (∀ op ∈ unconditionalIDs row.rules.allow, op ∉ unconditionalIDs policy.rules.deny) ∧
          ∀ op ∈ unconditionalIDs policy.rules.allow, op ∉ unconditionalIDs row.rules.deny
  | _ => True

private theorem PolicyRules.Consistent.stored {rules : PolicyRules} (consistent : rules.Consistent) :
    rules.stored.Consistent where
  allow := single_storedRules consistent.allow
  deny := single_storedRules consistent.deny
  disjoint op allowed denied :=
    consistent.disjoint op ((unconditionalIDs_storedRules _ op).mp allowed)
      ((unconditionalIDs_storedRules _ op).mp denied)

private theorem ValidPolicy.consistent {policy : PolicyInfo} (valid : ValidPolicy now policy)
    (single : policy.rules.Single) : policy.rules.Consistent where
  toSingle := single
  disjoint := by
    rw [← noConditionIDs_of_single single.allow, ← noConditionIDs_of_single single.deny]
    exact valid.disjoint

/-- Merging rule by rule does so when neither side of one clashes with the other side of the other. -/
theorem consistent_mergeNewPolicyWithCondition (stored : old.rules.Consistent) (brought : policy.rules.Consistent)
    (allowed : ∀ op ∈ unconditionalIDs old.rules.allow, op ∉ unconditionalIDs policy.rules.deny)
    (denied : ∀ op ∈ unconditionalIDs policy.rules.allow, op ∉ unconditionalIDs old.rules.deny) :
    (mergeNewPolicyWithCondition old policy).rules.Consistent where
  allow := by
    rw [mergeNewPolicyWithCondition, length_mergeRuleItems]
    exact max_le stored.allow brought.allow
  deny := by
    rw [mergeNewPolicyWithCondition, length_mergeRuleItems]
    exact max_le stored.deny brought.deny
  disjoint op isAllowed isDenied := by
    rcases unconditionalIDs_mergeRuleItems isAllowed with old' | new <;>
      rcases unconditionalIDs_mergeRuleItems isDenied with old'' | new'
    · exact stored.disjoint op old' old''
    · exact allowed op old' new'
    · exact denied op new old''
    · exact brought.disjoint op new new'

private theorem consistent_updatedRules (stored : old.rules.Consistent)
    (disjoint : ∀ op ∈ noConditionIDs policy.rules.allow, op ∉ noConditionIDs policy.rules.deny) :
    (updatedRules old policy).Consistent := by
  obtain ⟨_, allow⟩ := single_replaceNoCondition stored.allow (getPolicyNoConditionOperations policy).1
  obtain ⟨_, deny⟩ := single_replaceNoCondition stored.deny (getPolicyNoConditionOperations policy).2
  refine ⟨⟨?_, ?_⟩, fun op allowed denied => ?_⟩
  · rw [updatedRules, allow]
    rfl
  · rw [updatedRules, deny]
    rfl
  · rw [updatedRules, unconditionalIDs, allow, flatMap_singleton] at allowed
    rw [updatedRules, unconditionalIDs, deny, flatMap_singleton] at denied
    exact disjoint op allowed denied

private theorem consistent_conditionalRules (allow deny : List PolicyRuleItem) :
    (PolicyRules.mk (conditionalRules allow) (conditionalRules deny)).Consistent := by
  refine ⟨⟨?_, ?_⟩, fun op allowed => ?_⟩
  · simp [unconditionalRules_conditionalRules]
  · simp [unconditionalRules_conditionalRules]
  · simp [unconditionalIDs, unconditionalRules_conditionalRules] at allowed

/-- The invariant of the store: consistent, with distinct identifiers. -/
structure PolicyTable.Invariant (table : PolicyTable) : Prop extends table.Consistent where
  ids : (table.map PolicyInfo.id).Nodup

private theorem invariant_empty : PolicyTable.Invariant [] where
  keys := nodup_nil
  rules _ mem := by cases mem
  ids := nodup_nil

private theorem PolicyTable.Invariant.filter (invariant : table.Invariant) (keep : PolicyInfo → Bool) :
    PolicyTable.Invariant (table.filter keep) where
  keys := invariant.keys.sublist (filter_sublist.map _)
  rules row mem := invariant.rules row (mem_filter.mp mem).1
  ids := invariant.ids.sublist (filter_sublist.map _)

private theorem PolicyTable.Invariant.relabel (invariant : table.Invariant) (chosen : PolicyInfo → Prop)
    [DecidablePred chosen] {rewrite : PolicyInfo → PolicyInfo} (keepsID : ∀ row, (rewrite row).id = row.id)
    (keepsKey : ∀ row, (rewrite row).key = row.key) (keepsRules : ∀ row, (rewrite row).rules = row.rules) :
    PolicyTable.Invariant (table.map fun row => if chosen row then rewrite row else row) := by
  refine ⟨⟨?_, fun row mem => ?_⟩, ?_⟩
  · simpa [comp_def, apply_ite PolicyInfo.key, keepsKey] using invariant.keys
  · obtain ⟨old, stored, rfl⟩ := mem_map.mp mem
    simpa [apply_ite PolicyInfo.rules, keepsRules] using invariant.rules old stored
  · simpa [comp_def, apply_ite PolicyInfo.id, keepsID] using invariant.ids

/-- Updating rows with consistent rules. -/
theorem PolicyTable.Invariant.update (invariant : table.Invariant) (now : Int)
    (consistent : ∀ policy ∈ policys, (∃ row ∈ table, row.id = policy.id) → policy.rules.Consistent) :
    PolicyTable.Invariant (PolicyTable.update table now policys) := by
  rw [update_eq_map]
  refine ⟨⟨?_, fun row mem => ?_⟩, ?_⟩
  · simpa [comp_def] using invariant.keys
  · obtain ⟨old, stored, rfl⟩ := mem_map.mp mem
    -- along the updates the row keeps its identifier, by which they name it
    have both : (rewritten now policys old).id = old.id ∧ (rewritten now policys old).rules.Consistent := by
      refine applyAll_induction (P := fun row : PolicyInfo => row.id = old.id ∧
        row.rules.Consistent) ⟨rfl, invariant.rules old stored⟩ ?_
      rintro policy planned row named ⟨same, -⟩
      exact ⟨same, (consistent policy planned ⟨old, stored, (named.trans same).symm⟩).stored⟩
    exact both.2
  · simpa [comp_def] using invariant.ids

/-- Writing a plan whose merges and insertions have consistent rules. -/
theorem PolicyTable.Invariant.writePlan {isSame : PolicyInfo → PolicyInfo → Bool}
    {merge : PolicyInfo → PolicyInfo → PolicyInfo}
    {idNameMap : GoMap String String} (invariant : table.Invariant)
    (keepsID : ∀ old policy, (merge old policy).id = old.id) (keys : (policys.map PolicyInfo.key).Nodup)
    (now : Int) (new : NewIDs table)
    (merged : ∀ policy ∈ policys, ∀ old ∈ table, old.key = policy.key → (merge old policy).rules.Consistent)
    (inserted : ∀ policy ∈ policys, latest table policy.key = none → policy.rules.Consistent) : PolicyTable.Invariant
      (Authorization.writePlan table now (planBatch isSame merge table new.newV4 policys idNameMap)) where
  keys := nodup_key_writePlan keepsID keys now new invariant.keys
  ids := nodup_id_writePlan keepsID invariant.ids now new
  rules row mem := by
    rcases mem_writePlan keepsID invariant.ids keys now new mem with
      stored | ⟨policy, asked, old, found, rfl⟩ | ⟨policy, asked, unknown, n, rfl⟩
    · exact invariant.rules row stored
    · exact (merged policy asked old (latest_mem found).1 (latest_mem found).2).stored
    · exact (inserted policy asked unknown).stored

private theorem mem_of_lookup_getByPolicyIDs {id : String} {row : PolicyInfo}
    (found : (getByPolicyIDs table ids).lookup id = some row) :
    row ∈ table ∧ row.id = id := by
  rw [getByPolicyIDs, GoMap.lookup_assign, AList.lookup_empty, Option.or_none, Option.map_id_fun] at found
  refine ⟨(mem_filter.mp (mem_reverse.mp (mem_of_find?_eq_some found))).1, ?_⟩
  simpa using find?_some found

variable {table after : PolicyTable}

private theorem invariant_create {call : CreateCall} {policyIDs : List String} (invariant : table.Invariant)
    (new : NewIDs table) (single : ∀ policy ∈ policys, policy.rules.Single)
    (ran : call.run svc table now new.newV4 policys = .ok (policyIDs, after)) : after.Invariant := by
  obtain ⟨keys, valid, idNameMap, rfl⟩ := CreateCall.run_ok ran
  refine invariant.writePlan mergeNewPolicy_id keys now new ?_ ?_
  · exact fun policy _ old _ _ => ⟨⟨(single_mergeNewPolicy old policy).1, (single_mergeNewPolicy old policy).2⟩,
      fun op allowed => ((mergeNewPolicy_allow old policy op).mp allowed).2⟩
  · exact fun policy asked _ => (valid policy asked).consistent (single policy asked)

private theorem invariant_initPolicy (invariant : table.Invariant) (new : NewIDs table)
    (careful : (StoreOp.initPolicy now new policys).Careful table) :
    (initPolicy table now new.newV4 policys).Invariant := by
  obtain ⟨keys, brought⟩ := careful
  refine invariant.writePlan mergeNewPolicyWithCondition_id keys now new ?_ fun policy asked _ =>
    (brought policy asked).1
  intro policy asked old stored same
  obtain ⟨consistent, clashes⟩ := brought policy asked
  exact consistent_mergeNewPolicyWithCondition (invariant.rules old stored) consistent (clashes old stored same).1
    (clashes old stored same).2

private theorem invariant_update (invariant : table.Invariant)
    (ran : update svc table now visitor policys = .ok after) : after.Invariant := by
  obtain ⟨-, rfl, valid⟩ := update_ok ran
  refine invariant.update now ?_
  intro planned mem stored
  obtain ⟨policy, asked, rfl⟩ := mem_map.mp mem
  cases found : (getByPolicyIDs table (policys.map (·.id))).lookup policy.id with
  | none =>
    rw [found] at stored
    obtain ⟨row, present, same⟩ := stored
    refine absurd found ?_
    rw [← same]
    exact lookup_getByPolicyIDs_ne_none present (same ▸ mem_map_of_mem asked)
  | some old =>
    have disjoint := valid policy asked (by rw [found]; exact Option.some_ne_none old)
    exact consistent_updatedRules (invariant.rules old (mem_of_lookup_getByPolicyIDs found).1) disjoint

private theorem invariant_delete (invariant : table.Invariant) (ran : delete svc table now visitor ids = .ok after) :
    after.Invariant := by
  rw [delete_ok ran]
  refine (invariant.update now fun planned mem _ => ?_).filter _
  obtain ⟨policy, -, rfl⟩ := mem_map.mp mem
  exact consistent_conditionalRules policy.rules.allow policy.rules.deny

/-- One careful operation keeps the invariant. -/
theorem StoreOp.Careful.invariant {op : StoreOp table} (careful : op.Careful table) (invariant : table.Invariant) :
    op.run.Invariant := by
  cases op with
  | create svc call now new policys =>
    rw [StoreOp.run]
    split
    case h_1 ran => exact invariant_create invariant new careful ran
    case h_2 => exact invariant
  | update svc visitor now policys =>
    rw [StoreOp.run]
    split
    case h_1 ran => exact invariant_update invariant ran
    case h_2 => exact invariant
  | delete svc visitor now ids =>
    rw [StoreOp.run]
    split
    case h_1 ran => exact invariant_delete invariant ran
    case h_2 => exact invariant
  | initPolicy now new policys => exact invariant_initPolicy invariant new careful
  | deleteByResourceIDs resources | deletePolicyByAccessorID accessorID | deleteByEndTime curTime =>
      exact invariant.filter _
  | updateAccessorName accessorID name =>
    exact invariant.relabel _ (fun _ => rfl) (fun _ => rfl) fun _ => rfl
  | updateResourceName resourceID resourceType name | updateResourceAncestors resourceID resourceType ancestors =>
    exact invariant.relabel _ (fun _ => rfl) (fun _ => rfl) fun _ => rfl

private theorem Reachable.invariant (reachable : Reachable StoreOp.Careful table) : table.Invariant := by
  induction reachable with
  | empty => exact invariant_empty
  | step _ op careful ih => exact careful.invariant ih

open Sample

end

/-! # What updating and deleting policies leaves

An update is meant to replace the unconditional operations of the policies it names. It replaces those of the first
unconditional rule of each side, so the operations of any further one stay. Deleting looks at every rule and keeps
exactly the conditional ones.
-/

section

open PolicyTable RowUpdates List GoMap Function

/-- Distinct ids, and rules as they read back. -/
structure PolicyTable.Stored (table : PolicyTable) : Prop where
  ids : (table.map PolicyInfo.id).Nodup
  rules : ∀ row ∈ table, row.rules.stored = row.rules

private theorem stored_stored (rules : PolicyRules) : rules.stored.stored = rules.stored := by
  have allow := storedRules_storedRules rules.allow
  have deny := storedRules_storedRules rules.deny
  rw [PolicyRules.stored]
  congr 1

variable {table : PolicyTable}

private theorem PolicyTable.Stored.filter (stored : table.Stored) (keep : PolicyInfo → Bool) :
    PolicyTable.Stored (table.filter keep) where
  ids := stored.ids.sublist (filter_sublist.map _)
  rules row mem := stored.rules row (mem_filter.mp mem).1

private theorem PolicyTable.Stored.relabel (stored : table.Stored) (chosen : PolicyInfo → Prop)
    [DecidablePred chosen] {rewrite : PolicyInfo → PolicyInfo} (keepsID : ∀ row, (rewrite row).id = row.id)
    (keepsRules : ∀ row, (rewrite row).rules = row.rules) :
    PolicyTable.Stored (table.map fun row => if chosen row then rewrite row else row) where
  ids := by simpa [comp_def, apply_ite PolicyInfo.id, keepsID] using stored.ids
  rules row mem := by
    obtain ⟨old, present, rfl⟩ := mem_map.mp mem
    simpa [apply_ite PolicyInfo.rules, keepsRules] using stored.rules old present

private theorem stored_rewritten {row : PolicyInfo} (stored : row.rules.stored = row.rules) (now : Int)
    (policys : List PolicyInfo) : (rewritten now policys row).rules.stored = (rewritten now policys row).rules := by
  refine applyAll_induction (P := fun row : PolicyInfo => row.rules.stored = row.rules) stored ?_
  exact fun policy _ _ _ _ => stored_stored policy.rules

private theorem PolicyTable.Stored.update (stored : table.Stored) (now : Int) (policys : List PolicyInfo) :
    PolicyTable.Stored (PolicyTable.update table now policys) := by
  rw [update_eq_map]
  refine ⟨by simpa [comp_def] using stored.ids, fun row mem => ?_⟩
  obtain ⟨old, present, rfl⟩ := mem_map.mp mem
  exact stored_rewritten (stored.rules old present) now policys

variable {policys : List PolicyInfo}

private theorem PolicyTable.Stored.writePlan {isSame : PolicyInfo → PolicyInfo → Bool}
    {merge : PolicyInfo → PolicyInfo → PolicyInfo}
    {idNameMap : GoMap String String} (stored : table.Stored) (keepsID : ∀ old policy, (merge old policy).id = old.id)
    (now : Int) (new : NewIDs table) :
    PolicyTable.Stored (Authorization.writePlan table now
      (planBatch isSame merge table new.newV4 policys idNameMap)) where
  ids := nodup_id_writePlan keepsID stored.ids now new
  rules row mem := by
    rw [writePlan_planBatch keepsID] at mem
    rcases mem_append.mp mem with kept | fresh
    · obtain ⟨old, present, rfl⟩ := mem_map.mp kept
      exact stored_rewritten (stored.rules old present) now _
    · obtain ⟨policy, -, rfl⟩ := mem_map.mp fresh
      exact stored_stored policy.rules

/-- One operation of any kind. -/
theorem PolicyTable.Stored.run (stored : table.Stored) (op : StoreOp table) : op.run.Stored := by
  cases op with
  | create svc call now new policys =>
    rw [StoreOp.run]
    split
    case h_1 ran =>
      obtain ⟨-, -, idNameMap, rfl⟩ := CreateCall.run_ok ran
      exact stored.writePlan mergeNewPolicy_id now new
    case h_2 => exact stored
  | update svc visitor now policys =>
    rw [StoreOp.run]
    split
    case h_1 ran =>
      obtain ⟨-, rfl, -⟩ := update_ok ran
      exact stored.update now _
    case h_2 => exact stored
  | delete svc visitor now ids =>
    rw [StoreOp.run]
    split
    case h_1 ran =>
      rw [delete_ok ran]
      exact (stored.update now _).filter _
    case h_2 => exact stored
  | initPolicy now new policys =>
    exact stored.writePlan mergeNewPolicyWithCondition_id now new
  | deleteByResourceIDs resources | deletePolicyByAccessorID accessorID | deleteByEndTime curTime =>
      exact stored.filter _
  | updateAccessorName accessorID name | updateResourceName resourceID resourceType name
  | updateResourceAncestors resourceID resourceType ancestors => exact stored.relabel _ (fun _ => rfl) fun _ => rfl

private theorem Reachable.stored {meets : ∀ table, StoreOp table → Prop} {table : PolicyTable}
    (reachable : Reachable meets table) :
    table.Stored := by
  induction reachable with
  | empty => exact ⟨nodup_nil, fun _ mem => by cases mem⟩
  | step _ op _ ih => exact ih.run op

variable {ids : List String}

private theorem PolicyTable.Stored.lookup (stored : table.Stored) {row : PolicyInfo} (mem : row ∈ table)
    (named : row.id ∈ ids) : (getByPolicyIDs table ids).lookup row.id = some row := by
  obtain ⟨found, isFound⟩ := Option.ne_none_iff_exists'.mp (lookup_getByPolicyIDs_ne_none mem named)
  obtain ⟨present, same⟩ := mem_of_lookup_getByPolicyIDs isFound
  rw [isFound, inj_on_of_nodup_map stored.ids present mem same]

/-- Those of all unconditional rules but the first. -/
def laterOperations (rules : List PolicyRuleItem) : List PolicyOperationItem :=
  (unconditionalRules rules).tail.flatMap (·.operations)

/-- The operations a request asks for on a side, as they are stored. -/
def requestedOperations (rules : List PolicyRuleItem) : List PolicyOperationItem :=
  (noConditionOperations rules).map PolicyOperationItem.stored

/-- A side as an update should leave it: the requested operations without a condition, the rules with one. -/
def SideUpdated (requested before after : List PolicyRuleItem) : Prop :=
  (∀ op, op ∈ unconditionalOperations after ↔ op ∈ requestedOperations requested) ∧
    conditionalRules after = conditionalRules before

/-- A row before and after an update. -/
structure Updated (policys : List PolicyInfo) (before after : PolicyInfo) : Prop where
  named : ∀ request ∈ policys, request.id = before.id → after.endTime = request.endTime ∧
    SideUpdated request.rules.allow before.rules.allow after.rules.allow ∧
    SideUpdated request.rules.deny before.rules.deny after.rules.deny
  other : (∀ request ∈ policys, request.id ≠ before.id) → after = before

/-- What further unconditional rules of the named rows name is requested too. -/
def NothingLeftOver (policys : List PolicyInfo) (table : PolicyTable) : Prop :=
  ∀ row ∈ table, ∀ request ∈ policys, request.id = row.id →
    (∀ op ∈ laterOperations row.rules.allow, op ∈ requestedOperations request.rules.allow) ∧
      ∀ op ∈ laterOperations row.rules.deny, op ∈ requestedOperations request.rules.deny

variable {rules : List PolicyRuleItem}

private theorem sideUpdated_iff (stored : storedRules rules = rules) (requested : List PolicyRuleItem) :
    SideUpdated requested rules (storedRules (replaceNoCondition (noConditionOperations requested) rules)) ↔
      ∀ op ∈ laterOperations rules, op ∈ requestedOperations requested := by
  obtain ⟨condition, replaced⟩ := unconditionalRules_replaceNoCondition (noConditionOperations requested) rules
  have kept : conditionalRules (storedRules (replaceNoCondition (noConditionOperations requested) rules)) =
      conditionalRules rules := by
    rw [conditionalRules_storedRules, conditionalRules_replaceNoCondition, ← conditionalRules_storedRules, stored]
  have later : (laterOperations rules).map PolicyOperationItem.stored = laterOperations rules := by
    refine (map_congr_left fun op isLater => ?_).trans (map_id _)
    obtain ⟨rule, mem, named⟩ := mem_flatMap.mp isLater
    have inRules := (mem_filter.mp (mem_of_mem_tail mem)).1
    rw [← stored] at inRules
    obtain ⟨original, -, rfl⟩ := mem_map.mp inRules
    obtain ⟨asked, -, rfl⟩ := mem_map.mp named
    rfl
  have operations : unconditionalOperations (storedRules (replaceNoCondition (noConditionOperations requested) rules)) =
      requestedOperations requested ++ laterOperations rules := by
    rw [unconditionalOperations, unconditionalRules, operations_storedRules isConditionEmpty_stored,
      ← unconditionalRules, replaced]
    rw [flatMap_cons, map_append, ← laterOperations, later]
    rfl
  rw [SideUpdated, and_iff_left kept, operations]
  simp only [mem_append]
  constructor
  · exact fun same op isLater => (same op).mp (.inr isLater)
  · exact fun asked op => ⟨fun mem => mem.elim id (asked op), .inl⟩

private theorem updated_iff (stored : table.Stored) (now : Int) (distinct : (policys.map (·.id)).Nodup)
    {row : PolicyInfo} (mem : row ∈ table) :
    Updated policys row (rewritten now (updatesOf table policys) row) ↔
      ∀ request ∈ policys, request.id = row.id → (∀ op ∈ laterOperations row.rules.allow, op ∈
        requestedOperations request.rules.allow) ∧
          ∀ op ∈ laterOperations row.rules.deny, op ∈ requestedOperations request.rules.deny := by
  have written (request : PolicyInfo) (asked : request ∈ policys) (named : request.id = row.id) :
      rewritten now (updatesOf table policys) row = overwritten now
      { request with rules := updatedRules row request } row := by
    have found : (getByPolicyIDs table (policys.map (·.id))).lookup request.id = some row := by
      rw [named]
      exact stored.lookup mem (named ▸ mem_map_of_mem asked)
    refine applyAll_of_mem overwritten_id (map_id_updatesOf table policys ▸ distinct) ?_ named
    exact mem_map.mpr ⟨request, asked, by rw [found]⟩
  have rules := stored.rules row mem
  constructor
  · intro updated request asked named
    obtain ⟨-, allow, deny⟩ := updated.named request asked named
    rw [written request asked named] at allow deny
    exact ⟨(sideUpdated_iff (congrArg PolicyRules.allow rules) _).mp allow,
      (sideUpdated_iff (congrArg PolicyRules.deny rules) _).mp deny⟩
  · intro nothing
    refine ⟨fun request asked named => ?_, fun foreign => ?_⟩
    · obtain ⟨allow, deny⟩ := nothing request asked named
      rw [written request asked named]
      exact ⟨rfl, (sideUpdated_iff (congrArg PolicyRules.allow rules) _).mpr allow,
        (sideUpdated_iff (congrArg PolicyRules.deny rules) _).mpr deny⟩
    · refine applyAll_of_forall_ne fun planned isPlanned named => ?_
      have asked : planned.id ∈ policys.map (·.id) := by
        rw [← map_id_updatesOf table]
        exact mem_map_of_mem isPlanned
      obtain ⟨request, asked, same⟩ := mem_map.mp asked
      exact foreign request asked (same.trans named)

private theorem forall₂_updated_iff {svc : Services} {visitor : Visitor} {table after : PolicyTable} {now : Int}
    {policys : List PolicyInfo} (stored : table.Stored) (ran : update svc table now visitor policys = .ok after) :
    Forall₂ (Updated policys) table after ↔ NothingLeftOver policys table := by
  obtain ⟨distinct, rfl, -⟩ := update_ok ran
  rw [update_eq_map, forall₂_map_right_iff, forall₂_same]
  exact forall₂_congr fun row mem => updated_iff stored now distinct mem

/-- A row that a deletion leaves, before and after it. -/
structure Deleted (ids : List String) (before after : PolicyInfo) : Prop where
  named : before.id ∈ ids → after.endTime = before.endTime ∧
    after.rules = ⟨conditionalRules before.rules.allow, conditionalRules before.rules.deny⟩
  other : before.id ∉ ids → after = before

private theorem mem_values_getByPolicyIDs (stored : table.Stored) {row : PolicyInfo} :
    row ∈ GoMap.values (getByPolicyIDs table ids) ↔ row ∈ table ∧ row.id ∈ ids := by
  rw [mem_values]
  constructor
  · rintro ⟨id, found⟩
    obtain ⟨mem, rfl⟩ := mem_of_lookup_getByPolicyIDs found
    refine ⟨mem, ?_⟩
    have known : row.id ∈ getByPolicyIDs table ids := AList.lookup_isSome.mp (by rw [found]; rfl)
    rw [getByPolicyIDs, mem_assign] at known
    rcases known with ⟨other, chosen, same⟩ | absent
    · rw [← same]
      simpa using (mem_filter.mp chosen).2
    · cases absent
  · rintro ⟨mem, named⟩
    exact ⟨row.id, stored.lookup mem named⟩

/-- The rows that stay are those not named and those with a condition, of which the conditional rules stay. -/
theorem forall₂_deleted {svc : Services} {visitor : Visitor} {after : PolicyTable} {now : Int} (stored : table.Stored)
    (ran : delete svc table now visitor ids = .ok after) :
    Forall₂ (Deleted ids) (table.filter fun row => decide (row.id ∉ ids) || hasCondition row) after := by
  have keyed : GoMap.Keyed (·.id) (getByPolicyIDs table ids) := (keyed_empty _).assign _
  have stays (row : PolicyInfo) (mem : row ∈ table) :
      row.id ∉ ((GoMap.values (getByPolicyIDs table ids)).filter fun policy => !hasCondition policy).map (·.id) ↔
        row.id ∉ ids ∨ hasCondition row = true := by
    rw [← not_iff_not, not_not, not_or, not_not, Bool.not_eq_true, mem_map]
    constructor
    · rintro ⟨other, removed, same⟩
      obtain ⟨isOther, plain⟩ := mem_filter.mp removed
      obtain ⟨otherMem, named⟩ := (mem_values_getByPolicyIDs stored).mp isOther
      rw [inj_on_of_nodup_map stored.ids otherMem mem same] at named plain
      exact ⟨named, by simpa using plain⟩
    · rintro ⟨named, plain⟩
      refine ⟨row, mem_filter.mpr ⟨(mem_values_getByPolicyIDs stored).mpr ⟨mem, named⟩, ?_⟩, rfl⟩
      rw [plain]
      rfl
  have kept : after = (table.filter fun row => decide (row.id ∉ ids) || hasCondition row).map
      (rewritten now (((GoMap.values (getByPolicyIDs table ids)).filter hasCondition).map strippedOf)) := by
    rw [delete_ok ran, PolicyTable.delete, update_eq_map, filter_map]
    congr 1
    refine filter_congr fun row mem => ?_
    rw [comp_apply, rewritten_id, decide_eq_decide.mpr (stays row mem), Bool.decide_or, Bool.decide_eq_true]
  generalize isPlan : ((GoMap.values (getByPolicyIDs table ids)).filter hasCondition).map strippedOf = plan at kept
  rw [kept, forall₂_map_right_iff, forall₂_same]
  intro row isKept
  obtain ⟨mem, keeps⟩ := mem_filter.mp isKept
  refine ⟨fun named => ?_, fun notNamed => ?_⟩
  · have conditional : hasCondition row = true := by simpa [named] using keeps
    have distinct : (plan.map PolicyInfo.id).Nodup := by
      rw [← isPlan, map_map]
      exact keyed.nodup_map_values.sublist (filter_sublist.map _)
    have stripped : strippedOf row ∈ plan := isPlan ▸
      mem_map_of_mem (mem_filter.mpr ⟨(mem_values_getByPolicyIDs stored).mpr ⟨mem, named⟩, conditional⟩)
    have written : rewritten now plan row = overwritten now (strippedOf row) row :=
      applyAll_of_mem overwritten_id distinct stripped rfl
    rw [written]
    refine ⟨rfl, ?_⟩
    -- the conditional rules of a stored side are stored as they are
    have side (rules : List PolicyRuleItem) (isStored : storedRules rules = rules) :
        storedRules (conditionalRules rules) = conditionalRules rules := by
      rw [← conditionalRules_storedRules, isStored]
    have rules := stored.rules row mem
    exact congrArg₂ PolicyRules.mk (side _ (congrArg PolicyRules.allow rules))
      (side _ (congrArg PolicyRules.deny rules))
  · refine applyAll_of_forall_ne fun planned isPlanned same => notNamed ?_
    obtain ⟨other, isOther, rfl⟩ := mem_map.mp (isPlan ▸ isPlanned)
    rw [← same]
    exact ((mem_values_getByPolicyIDs stored).mp (mem_filter.mp isOther).1).2

open Sample

/-- Services for a security administrator. -/
def adminServices : Services := { services with getUserRolesByUserID := fun _ => .ok [.securityAdmin] }

def admin : Visitor where
  id := "admin"
  type := .realName
  language := simplifiedChinese

/-- An initial policy with two unconditional permissions. -/
def twoPermissions : StoreOp [] := .initPolicy 100 (newIDs 'u' [] (by decide)) [row "d" [rule "read", rule "write"] []]

private theorem reachable_twoPermissions : Reachable (fun _ _ => True) twoPermissions.run :=
  .step .empty twoPermissions trivial

/-- A request for the first of them. -/
def readOnly : PolicyInfo := { row "d" [rule "read"] [] with id := newV4 'u' 0 }

end

/-! # Rules are read back as they were written

Each part of the text is read back by the reader's function for it: the obligations, an operation, a rule, a side.
Together they give the rules as the policy table has them, without the rules that name no operation. Such rules, nil
conditions and names of operations make no difference to what is allowed and denied.
-/

open List

variable (svc : Services) (data : Option Json)

private theorem getObligations_makeObligations (obligations : List PolicyObligationItem) :
    getObligations (makeObligations obligations) = .ok obligations := by
  have read := @mapM_map_ok ReadError _ _ obligations _ (fun v : PolicyObligationItem =>
    Json.obj [("type_id", .str v.typeID), ("id", .str v.id), ("value", v.value)]) parseObligation (fun v => v)
    fun _ _ => rfl
  rw [map_id'] at read
  exact read

private theorem parseOperation_written (op : PolicyOperationItem) :
    parseOperation (.obj [("id", .str op.id), ("obligations", makeObligations op.obligations)]) = .ok op.stored := by
  change (getObligations (makeObligations op.obligations) >>= fun obligations =>
    Except.ok (⟨op.id, "", obligations⟩ : PolicyOperationItem)) = _
  rw [getObligations_makeObligations]
  rfl

private theorem parseConditionItem_makeConditionItem (item : PolicyRuleItem) :
    parseConditionItem (makeConditionItem item) = .ok item.stored := by
  have read := @mapM_map_ok ReadError _ _ item.operations _ _ parseOperation PolicyOperationItem.stored fun op _ =>
    parseOperation_written op
  rw [makeConditionItem, PolicyRuleItem.stored]
  cases item.condition <;>
    · change (mapM parseOperation _ >>= _) = _
      rw [read]
      rfl

private theorem rulesStrToInfo_rulesInfoToString (rules : PolicyRules) :
    rulesStrToInfo (rulesInfoToString rules) = .ok rules.stored := by
  have read (side : List PolicyRuleItem) := @mapM_map_ok ReadError _ _
    (side.filter fun item => !item.operations.isEmpty) _ _ parseConditionItem PolicyRuleItem.stored fun item _ =>
      parseConditionItem_makeConditionItem item
  change (mapM parseConditionItem _ >>= fun allow =>
    mapM parseConditionItem _ >>= fun deny => .ok (⟨allow, deny⟩ : PolicyRules)) = _
  rw [read, read]
  rfl

private theorem ruleApplies_stored (rule : PolicyRuleItem) :
    ruleApplies svc data rule.stored = ruleApplies svc data rule := by
  rw [ruleApplies, ruleApplies, isConditionEmpty_stored]
  cases empty : isConditionEmpty rule.condition with
  | true => rfl
  | false =>
    have same : rule.stored.condition = rule.condition := by
      rw [PolicyRuleItem.stored]
      cases isCondition : rule.condition with
      | null => rw [isCondition] at empty; cases empty
      | _ => rfl
    rw [same]

private theorem ruleOperations_storedRules (rules : List PolicyRuleItem) :
    ruleOperations svc data (storedRules rules) = (ruleOperations svc data rules).map PolicyOperationItem.stored :=
  operations_storedRules (ruleApplies_stored svc data) rules

/-- Both readers give back the rules as stored, and what they allow and deny is the same. -/
theorem rules_read_back (rules : PolicyRules) :
    rulesStrToInfo (rulesInfoToString rules) = .ok rules.stored ∧
    calcRulesStrToInfo (rulesInfoToString rules) = .ok rules.stored ∧
      ∀ (svc : Services) (data : Option Json) (policies : List PolicyInfo),
        calcOneResourcePerm svc data (policies.map fun policy => { policy with rules := policy.rules.stored }) =
          calcOneResourcePerm svc data policies := by
  refine ⟨rulesStrToInfo_rulesInfoToString rules, rulesStrToInfo_rulesInfoToString rules, fun svc data policies => ?_⟩
  have deny (policy : PolicyInfo) : ruleOperations svc data policy.rules.stored.deny = _ :=
    ruleOperations_storedRules svc data policy.rules.deny
  have allow (policy : PolicyInfo) : ruleOperations svc data policy.rules.stored.allow = _ :=
    ruleOperations_storedRules svc data policy.rules.allow
  simp only [calcOneResourcePerm, flatMap_map, deny, allow, map_map, filter_map]
  rfl

private theorem makeConditionItem_stored (item : PolicyRuleItem) :
    makeConditionItem item.stored = makeConditionItem item := by
  rw [makeConditionItem, makeConditionItem, PolicyRuleItem.stored, map_map]
  cases item.condition <;> rfl

private theorem sideToJson_stored (rules : List PolicyRuleItem) :
    sideToJson ((rules.filter fun item => !item.operations.isEmpty).map PolicyRuleItem.stored) = sideToJson rules := by
  have same : (fun item : PolicyRuleItem => !item.operations.isEmpty) ∘ PolicyRuleItem.stored = fun item =>
      !item.operations.isEmpty := by
    funext item
    simp [PolicyRuleItem.stored]
  rw [sideToJson, filter_map, same, filter_filter, map_map]
  simp only [Bool.and_self, Function.comp_def, makeConditionItem_stored]
  rfl

/-- Rules that were read are written as the same text again. -/
theorem read_rules_written_again (rules : PolicyRules) :
    rulesInfoToString <$> rulesStrToInfo (rulesInfoToString rules) = .ok (rulesInfoToString rules) := by
  rw [rulesStrToInfo_rulesInfoToString]
  change Except.ok (rulesInfoToString rules.stored) = _
  rw [rulesInfoToString, rulesInfoToString, PolicyRules.stored, sideToJson_stored, sideToJson_stored]

end SecurityFabric.Authorization
