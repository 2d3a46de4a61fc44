import SecurityFabric.ToMathlib.RowUpdates
import SecurityFabric.Proofs.Authorization.PolicyRules

/-! # What a planned write does to the table

A creating request and the initial policies share one plan: a policy whose key has a row changes that row, or leaves it
when nothing would change, and a policy whose key has none becomes a new row. The results assume distinct identifiers,
which version 4 identifiers provide, and distinct keys of a batch, which the validation of a request checks.
-/

namespace SecurityFabric.Authorization

section

open RowUpdates List GoMap Function AList

variable {policy : PolicyInfo} {table : PolicyTable} {key : String × String × String} {row : PolicyInfo}

namespace PolicyTable

section

variable (table : PolicyTable) (key : String × String × String) (now : Int)
  (policys : List PolicyInfo) (row : PolicyInfo)

/-- The rows of a key. -/
def rowsOf : List PolicyInfo := table.filter fun row => row.key = key

/-- The row a request finds under a key: of several the last. -/
def latest : Option PolicyInfo := (rowsOf table key).getLast?

/-- A row as an insertion stores it. -/
def inserted (policy : PolicyInfo) : PolicyInfo :=
  { policy with rules := policy.rules.stored, hasAncestors := false, createTime := now, modifyTime := now }

/-- A row after an update that names it. -/
def overwritten (policy row : PolicyInfo) : PolicyInfo :=
  { row with
    rules := policy.rules.stored, endTime := policy.endTime, condition := policy.condition, modifyTime := now }

theorem overwritten_id {now : Int} (change row : PolicyInfo) : (overwritten now change row).id = row.id := rfl

theorem mergeNewPolicy_id (old policy : PolicyInfo) : (mergeNewPolicy old policy).id = old.id := rfl

theorem mergeNewPolicyWithCondition_id (old policy : PolicyInfo) :
    (mergeNewPolicyWithCondition old policy).id = old.id := rfl

/-- A row after all the updates that name it. -/
def rewritten : PolicyInfo :=
  applyAll PolicyInfo.id PolicyInfo.id (overwritten now) policys row

theorem update_eq_map :
    update table now policys = table.map (rewritten now policys) := foldl_map_apply policys table

private theorem create_eq_append : create table now policys = table ++ policys.map (inserted now) := rfl

@[simp] theorem rewritten_id : (rewritten now policys row).id = row.id := by
  apply applyAll_keeps
  exact fun _ _ => rfl

@[simp] theorem rewritten_key : (rewritten now policys row).key = row.key := by
  apply applyAll_keeps
  exact fun _ _ => rfl

@[simp] theorem inserted_key (policy : PolicyInfo) : (inserted now policy).key = policy.key := rfl

end

private theorem mem_rowsOf : row ∈ rowsOf table key ↔ row ∈ table ∧ row.key = key := by
  simp [rowsOf]

private theorem rowsOf_append (table rest : PolicyTable) (key : String × String × String) :
    rowsOf (table ++ rest) key = rowsOf table key ++ rowsOf rest key := filter_append ..

private theorem rowsOf_map {f : PolicyInfo → PolicyInfo} (keeps : ∀ row, (f row).key = row.key) (table : PolicyTable)
    (key : String × String × String) : rowsOf (table.map f) key = (rowsOf table key).map f := by
  simp [rowsOf, filter_map, comp_def, keeps]

theorem latest_mem (found : latest table key = some row) : row ∈ table ∧ row.key = key :=
  mem_rowsOf.mp (mem_of_getLast? found)

private theorem latest_eq_none : latest table key = none ↔ rowsOf table key = [] := getLast?_eq_none_iff

end PolicyTable

open PolicyTable

/-- The nested maps built from the rows of a batch's resources give the latest row of the key. -/
theorem oldPolicyOf_eq_latest (table : PolicyTable) {policys : List PolicyInfo} (mem : policy ∈ policys) :
    oldPolicyOf table (GoMap.concat (·.resourceType) (fun policy => [policy.resourceID]) policys ∅) policy =
      latest table policy.key := by
  have sameType : policy ∈ policys.filter (fun other => other.resourceType = policy.resourceType) := by
    simpa using mem
  have resources : (GoMap.concat (·.resourceType) (fun policy : PolicyInfo => [policy.resourceID]) policys ∅).lookup
      policy.resourceType = some ((policys.filter fun other => other.resourceType = policy.resourceType).map
        (·.resourceID)) := by
    rw [lookup_concat, if_neg (ne_nil_of_mem sameType), map_eq_flatMap]
    rfl
  have asked : policy.resourceID ∈ (policys.filter fun other =>
      other.resourceType = policy.resourceType).map (·.resourceID) :=
    mem_map_of_mem sameType
  simp only [oldPolicyOf, resources, Option.bind_eq_bind, Option.bind_some, getByResourceIDs,
    whereIn_ok (ne_nil_of_mem asked), Except.toOption, lookup_groupBy, filter_filter]
  generalize isRows : table.filter _ = rows
  have ofKey : rowsOf table policy.key = rows.filter fun row => row.accessorID = policy.accessorID := by
    rw [← isRows, filter_filter]
    refine filter_congr fun row _ => ?_
    rw [Bool.eq_iff_iff]
    simp only [PolicyInfo.key, Prod.mk.injEq, Bool.and_eq_true, decide_eq_true_eq]
    constructor
    · rintro ⟨sameType, sameID, sameAccessor⟩
      exact ⟨sameAccessor, sameID, sameID ▸ asked, sameType⟩
    · rintro ⟨sameAccessor, sameID, _, sameType⟩
      exact ⟨sameType, sameID, sameAccessor⟩
  rw [latest, ofKey, getLast?_filter]
  split_ifs with empty
  · rw [empty]
    rfl
  · simp [lookup_assign]

/-- What a policy of a batch changes: the merged row, unless nothing would change. -/
def changeOf (isSame : PolicyInfo → PolicyInfo → Bool) (merge : PolicyInfo → PolicyInfo → PolicyInfo)
    (table : PolicyTable) (policy : PolicyInfo) : Option PolicyInfo :=
  (latest table policy.key).bind fun old => if isSame old policy then none else some (merge old policy)

/-- A policy of a batch as the `n`-th new row. -/
def issued (newV4 : Nat → String) (idNameMap : GoMap String String) (n : Nat) (policy : PolicyInfo) : PolicyInfo :=
  { policy with id := newV4 n, accessorName := (idNameMap.lookup policy.accessorID).getD policy.accessorID }

/-- The policies of a batch whose keys have no row. -/
def unknownOf (table : PolicyTable) (policys : List PolicyInfo) : List PolicyInfo :=
  policys.filter fun policy => (latest table policy.key).isNone

variable {newV4 : Nat → String} {isSame : PolicyInfo → PolicyInfo → Bool} {merge : PolicyInfo → PolicyInfo → PolicyInfo}
  {policys : List PolicyInfo}
    {idNameMap : GoMap String String}

/-- The loop of the plan, over what it has planned already. -/
private theorem foldl_add (newV4 : Nat → String) (plan : Plan) : let result := policys.foldl (fun plan policy =>
      plan.add isSame merge newV4 idNameMap (latest table policy.key) policy) plan
    result.updatePolicy = plan.updatePolicy ++ policys.filterMap (changeOf isSame merge table) ∧
      result.newPolicy = plan.newPolicy ++ (unknownOf table policys).mapIdx fun n =>
        issued newV4 idNameMap (n + plan.newPolicy.length) := by
  induction policys generalizing plan with
  | nil => simp [unknownOf]
  | cons policy rest ih =>
    obtain ⟨updates, news⟩ := ih (plan.add isSame merge newV4 idNameMap (latest table policy.key) policy)
    simp only [foldl_cons]
    rw [updates, news]
    cases found : latest table policy.key with
    | some old =>
      by_cases same : isSame old policy = true <;>
        simp [Plan.add, changeOf, unknownOf, found, same]
    | none =>
      simp [Plan.add, changeOf, unknownOf, found, issued, add_assoc, add_comm 1]

private theorem planBatch_updatePolicy (newV4 : Nat → String) :
    (planBatch isSame merge table newV4 policys idNameMap).updatePolicy =
      policys.filterMap (changeOf isSame merge table) := by
  rw [planBatch, foldl_ext _ _ _ fun plan policy mem => by rw [oldPolicyOf_eq_latest table mem]]
  exact (foldl_add newV4 _).1

private theorem planBatch_newPolicy (newV4 : Nat → String) :
    (planBatch isSame merge table newV4 policys idNameMap).newPolicy =
      (unknownOf table policys).mapIdx (issued newV4 idNameMap) := by
  rw [planBatch, foldl_ext _ _ _ fun plan policy mem => by rw [oldPolicyOf_eq_latest table mem]]
  exact (foldl_add newV4 _).2

private theorem mem_unknownOf :
    policy ∈ unknownOf table policys ↔ policy ∈ policys ∧ latest table policy.key = none := by
  simp [unknownOf]

private theorem mem_changes {change : PolicyInfo} (mem : change ∈ policys.filterMap (changeOf isSame merge table)) :
    ∃ policy ∈ policys, ∃ old, latest table policy.key = some old ∧ isSame old policy = false ∧
    change = merge old policy := by
  obtain ⟨policy, asked, changed⟩ := mem_filterMap.mp mem
  obtain ⟨old, found, changed⟩ := Option.bind_eq_some_iff.mp changed
  split_ifs at changed with same
  exact ⟨policy, asked, old, found, Bool.not_eq_true _ ▸ same, (Option.some.inj changed).symm⟩

private theorem mem_news (mem : policy ∈ (unknownOf table policys).mapIdx (issued newV4 idNameMap)) :
    ∃ asked ∈ policys, latest table asked.key = none ∧ ∃ n, policy = issued newV4 idNameMap n asked := by
  obtain ⟨n, bound, rfl⟩ := mem_mapIdx.mp mem
  obtain ⟨asked, unknown⟩ := mem_unknownOf.mp (getElem_mem bound)
  exact ⟨_, asked, unknown, n, rfl⟩

private theorem map_key_news (newV4 : Nat → String) :
    ((unknownOf table policys).mapIdx (issued newV4 idNameMap)).map PolicyInfo.key =
      (unknownOf table policys).map PolicyInfo.key := by
  rw [mapIdx_eq_zipIdx_map, map_map]
  conv_rhs => rw [← zipIdx_map_fst 0 (unknownOf table policys), map_map]
  rfl

section Write

variable (keepsID : ∀ old policy, (merge old policy).id = old.id) (ids : (table.map PolicyInfo.id).Nodup)
  (keys : (policys.map PolicyInfo.key).Nodup) (now : Int) (new : NewIDs table)

include keepsID

/-- The table a planned batch leaves: the rows there were, some rewritten, then the new ones. -/
theorem writePlan_planBatch : writePlan table now (planBatch isSame merge table new.newV4 policys idNameMap) =
    table.map (rewritten now (policys.filterMap (changeOf isSame merge table))) ++
      ((unknownOf table policys).mapIdx (issued new.newV4 idNameMap)).map (inserted now) := by
  rw [writePlan, create_eq_append, update_eq_map, planBatch_updatePolicy, planBatch_newPolicy, map_append]
  congr 1
  rw [map_map]
  refine map_congr_left fun policy mem => ?_
  -- no change names a new row, since its identifier is not in use
  apply applyAll_of_forall_ne
  intro change planned named
  obtain ⟨asked, -, -, n, rfl⟩ := mem_news mem
  obtain ⟨other, -, old, found, -, rfl⟩ := mem_changes planned
  rw [keepsID] at named
  exact new.fresh n old (latest_mem found).1 named

private theorem latest_writePlan (key : String × String × String) :
    latest (writePlan table now (planBatch isSame merge table new.newV4 policys idNameMap)) key =
      ((latest ((unknownOf table policys).mapIdx (issued new.newV4 idNameMap)) key).map (inserted now)).or
        ((latest table key).map (rewritten now (policys.filterMap (changeOf isSame merge table)))) := by
  rw [writePlan_planBatch keepsID, latest, rowsOf_append, rowsOf_map (rewritten_key now _),
    rowsOf_map (inserted_key now), getLast?_append, getLast?_map, getLast?_map]
  rfl

include keys

omit keepsID in
private theorem latest_news (asked : policy ∈ policys)
    (found : latest ((unknownOf table policys).mapIdx (issued newV4 idNameMap)) policy.key = some row) :
    latest table policy.key = none ∧ ∃ n, row = issued newV4 idNameMap n policy := by
  obtain ⟨planned, same⟩ := latest_mem found
  obtain ⟨other, requested, unknown, n, rfl⟩ := mem_news planned
  obtain rfl := inj_on_of_nodup_map keys requested asked same
  exact ⟨unknown, n, rfl⟩

theorem nodup_key_writePlan (rows : (table.map PolicyInfo.key).Nodup) :
    ((writePlan table now (planBatch isSame merge table new.newV4 policys idNameMap)).map PolicyInfo.key).Nodup := by
  have newKeys : (((unknownOf table policys).mapIdx (issued new.newV4 idNameMap)).map (inserted now)).map
      PolicyInfo.key = (unknownOf table policys).map PolicyInfo.key := by
    rw [map_map, ← map_key_news new.newV4]
    rfl
  have keptKeys (changes : List PolicyInfo) : (table.map (rewritten now changes)).map PolicyInfo.key =
      table.map PolicyInfo.key := by
    simp
  rw [writePlan_planBatch keepsID, map_append, newKeys, keptKeys, nodup_append]
  refine ⟨rows, keys.sublist (filter_sublist.map _), ?_⟩
  intro key old key' planned same
  obtain ⟨row, mem, rfl⟩ := mem_map.mp old
  obtain ⟨policy, unknown, rfl⟩ := mem_map.mp planned
  have present : row ∈ rowsOf table policy.key := mem_rowsOf.mpr ⟨mem, same⟩
  rw [latest_eq_none.mp (mem_unknownOf.mp unknown).2] at present
  cases present

/-- A policy whose key has no row becomes its row. -/
theorem latest_writePlan_of_none (asked : policy ∈ policys) (unknown : latest table policy.key = none) :
    ∃ n, latest (writePlan table now (planBatch isSame merge table new.newV4 policys idNameMap)) policy.key =
      some (inserted now (issued new.newV4 idNameMap n policy)) := by
  have mem : policy.key ∈ ((unknownOf table policys).mapIdx (issued new.newV4 idNameMap)).map PolicyInfo.key := by
    rw [map_key_news]
    exact mem_map_of_mem (mem_unknownOf.mpr ⟨asked, unknown⟩)
  obtain ⟨row, present, same⟩ := mem_map.mp mem
  have listed := mem_rowsOf.mpr ⟨present, same⟩
  cases planned : latest ((unknownOf table policys).mapIdx (issued new.newV4 idNameMap)) policy.key with
  | none =>
    rw [latest_eq_none.mp planned] at listed
    cases listed
  | some row =>
    obtain ⟨-, n, rfl⟩ := latest_news keys asked planned
    exact ⟨n, by rw [latest_writePlan keepsID, planned]; rfl⟩

include ids

/-- A batch names each row at most once. -/
theorem nodup_changes : ((policys.filterMap (changeOf isSame merge table)).map PolicyInfo.id).Nodup := by
  rw [Nodup, pairwise_map, pairwise_filterMap]
  refine Pairwise.imp ?_ (pairwise_map.mp keys)
  intro left right other change changed change' changed' same
  obtain ⟨old, found, rest⟩ := Option.bind_eq_some_iff.mp changed
  obtain ⟨old', found', rest'⟩ := Option.bind_eq_some_iff.mp changed'
  split_ifs at rest rest'
  obtain ⟨stored, key⟩ := latest_mem found
  obtain ⟨stored', key'⟩ := latest_mem found'
  rw [← Option.some.inj rest, ← Option.some.inj rest', keepsID, keepsID] at same
  exact other (key.symm.trans (congrArg PolicyInfo.key (inj_on_of_nodup_map ids stored stored' same) |>.trans key'))

omit keys in
private theorem rewritten_of_not_latest (mem : row ∈ table)
    (foreign : ∀ policy ∈ policys, latest table policy.key ≠ some row) :
    rewritten now (policys.filterMap (changeOf isSame merge table)) row = row := by
  apply applyAll_of_forall_ne
  intro change planned named
  obtain ⟨policy, asked, old, found, -, rfl⟩ := mem_changes planned
  rw [keepsID] at named
  rw [inj_on_of_nodup_map ids (latest_mem found).1 mem named] at found
  exact foreign policy asked found

/-- The row a policy of the batch finds is merged with it, unless nothing would change. -/
theorem rewritten_of_latest {old : PolicyInfo} (asked : policy ∈ policys) (found : latest table policy.key = some old) :
    rewritten now (policys.filterMap (changeOf isSame merge table)) old =
      if isSame old policy then old else overwritten now (merge old policy) old := by
  split_ifs with same
  · apply applyAll_of_forall_ne
    intro change planned named
    obtain ⟨other, asked', old', found', differs, rfl⟩ := mem_changes planned
    rw [keepsID] at named
    have row := inj_on_of_nodup_map ids (latest_mem found').1 (latest_mem found).1 named
    subst row
    have key := (latest_mem found').2.symm.trans (latest_mem found).2
    rw [inj_on_of_nodup_map keys asked' asked key, same] at differs
    cases differs
  · have planned : merge old policy ∈ policys.filterMap (changeOf isSame merge table) :=
      mem_filterMap.mpr ⟨policy, asked, by simp [changeOf, found, same]⟩
    exact applyAll_of_mem overwritten_id (nodup_changes keepsID ids keys) planned (keepsID old policy)

/-- One step for every row: it was there, or a policy of the batch was merged into the row it found,
or a policy of the batch without a row was inserted. -/
theorem mem_writePlan (mem : row ∈ writePlan table now (planBatch isSame merge table new.newV4 policys idNameMap)) :
    row ∈ table ∨ (∃ policy ∈ policys, ∃ old, latest table policy.key = some old ∧
      row = overwritten now (merge old policy) old) ∨
      ∃ policy ∈ policys, latest table policy.key = none ∧
      ∃ n, row = inserted now (issued new.newV4 idNameMap n policy) := by
  rw [writePlan_planBatch keepsID] at mem
  rcases mem_append.mp mem with kept | fresh
  · obtain ⟨old, stored, rfl⟩ := mem_map.mp kept
    by_cases found : ∃ policy ∈ policys, latest table policy.key = some old
    · obtain ⟨policy, asked, found⟩ := found
      rw [rewritten_of_latest keepsID ids keys now asked found]
      split_ifs with same
      · exact .inl stored
      · exact .inr (.inl ⟨policy, asked, old, found, rfl⟩)
    · rw [rewritten_of_not_latest keepsID ids now stored fun policy asked same => found ⟨policy, asked, same⟩]
      exact .inl stored
  · obtain ⟨policy, planned, rfl⟩ := mem_map.mp fresh
    obtain ⟨asked, requested, unknown, n, rfl⟩ := mem_news planned
    exact .inr (.inr ⟨asked, requested, unknown, n, rfl⟩)

omit keys in
theorem nodup_id_writePlan :
    ((writePlan table now (planBatch isSame merge table new.newV4 policys idNameMap)).map PolicyInfo.id).Nodup := by
  have issuedIDs : (((unknownOf table policys).mapIdx (issued new.newV4 idNameMap)).map (inserted now)).map
      PolicyInfo.id = (List.range (unknownOf table policys).length).map new.newV4 := by
    rw [map_map, mapIdx_eq_zipIdx_map, map_map, range_eq_range', ← zipIdx_map_snd, map_map]
    rfl
  have keptIDs (changes : List PolicyInfo) : (table.map (rewritten now changes)).map PolicyInfo.id =
      table.map PolicyInfo.id := by
    simp
  rw [writePlan_planBatch keepsID, map_append, issuedIDs, keptIDs, nodup_append]
  refine ⟨ids, nodup_range.map new.injective, ?_⟩
  intro id old id' issued same
  obtain ⟨row, mem, rfl⟩ := mem_map.mp old
  obtain ⟨n, -, rfl⟩ := mem_map.mp issued
  exact new.fresh n row mem same

/-- A policy is merged into the row of its key, unless nothing would change. -/
theorem latest_writePlan_of_some {old : PolicyInfo} (asked : policy ∈ policys)
    (found : latest table policy.key = some old) :
    latest (writePlan table now (planBatch isSame merge table new.newV4 policys idNameMap)) policy.key =
      some (if isSame old policy then old else overwritten now (merge old policy) old) := by
  have silent : latest ((unknownOf table policys).mapIdx (issued new.newV4 idNameMap)) policy.key = none :=
    Option.eq_none_iff_forall_ne_some.mpr fun row planned => nomatch (latest_news keys asked planned).1.symm.trans found
  rw [latest_writePlan keepsID, silent, found]
  exact congrArg some (rewritten_of_latest keepsID ids keys now asked found)

end Write

end

/-! # What a successful request has been checked for

A creating request that succeeds has distinct keys, end times in the future, and no operation both allowed and denied;
what it leaves is the write of its plan. An update has the last two for the policies that are stored.
-/

open PolicyTable List GoMap

variable {policys : List PolicyInfo} {svc : Services} {now : Int}
variable {operationMap : GoMap String (GoSet String)} {policy : PolicyInfo} {table : PolicyTable} {ids : List String}
    {visitor : Visitor} {done : Unit}

/-- What the checks of a single policy guarantee. -/
structure ValidPolicy (now : Int) (policy : PolicyInfo) : Prop where
  endTime : policy.endTime = -1 ∨ now < policy.endTime
  disjoint : ∀ op ∈ noConditionIDs policy.rules.allow, op ∉ noConditionIDs policy.rules.deny

private theorem checkPolicyOperationValid_ok {operationIDMap : GoSet String}
    (passed : checkPolicyOperationValid operationIDMap policy = .ok done) :
    ∀ op ∈ noConditionIDs policy.rules.allow, op ∉ noConditionIDs policy.rules.deny := by
  obtain ⟨-, passed⟩ := guard_ok passed
  obtain ⟨_, -, passed⟩ := bind_ok passed
  intro op allowed denied
  obtain ⟨item, mem, rfl⟩ := mem_map.mp allowed
  have checked := forM_ok passed item mem
  split_ifs at checked with unknown overlap
  exact overlap denied

private theorem checkOnePolicy_ok {seen next : BatchCheck}
    (passed : checkOnePolicy svc now operationMap seen policy = .ok next) :
    ValidPolicy now policy ∧ policy.key ∉ seen.resourceIDpolicysDup ∧
      next.resourceIDpolicysDup = seen.resourceIDpolicysDup.insert policy.key () := by
  obtain ⟨_, endTime, passed⟩ := bind_ok passed
  obtain ⟨_, -, passed⟩ := bind_ok passed
  obtain ⟨duplicate, passed⟩ := guard_ok passed
  obtain ⟨_, operations, passed⟩ := bind_ok passed
  cases passed
  unfold checkEndTime at endTime
  split_ifs at endTime with late
  exact ⟨⟨by omega, checkPolicyOperationValid_ok operations⟩, duplicate, rfl⟩

/-- A loop over policies that refuses a key it has seen, and remembers each key. -/
private theorem foldlM_distinct {σ κ : Type} [DecidableEq κ] {step : σ → PolicyInfo → Except ServiceError σ}
    {key : PolicyInfo → κ} {keys : σ → GoSet κ}
    {valid : PolicyInfo → Prop} (steps : ∀ {seen policy next}, step seen policy = .ok next →
      valid policy ∧ key policy ∉ keys seen ∧ keys next = (keys seen).insert (key policy) ()) {seen last : σ}
    (passed : policys.foldlM step seen = .ok last) :
    (policys.map key).Nodup ∧ ∀ policy ∈ policys, valid policy ∧ key policy ∉ keys seen := by
  induction policys generalizing seen with
  | nil => exact ⟨nodup_nil, fun _ mem => by cases mem⟩
  | cons policy rest ih =>
    obtain ⟨next, first, later⟩ := bind_ok passed
    obtain ⟨isValid, new, inserted⟩ := steps first
    obtain ⟨distinct, restValid⟩ := ih later
    simp only [inserted, AList.mem_insert, not_or] at restValid
    refine ⟨nodup_cons.mpr ⟨?_, distinct⟩, forall_mem_cons.mpr ⟨⟨isValid, new⟩, ?_⟩⟩
    · intro repeated
      obtain ⟨other, mem, same⟩ := mem_map.mp repeated
      exact (restValid other mem).2.1 same
    · exact fun other mem => ⟨(restValid other mem).1, (restValid other mem).2.2⟩

private theorem validatePolicys_ok {language : String} {idNameMap : GoMap String String}
    (passed : validatePolicys svc now language policys = .ok idNameMap) :
    (policys.map PolicyInfo.key).Nodup ∧ ∀ policy ∈ policys, ValidPolicy now policy := by
  obtain ⟨operationMap, -, passed⟩ := bind_ok passed
  obtain ⟨last, checked, -⟩ := bind_ok passed
  obtain ⟨distinct, valid⟩ := foldlM_distinct checkOnePolicy_ok checked
  exact ⟨distinct, fun policy mem => (valid policy mem).1⟩

variable {table after : PolicyTable}

/-- A creating request that succeeds was validated, and leaves the write of its plan. -/
theorem CreateCall.run_ok {newV4 : Nat → String} {call : CreateCall} {policyIDs : List String}
    (ran : call.run svc table now newV4 policys = .ok (policyIDs, after)) :
    (policys.map PolicyInfo.key).Nodup ∧ (∀ policy ∈ policys, ValidPolicy now policy) ∧
      ∃ idNameMap, after = writePlan table now (getCreateAndUpdatePolicy table newV4 policys idNameMap) := by
  cases policys with
  | nil =>
    cases ran
    refine ⟨nodup_nil, ⟨?_, ∅, ?_⟩⟩
    · simp
    · rw [writePlan, update_eq_map]
      exact ((map_id _).trans (append_nil _)).symm
  | cons first rest =>
    obtain ⟨plan, planned, ran⟩ := bind_ok ran
    cases ran
    obtain ⟨_, -, planned⟩ := bind_ok planned
    obtain ⟨idNameMap, validated, planned⟩ := bind_ok planned
    cases planned
    exact ⟨(validatePolicys_ok validated).1, (validatePolicys_ok validated).2, idNameMap, rfl⟩

/-- What an update writes: for a stored policy the rewritten rules. -/
def updatesOf (table : PolicyTable) (policys : List PolicyInfo) : List PolicyInfo :=
  policys.map fun policy => match (getByPolicyIDs table (policys.map (·.id))).lookup policy.id with
    | none => policy
    | some old => { policy with rules := updatedRules old policy }

theorem lookup_getByPolicyIDs_ne_none {row : PolicyInfo} (stored : row ∈ table) (named : row.id ∈ ids) :
    (getByPolicyIDs table ids).lookup row.id ≠ none := by
  rw [Ne, AList.lookup_eq_none, not_not, getByPolicyIDs, mem_assign]
  exact .inl ⟨row, by simpa using ⟨stored, named⟩, rfl⟩

private theorem update_of_forall_ne (now : Int) (foreign : ∀ policy ∈ policys, ∀ row ∈ table, policy.id ≠ row.id) :
    PolicyTable.update table now policys = table := by
  rw [update_eq_map]
  refine (map_congr_left fun row mem => ?_).trans (map_id table)
  exact RowUpdates.applyAll_of_forall_ne fun policy planned => foreign policy planned row mem

theorem map_id_updatesOf (table : PolicyTable) (policys : List PolicyInfo) :
    (updatesOf table policys).map (·.id) = policys.map (·.id) := by
  rw [updatesOf, map_map]
  refine map_congr_left fun policy _ => ?_
  rw [Function.comp_apply]
  split <;> rfl

/-- An update that succeeds names each policy once and writes the requested operations of the stored ones, none of which
are both allowed and denied. -/
theorem update_ok (ran : update svc table now visitor policys = .ok after) :
    (policys.map (·.id)).Nodup ∧ after = PolicyTable.update table now (updatesOf table policys) ∧
      ∀ policy ∈ policys, (getByPolicyIDs table (policys.map (·.id))).lookup policy.id ≠ none →
        ∀ op ∈ noConditionIDs policy.rules.allow, op ∉ noConditionIDs policy.rules.deny := by
  rcases return_ok ran with ⟨empty, rfl⟩ | ⟨-, ran⟩
  · rw [isEmpty_iff.mp empty]
    exact ⟨nodup_nil, rfl, fun _ asked => by cases asked⟩
  obtain ⟨_, ids, ran⟩ := bind_ok ran
  have distinct : (policys.map (·.id)).Nodup := by
    refine (foldlM_distinct (fun {seen policy next} passed => (?_ : True ∧ PolicyInfo.id policy ∉ id seen ∧ _)) ids).1
    obtain ⟨new, passed⟩ := guard_ok passed
    obtain ⟨_, -, passed⟩ := bind_ok passed
    cases passed
    exact ⟨trivial, new, rfl⟩
  rcases return_ok ran with ⟨none, rfl⟩ | ⟨-, ran⟩
  · have unknown (id : String) : (getByPolicyIDs after (policys.map (·.id))).lookup id = .none :=
      AList.lookup_eq_none.mpr fun found => by rw [AList.mem_keys, none] at found; cases found
    refine ⟨distinct, (update_of_forall_ne now fun policy planned row mem same => ?_).symm, fun policy _ known =>
      absurd (unknown policy.id) known⟩
    refine lookup_getByPolicyIDs_ne_none mem ?_ (unknown row.id)
    rw [← same, ← map_id_updatesOf after]
    exact mem_map_of_mem planned
  obtain ⟨_, -, ran⟩ := bind_ok ran
  obtain ⟨operationMap, -, ran⟩ := bind_ok ran
  obtain ⟨_, checked, ran⟩ := bind_ok ran
  cases ran
  refine ⟨distinct, rfl, fun policy asked known => ?_⟩
  have valid := forM_ok checked policy asked
  cases found : (getByPolicyIDs table (policys.map (·.id))).lookup policy.id with
  | none => exact absurd found known
  | some old =>
    rw [found] at valid
    exact checkPolicyOperationValid_ok valid

/-- A stored policy without its unconditional rules. -/
def strippedOf (policy : PolicyInfo) : PolicyInfo :=
  { policy with rules := ⟨conditionalRules policy.rules.allow, conditionalRules policy.rules.deny⟩ }

/-- A policy has a rule with a condition. -/
def hasCondition (policy : PolicyInfo) : Bool :=
  (policy.rules.allow ++ policy.rules.deny).any fun rule => !isConditionEmpty rule.condition

theorem delete_ok (ran : delete svc table now visitor ids = .ok after) : after = PolicyTable.delete
    (PolicyTable.update table now (((GoMap.values (getByPolicyIDs table ids)).filter hasCondition).map strippedOf))
    (((GoMap.values (getByPolicyIDs table ids)).filter fun policy => !hasCondition policy).map (·.id)) := by
  rcases return_ok ran with ⟨empty, rfl⟩ | ⟨-, ran⟩
  · have none : getByPolicyIDs after [] = ∅ := by simp [getByPolicyIDs, assign]
    rw [isEmpty_iff.mp empty, none]
    exact (filter_eq_self.mpr fun _ _ => rfl).symm
  obtain ⟨_, -, ran⟩ := bind_ok ran
  cases ran
  rfl

end SecurityFabric.Authorization
