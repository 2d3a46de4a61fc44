import Mathlib.Data.List.TakeWhile
import SecurityFabric.Model.Authorization.Policy
import SecurityFabric.Proofs.Authorization.PolicyCalc
import SecurityFabric.Proofs.Json

/-! # The unconditional rules of a policy

Requests speak about the unconditional rule of a side, which the code takes to be the first one. How many unconditional
rules does each way of rewriting a side leave, and which operations do they name?
-/

namespace SecurityFabric.Authorization

section

open List GoMap Function

variable {rules : List PolicyRuleItem} {op : String}
variable (operations : List PolicyOperationItem)

/-- The rules without a condition. -/
def unconditionalRules (rules : List PolicyRuleItem) : List PolicyRuleItem :=
  rules.filter fun rule => isConditionEmpty rule.condition

/-- The operations of the unconditional rules of a side, with their obligations. -/
def unconditionalOperations (rules : List PolicyRuleItem) : List PolicyOperationItem :=
  (unconditionalRules rules).flatMap (·.operations)

/-- The operations named by rules without a condition. -/
def unconditionalIDs (rules : List PolicyRuleItem) : List String :=
  (unconditionalRules rules).flatMap fun rule => rule.operations.map (·.id)

/-- The operations a side is taken to name unconditionally: those of its first unconditional rule. -/
def noConditionIDs (rules : List PolicyRuleItem) : List String := (noConditionOperations rules).map (·.id)

/-- A side as it reads back. -/
def storedRules (rules : List PolicyRuleItem) : List PolicyRuleItem :=
  (rules.filter fun rule => !rule.operations.isEmpty).map PolicyRuleItem.stored

private theorem mem_unconditionalIDs :
    op ∈ unconditionalIDs rules ↔ ∃ rule ∈ rules, isConditionEmpty rule.condition = true ∧
    op ∈ rule.operations.map (·.id) := by
  simp [unconditionalIDs, unconditionalRules, and_assoc]

private theorem unconditionalRules_append (rules rest : List PolicyRuleItem) :
    unconditionalRules (rules ++ rest) = unconditionalRules rules ++ unconditionalRules rest := filter_append ..

private theorem noConditionOperations_eq (rules : List PolicyRuleItem) :
    noConditionOperations rules = ((unconditionalRules rules).head?.map (·.operations)).getD [] := by
  rw [noConditionOperations, unconditionalRules, head?_filter]

variable (single : (unconditionalRules rules).length ≤ 1)

include single in
theorem noConditionOperations_of_single : noConditionOperations rules = unconditionalOperations rules := by
  rw [noConditionOperations_eq, unconditionalOperations]
  match unconditionalRules rules, single with
  | [], _ => rfl
  | [rule], _ => simp

private theorem noConditionIDs_eq (rules : List PolicyRuleItem) :
    noConditionIDs rules = ((unconditionalRules rules).head?.map fun rule => rule.operations.map (·.id)).getD [] := by
  rw [noConditionIDs, noConditionOperations_eq]
  cases (unconditionalRules rules).head? <;> rfl

include single in
theorem noConditionIDs_of_single : noConditionIDs rules = unconditionalIDs rules := by
  rw [noConditionIDs, noConditionOperations_of_single single, unconditionalOperations, map_flatMap, unconditionalIDs]

@[simp] theorem isConditionEmpty_stored (rule : PolicyRuleItem) :
    isConditionEmpty rule.stored.condition = isConditionEmpty rule.condition := by
  unfold PolicyRuleItem.stored
  cases rule.condition <;> rfl

@[simp] theorem operations_stored (rule : PolicyRuleItem) :
    rule.stored.operations.map (·.id) = rule.operations.map (·.id) := by
  simp [PolicyRuleItem.stored, PolicyOperationItem.stored]

private theorem unconditionalRules_storedRules (rules : List PolicyRuleItem) :
    unconditionalRules (storedRules rules) = storedRules (unconditionalRules rules) := by
  simp only [unconditionalRules, storedRules, filter_map]
  simp [Bool.and_comm]

theorem conditionalRules_storedRules (rules : List PolicyRuleItem) :
    conditionalRules (storedRules rules) = storedRules (conditionalRules rules) := by
  simp only [conditionalRules, storedRules, filter_map]
  simp [Bool.and_comm]

theorem operations_storedRules {chosen : PolicyRuleItem → Bool} (same : ∀ rule, chosen rule.stored = chosen rule)
    (rules : List PolicyRuleItem) : ((storedRules rules).filter chosen).flatMap (·.operations) =
      ((rules.filter chosen).flatMap (·.operations)).map PolicyOperationItem.stored := by
  induction rules with
  | nil => rfl
  | cons rule rest ih =>
    rw [storedRules] at ih ⊢
    cases operations : rule.operations with
    | nil => cases applies : chosen rule <;> simp [operations, applies, ih]
    | cons first more =>
      have storedOperations : rule.stored.operations = (first :: more).map PolicyOperationItem.stored := by
        rw [← operations]
        rfl
      cases applies : chosen rule <;> simp [operations, applies, ih, same, storedOperations]

theorem storedRules_storedRules (rules : List PolicyRuleItem) :
    storedRules (storedRules rules) = storedRules rules := by
  have again (rule : PolicyRuleItem) : rule.stored.stored = rule.stored := by
    obtain ⟨condition, operations⟩ := rule
    cases condition <;> simp [PolicyRuleItem.stored, PolicyOperationItem.stored]
  have named (rule : PolicyRuleItem) : rule.stored.operations.isEmpty = rule.operations.isEmpty := by
    simp [PolicyRuleItem.stored]
  simp [storedRules, filter_map, again, named]

include single in
theorem single_storedRules : (unconditionalRules (storedRules rules)).length ≤ 1 := by
  rw [unconditionalRules_storedRules, storedRules, length_map]
  exact (length_filter_le ..).trans single

theorem unconditionalIDs_storedRules (rules : List PolicyRuleItem) (op : String) :
    op ∈ unconditionalIDs (storedRules rules) ↔ op ∈ unconditionalIDs rules := by
  simp only [mem_unconditionalIDs, storedRules, mem_map, mem_filter]
  constructor
  · rintro ⟨_, ⟨rule, ⟨mem, -⟩, rfl⟩, unguarded, named⟩
    rw [isConditionEmpty_stored] at unguarded
    rw [← mem_map, operations_stored] at named
    exact ⟨rule, mem, unguarded, mem_map.mp named⟩
  · rintro ⟨rule, mem, unguarded, item, present, rfl⟩
    refine ⟨rule.stored, ⟨rule, ⟨mem, ?_⟩, rfl⟩, ?_, ?_⟩
    · cases operations : rule.operations with
      | nil => rw [operations] at present; cases present
      | cons => rfl
    · rw [isConditionEmpty_stored, unguarded]
    · rw [← mem_map, operations_stored]
      exact mem_map_of_mem present

theorem noConditionIDs_storedRules (named : op ∈ noConditionIDs rules) : op ∈ noConditionIDs (storedRules rules) := by
  rw [noConditionIDs_eq] at named ⊢
  rw [unconditionalRules_storedRules]
  cases unguarded : unconditionalRules rules with
  | nil => rw [unguarded] at named; cases named
  | cons first rest =>
    rw [unguarded] at named
    have kept : first.operations.isEmpty = false := by
      cases operations : first.operations with
      | nil => simp [operations] at named
      | cons => rfl
    simpa [storedRules, kept] using named

theorem unconditionalRules_conditionalRules (rules : List PolicyRuleItem) :
    unconditionalRules (conditionalRules rules) = [] := by
  simp [unconditionalRules, conditionalRules]

private theorem unconditionalRules_merged (rules : List PolicyRuleItem) :
    unconditionalRules (unconditionalRule operations ++ conditionalRules rules) = unconditionalRule operations := by
  rw [unconditionalRules_append, unconditionalRules_conditionalRules, append_nil]
  unfold unconditionalRule
  split_ifs <;> rfl

private theorem length_unconditionalRule_le : (unconditionalRule operations).length ≤ 1 := by
  unfold unconditionalRule
  split_ifs <;> simp

theorem unconditionalOperations_merged (rules : List PolicyRuleItem) :
    unconditionalOperations (unconditionalRule operations ++ conditionalRules rules) = operations := by
  rw [unconditionalOperations, unconditionalRules_merged, unconditionalRule]
  cases operations <;> simp

private theorem unconditionalIDs_merged (rules : List PolicyRuleItem) :
    unconditionalIDs (unconditionalRule operations ++ conditionalRules rules) = operations.map (·.id) := by
  rw [unconditionalIDs, unconditionalRules_merged, unconditionalRule]
  cases operations <;> simp

variable (old newInfo : PolicyInfo)

theorem mergeNewPolicy_deny (op : String) : op ∈ unconditionalIDs (mergeNewPolicy old newInfo).rules.deny ↔
    op ∈ noConditionIDs newInfo.rules.deny ∨ op ∈ noConditionIDs old.rules.deny := by
  rw [mergeNewPolicy, unconditionalIDs_merged]
  rw [(((keyed_empty _).assign _).assignMissing _).mem_map_values]
  simp [mem_assignMissing, mem_assign, noConditionIDs, getPolicyNoConditionOperations]

/-- The operations it allows: those of either side's permissions that are not denied. -/
theorem mergeNewPolicy_allow (op : String) : op ∈ unconditionalIDs (mergeNewPolicy old newInfo).rules.allow ↔
    (op ∈ noConditionIDs newInfo.rules.allow ∨ op ∈ noConditionIDs old.rules.allow) ∧
      op ∉ unconditionalIDs (mergeNewPolicy old newInfo).rules.deny := by
  rw [mergeNewPolicy_deny, mergeNewPolicy, unconditionalIDs_merged]
  rw [(((keyed_empty _).assign _).assignMissing _).mem_map_values]
  simp only [mem_assignMissing, mem_assign, mem_filter, noConditionIDs, mem_map, decide_eq_true_eq,
    AList.notMem_empty, or_false]
  constructor
  · rintro (⟨item, ⟨mem, undenied⟩, rfl⟩ | ⟨item, ⟨mem, undenied⟩, rfl⟩)
    · exact ⟨.inl ⟨item, mem, rfl⟩, undenied⟩
    · exact ⟨.inr ⟨item, mem, rfl⟩, undenied⟩
  · rintro ⟨⟨item, mem, rfl⟩ | ⟨item, mem, rfl⟩, undenied⟩
    · exact .inl ⟨item, ⟨mem, undenied⟩, rfl⟩
    · exact .inr ⟨item, ⟨mem, undenied⟩, rfl⟩

theorem single_mergeNewPolicy : (unconditionalRules (mergeNewPolicy old newInfo).rules.allow).length ≤ 1 ∧
    (unconditionalRules (mergeNewPolicy old newInfo).rules.deny).length ≤ 1 := by
  rw [mergeNewPolicy, unconditionalRules_merged, unconditionalRules_merged]
  exact ⟨length_unconditionalRule_le _, length_unconditionalRule_le _⟩

private theorem isConditionEmpty_of_sameCondition {condition : Json} {rule : PolicyRuleItem}
    (same : sameCondition condition rule = true) :
    isConditionEmpty rule.condition = isConditionEmpty condition := by
  rcases Bool.or_eq_true_iff.mp same with empty | equal
  · rw [Bool.and_eq_true] at empty
    rw [empty.1, empty.2]
  · revert equal
    cases rule.condition <;> cases condition <;> intro equal <;> try first | rfl | cases equal
    case obj.obj fields fields' =>
      rw [Json.deepEqual, Bool.and_eq_true] at equal
      cases fields <;> cases fields' <;> first | rfl | cases equal.1

theorem mem_mergeOperations {oldOps newOps : List PolicyOperationItem} :
    op ∈ (mergeOperations oldOps newOps).map (·.id) ↔ op ∈ oldOps.map (·.id) ∨ op ∈ newOps.map (·.id) := by
  unfold mergeOperations
  split_ifs with noOld noNew
  · simp [isEmpty_iff.mp noOld]
  · simp [isEmpty_iff.mp noNew]
  · have named : op ∈ assign (·.id) id newOps ∅ ↔ op ∈ newOps.map (·.id) := by
      simp [mem_assign]
    rw [map_append, mem_append, ((keyed_empty _).assign _).mem_map_values, named]
    constructor
    · rintro (fresh | kept)
      · exact .inr fresh
      · exact .inl (map_subset _ (filter_subset_self _) kept)
    · rintro (old | new)
      · by_cases replaced : op ∈ newOps.map (·.id)
        · exact .inl replaced
        · obtain ⟨item, mem, rfl⟩ := mem_map.mp old
          refine .inr (mem_map_of_mem (mem_filter.mpr ⟨mem, ?_⟩))
          rw [decide_eq_true_eq, named]
          exact replaced
      · exact .inl new

/-- Rule-by-rule merging pairs unconditional rules up. -/
theorem length_mergeRuleItems (oldItems newItems : List PolicyRuleItem) :
    (unconditionalRules (mergeRuleItems oldItems newItems)).length =
    max (unconditionalRules oldItems).length (unconditionalRules newItems).length := by
  induction newItems generalizing oldItems with
  | nil => simp [mergeRuleItems, unconditionalRules]
  | cons newItem newItems ih =>
    rw [mergeRuleItems]
    cases found : oldItems.find? (sameCondition newItem.condition) with
    | none =>
      by_cases unguarded : isConditionEmpty newItem.condition = true
      · have free : unconditionalRules oldItems = [] := by
          refine filter_eq_nil_iff.mpr fun rule mem empty => ?_
          refine find?_eq_none.mp found rule mem ?_
          simp [sameCondition, empty, unguarded]
        have step := ih oldItems
        simp only [unconditionalRules, filter_cons, unguarded, ↓reduceIte, length_cons] at step free ⊢
        rw [free] at step ⊢
        simp only [length_nil] at step ⊢
        omega
      · have step := ih oldItems
        simpa only [unconditionalRules, filter_cons, unguarded, Bool.false_eq_true, ↓reduceIte] using step
    | some oldItem =>
      obtain ⟨other, before, after, -, same, split, erased⟩ :=
        exists_of_eraseP (mem_of_find?_eq_some found) (find?_some found)
      have paired := isConditionEmpty_of_sameCondition (find?_some found)
      have removed := isConditionEmpty_of_sameCondition same
      have step := ih (before ++ after)
      simp only [erased]
      rw [split]
      simp only [unconditionalRules, filter_cons, filter_append, length_append, paired, removed] at step ⊢
      by_cases unguarded : isConditionEmpty newItem.condition = true <;>
        simp only [unguarded, Bool.false_eq_true, ↓reduceIte, length_cons] <;> omega

theorem unconditionalIDs_mergeRuleItems {oldItems newItems : List PolicyRuleItem}
    (named : op ∈ unconditionalIDs (mergeRuleItems oldItems newItems)) :
    op ∈ unconditionalIDs oldItems ∨ op ∈ unconditionalIDs newItems := by
  simp only [mem_unconditionalIDs] at named ⊢
  induction newItems generalizing oldItems with
  | nil => exact .inl named
  | cons newItem newItems ih =>
    obtain ⟨rule, mem, unguarded, present⟩ := named
    rw [mergeRuleItems] at mem
    cases found : oldItems.find? (sameCondition newItem.condition) with
    | none =>
      rw [found] at mem
      rcases mem_cons.mp mem with rfl | later
      · exact .inr ⟨_, mem_cons_self .., unguarded, present⟩
      · refine (ih ⟨rule, later, unguarded, present⟩).imp_right ?_
        rintro ⟨other, listed, rest⟩
        exact ⟨other, mem_cons_of_mem _ listed, rest⟩
    | some oldItem =>
      rw [found] at mem
      rcases mem_cons.mp mem with rfl | later
      · have paired := isConditionEmpty_of_sameCondition (find?_some found)
        rcases mem_mergeOperations.mp present with old | new
        · exact .inl ⟨oldItem, mem_of_find?_eq_some found, unguarded, old⟩
        · exact .inr ⟨newItem, mem_cons_self .., paired ▸ unguarded, new⟩
      · refine (ih ⟨rule, later, unguarded, present⟩).imp ?_ ?_
        · rintro ⟨other, listed, rest⟩
          exact ⟨other, mem_of_mem_eraseP listed, rest⟩
        · rintro ⟨other, listed, rest⟩
          exact ⟨other, mem_cons_of_mem _ listed, rest⟩

/-- What replacing does: the first unconditional rule gets the operations, or there is none and one comes in front. -/
theorem replaceNoCondition_cases (rules : List PolicyRuleItem) :
    (∃ before first rest, rules = before ++ first :: rest ∧ unconditionalRules before = [] ∧
      isConditionEmpty first.condition = true ∧
      replaceNoCondition operations rules = before ++ { first with operations } :: rest) ∨
      (unconditionalRules rules = [] ∧ replaceNoCondition operations rules = { operations } :: rules) := by
  unfold replaceNoCondition
  split_ifs with any
  · have guarded : unconditionalRules (rules.takeWhile fun rule => !isConditionEmpty rule.condition) = [] := by
      refine filter_eq_nil_iff.mpr fun rule mem empty => ?_
      simpa [empty] using mem_takeWhile_imp mem
    have split := takeWhile_append_dropWhile (p := fun rule => !isConditionEmpty rule.condition) (l := rules)
    cases dropped : rules.dropWhile fun rule => !isConditionEmpty rule.condition with
    | nil =>
      obtain ⟨rule, mem, empty⟩ := any_eq_true.mp any
      have holds := dropWhile_eq_nil_iff.mp dropped rule mem
      simp [empty] at holds
    | cons first rest =>
      have empty : isConditionEmpty first.condition = true := by
        have head := head?_dropWhile_not (fun rule => !isConditionEmpty rule.condition) rules
        rw [dropped] at head
        simpa using head
      rw [dropped] at split
      exact .inl ⟨_, first, rest, split.symm, guarded, empty, rfl⟩
  · refine .inr ⟨filter_eq_nil_iff.mpr fun rule mem empty => any ?_, rfl⟩
    exact any_eq_true.mpr ⟨rule, mem, empty⟩

theorem unconditionalRules_replaceNoCondition (rules : List PolicyRuleItem) :
    ∃ condition, unconditionalRules (replaceNoCondition operations rules) =
      ⟨condition, operations⟩ :: (unconditionalRules rules).tail := by
  rcases replaceNoCondition_cases operations rules with
    ⟨before, first, rest, rfl, guarded, empty, replaced⟩ | ⟨none, replaced⟩
  · rw [replaced, unconditionalRules_append, unconditionalRules_append, guarded]
    simp [unconditionalRules, empty]
  · refine ⟨.null, ?_⟩
    rw [replaced]
    simp only [unconditionalRules] at none ⊢
    rw [filter_cons, if_pos isConditionEmpty_null, none, tail_nil]

theorem conditionalRules_replaceNoCondition (rules : List PolicyRuleItem) :
    conditionalRules (replaceNoCondition operations rules) = conditionalRules rules := by
  rcases replaceNoCondition_cases operations rules with ⟨before, first, rest, rfl, -, empty, replaced⟩ | ⟨-, replaced⟩
  · rw [replaced]
    simp [conditionalRules, empty]
  · rw [replaced]
    simp [conditionalRules]

include single in
theorem single_replaceNoCondition (operations : List PolicyOperationItem) :
    ∃ condition, unconditionalRules (replaceNoCondition operations rules) = [⟨condition, operations⟩] := by
  obtain ⟨condition, replaced⟩ := unconditionalRules_replaceNoCondition operations rules
  have alone : (unconditionalRules rules).tail = [] := length_eq_zero_iff.mp (by rw [length_tail]; omega)
  exact ⟨condition, by rw [replaced, alone]⟩

end

/-! # Merging rules under their conditions

What the comparisons of operations and obligations say, and what merging two sides does to the operations that apply. A
merged rule has the condition of the old one, so the rules that apply are the same only if the evaluator does not tell
equal conditions apart.
-/

open List GoMap

variable {condition : Json}
variable {xs ys : List PolicyObligationItem} {ops : List PolicyOperationItem}
  {op : PolicyOperationItem} {svc : Services}

/-- One obligation equals another. -/
def sameObligation (x y : PolicyObligationItem) : Prop :=
  x.typeID = y.typeID ∧ x.id = y.id ∧ x.value.deepEqual y.value = true

/-- The values of obligations are maps with distinct keys, as all maps are. -/
def ProperObligations (obligations : List PolicyObligationItem) : Prop := ∀ item ∈ obligations, item.value.Proper

private theorem obligationsEqual_iff : obligationsEqual xs ys = true ↔ Forall₂ sameObligation xs ys := by
  induction xs generalizing ys with
  | nil => cases ys <;> simp [obligationsEqual]
  | cons x xs ih =>
    cases ys with
    | nil => simp [obligationsEqual]
    | cons y ys => simp [obligationsEqual, ih, sameObligation, and_assoc]

theorem ProperObligations.refl {xs : List PolicyObligationItem} (proper : ProperObligations xs) :
    obligationsEqual xs xs = true :=
  obligationsEqual_iff.mpr (forall₂_same.mpr fun item mem => ⟨rfl, rfl, (proper item mem).refl⟩)

theorem ProperObligations.trans {xs ys zs : List PolicyObligationItem} (proper : ProperObligations xs)
    (first : obligationsEqual xs ys = true) (second : obligationsEqual ys zs = true) :
    obligationsEqual xs zs = true := by
  rw [obligationsEqual_iff] at first second ⊢
  refine Json.forall₂_trans_of_mem ?_ first second
  rintro x mem y z ⟨types, ids, values⟩ ⟨types', ids', values'⟩
  exact ⟨types.trans types', ids.trans ids', (proper x mem).trans values values'⟩

theorem ProperObligations.symm (proper : ProperObligations xs) (proper' : ProperObligations ys)
    (same : obligationsEqual xs ys = true) :
    obligationsEqual ys xs = true := by
  rw [obligationsEqual_iff] at same ⊢
  refine Json.forall₂_symm_of_mem ?_ same
  rintro x mem y member' ⟨types, ids, values⟩
  exact ⟨types.symm, ids.symm, (proper x mem).symm (proper' y member') values⟩

/-- The last operation with an id, which a map of operations keeps. -/
def lastOperation (ops : List PolicyOperationItem) (id : String) : Option PolicyOperationItem :=
  ops.reverse.find? fun op => op.id = id

theorem lookup_operations (ops : List PolicyOperationItem) (k : String) :
    (assign (·.id) id ops ∅ : GoMap String PolicyOperationItem).lookup k = lastOperation ops k := by
  rw [lookup_assign, AList.lookup_empty, Option.or_none, Option.map_id_fun, id_eq, lastOperation]

theorem mem_of_lastOperation {k : String} (found : lastOperation ops k = some op) : op ∈ ops ∧ op.id = k :=
  ⟨mem_reverse.mp (mem_of_find?_eq_some found), by simpa using find?_some found⟩

theorem exists_lastOperation (mem : op ∈ ops) : ∃ last, lastOperation ops op.id = some last := by
  rw [← Option.isSome_iff_exists, lastOperation, find?_isSome]
  exact ⟨op, mem_reverse.mpr mem, by simp⟩

theorem operationsCovered_iff {oldOps newOps : List PolicyOperationItem} : operationsCovered oldOps newOps = true ↔
    ∀ op ∈ newOps, ∃ old, lastOperation oldOps op.id = some old ∧
    obligationsEqual op.obligations old.obligations = true := by
  simp only [operationsCovered, all_eq_true, lookup_operations]
  refine forall₂_congr fun op _ => ?_
  cases lastOperation oldOps op.id <;> simp

/-- The evaluator does not tell equal conditions apart. -/
def Services.ReadsConditions (svc : Services) : Prop :=
  ∀ condition other data, Json.deepEqual condition other = true →
    checkCondition svc condition data = checkCondition svc other data

variable {rule : PolicyRuleItem}

theorem ruleApplies_of_sameCondition (reads : svc.ReadsConditions) {newRule : PolicyRuleItem}
    (same : sameCondition newRule.condition rule = true) (data : Option Json) :
    ruleApplies svc data rule = ruleApplies svc data newRule := by
  have empty := isConditionEmpty_of_sameCondition same
  rw [ruleApplies, ruleApplies, empty]
  rcases Bool.or_eq_true_iff.mp same with both | equal
  · rw [(Bool.and_eq_true_iff.mp both).2, Bool.true_or, Bool.true_or]
  · rw [reads rule.condition newRule.condition data equal]

/-- What merging does with the first new rule: it is taken over, or joins the first old rule of its condition. -/
theorem mergeRuleItems_cons (oldItems newItems : List PolicyRuleItem) (newItem : PolicyRuleItem) :
    ((∀ oldItem ∈ oldItems, sameCondition newItem.condition oldItem = false) ∧
      mergeRuleItems oldItems (newItem :: newItems) = newItem :: mergeRuleItems oldItems newItems) ∨
      ∃ before oldItem behind, oldItems = before ++ oldItem :: behind ∧ sameCondition newItem.condition oldItem = true ∧
        (∀ other ∈ before, sameCondition newItem.condition other = false) ∧
        mergeRuleItems oldItems (newItem :: newItems) =
          ⟨oldItem.condition, mergeOperations oldItem.operations newItem.operations⟩ :: mergeRuleItems (before ++
            behind) newItems := by
  rw [mergeRuleItems]
  cases found : oldItems.find? (sameCondition newItem.condition) with
  | none =>
    refine .inl ⟨fun oldItem mem => ?_, rfl⟩
    simpa using find?_eq_none.mp found oldItem mem
  | some oldItem =>
    obtain ⟨same, before, behind, rfl, notBefore⟩ := find?_eq_some_iff_append.mp found
    refine .inr ⟨before, oldItem, behind, rfl, same, fun other mem => by simpa using notBefore other mem, ?_⟩
    have erased : (before ++ oldItem :: behind).eraseP (sameCondition newItem.condition) = before ++ behind := by
      rw [eraseP_append_right _ fun other mem => by simpa using notBefore other mem, eraseP_cons_of_pos same]
    simp [erased]

/-- The operations that apply after the merge are those of either. -/
theorem names_mergeRuleItems (reads : svc.ReadsConditions) (data : Option Json)
    (oldItems newItems : List PolicyRuleItem) (op : String) :
    Names svc data (mergeRuleItems oldItems newItems) op ↔ Names svc data oldItems op ∨ Names svc data newItems op := by
  simp only [Names]
  induction newItems generalizing oldItems with
  | nil => simp [mergeRuleItems]
  | cons newItem newItems ih =>
    rcases mergeRuleItems_cons oldItems newItems newItem with
      ⟨-, merged⟩ | ⟨before, oldItem, behind, rfl, same, -, merged⟩
    · simp only [merged, mem_cons, or_and_right, exists_or, ih]
      exact or_left_comm
    · have applies := ruleApplies_of_sameCondition reads same data
      have joined : ruleApplies svc data ⟨oldItem.condition, mergeOperations oldItem.operations newItem.operations⟩ =
        ruleApplies svc data oldItem := rfl
      have named : (∃ ope ∈ mergeOperations oldItem.operations newItem.operations, ope.id = op) ↔
          (∃ ope ∈ oldItem.operations, ope.id = op) ∨ ∃ ope ∈ newItem.operations, ope.id = op := by
        simpa only [mem_map] using @mem_mergeOperations op oldItem.operations newItem.operations
      simp only [merged, mem_append, mem_cons, or_and_right, exists_or, exists_eq_left, ih, joined,
        applies, named, and_or_left]
      exact Iff.of_eq (by ac_rfl)

/-- The rules of a side with a condition, in order. -/
def ofCondition (condition : Json) (rules : List PolicyRuleItem) : List PolicyRuleItem :=
  rules.filter (sameCondition condition)

/-- The conditions of rules are proper values, and so are their obligations. -/
def ProperRules (rules : List PolicyRuleItem) : Prop :=
  ∀ rule ∈ rules, rule.condition.Proper ∧ ∀ op ∈ rule.operations, ProperObligations op.obligations

theorem sameCondition_refl (proper : rule.condition.Proper) : sameCondition rule.condition rule = true := by
  rw [sameCondition, proper.refl, Bool.or_true]

private theorem sameCondition_symm {rule other : PolicyRuleItem} (proper : rule.condition.Proper)
    (properOther : other.condition.Proper)
    (same : sameCondition rule.condition other = true) : sameCondition other.condition rule = true := by
  rw [sameCondition, Bool.or_eq_true] at same ⊢
  rcases same with empty | equal
  · rw [Bool.and_comm] at empty
    exact .inl empty
  · exact .inr (properOther.symm proper equal)

private theorem sameCondition_trans {other : PolicyRuleItem} (properOther : other.condition.Proper)
    (first : sameCondition condition rule = true)
    (second : sameCondition rule.condition other = true) : sameCondition condition other = true := by
  have emptyFirst := isConditionEmpty_of_sameCondition first
  have emptySecond := isConditionEmpty_of_sameCondition second
  rw [sameCondition, Bool.or_eq_true] at first second ⊢
  cases empty : isConditionEmpty condition with
  | true =>
    rw [emptySecond, emptyFirst, empty]
    exact .inl rfl
  | false =>
    rw [empty] at first
    rw [emptyFirst, empty] at second
    exact .inr (properOther.trans (second.resolve_left (by simp)) (first.resolve_left (by simp)))

/-- Merging the rules of one condition: position by position. -/
def mergeAligned : List PolicyRuleItem → List PolicyRuleItem → List PolicyRuleItem
  | olds, [] => olds
  | [], news => news
  | old :: olds, new :: news =>
    ⟨old.condition, mergeOperations old.operations new.operations⟩ :: mergeAligned olds news

theorem mergeAligned_nil (news : List PolicyRuleItem) : mergeAligned [] news = news := by
  cases news <;> rfl

theorem ProperRules.append {first second : List PolicyRuleItem} :
    ProperRules (first ++ second) ↔ ProperRules first ∧ ProperRules second := forall_mem_append

@[simp] theorem mergeAligned_nil_right (olds : List PolicyRuleItem) : mergeAligned olds [] = olds := by
  cases olds <;> rfl

theorem ofCondition_append (condition : Json) (first second : List PolicyRuleItem) :
    ofCondition condition (first ++ second) = ofCondition condition first ++ ofCondition condition second :=
  filter_append ..

theorem ofCondition_cons_of_same (same : sameCondition condition rule = true) (rules : List PolicyRuleItem) :
    ofCondition condition (rule :: rules) = rule :: ofCondition condition rules :=
  filter_cons_of_pos same

theorem ofCondition_cons_of_not (other : sameCondition condition rule = false) (rules : List PolicyRuleItem) :
    ofCondition condition (rule :: rules) = ofCondition condition rules :=
  filter_cons_of_neg (by simp [other])

theorem sameCondition_congr {rule other : PolicyRuleItem} (proper : rule.condition.Proper)
    (properOther : other.condition.Proper)
    (same : sameCondition rule.condition other = true) :
    sameCondition condition other = sameCondition condition rule := by
  rw [Bool.eq_iff_iff]
  constructor
  · exact fun first => sameCondition_trans proper first (sameCondition_symm proper properOther same)
  · exact fun first => sameCondition_trans properOther first same

theorem ofCondition_eq_nil (proper : condition.Proper) (properRule : rule.condition.Proper)
    (same : sameCondition condition rule = true)
    {rules : List PolicyRuleItem} (properRules : ProperRules rules)
    (unknown : ∀ other ∈ rules, sameCondition rule.condition other = false) : ofCondition condition rules = [] := by
  refine filter_eq_nil_iff.mpr fun other mem known => ?_
  have turned : sameCondition rule.condition ⟨condition, []⟩ = true :=
    @sameCondition_symm ⟨condition, []⟩ rule proper properRule same
  have joined := sameCondition_trans (properRules other mem).1 turned known
  rw [unknown other mem] at joined
  cases joined

/-- The rules of a condition are merged among themselves. -/
theorem ofCondition_mergeRuleItems (proper : condition.Proper) {oldItems newItems : List PolicyRuleItem}
    (properOld : ProperRules oldItems)
    (properNew : ProperRules newItems) : ofCondition condition (mergeRuleItems oldItems newItems) =
      mergeAligned (ofCondition condition oldItems) (ofCondition condition newItems) := by
  induction newItems generalizing oldItems with
  | nil => rw [mergeRuleItems, ofCondition, ofCondition, filter_nil, mergeAligned_nil_right]
  | cons newItem newItems ih =>
    obtain ⟨⟨properItem, -⟩, properRest⟩ := forall_mem_cons.mp properNew
    rcases mergeRuleItems_cons oldItems newItems newItem with
      ⟨unknown, merged⟩ | ⟨before, oldItem, behind, rfl, same, notBefore, merged⟩
    · rw [merged]
      cases isSame : sameCondition condition newItem with
      | false => rw [ofCondition_cons_of_not isSame, ofCondition_cons_of_not isSame, ih properOld properRest]
      | true =>
        have none := ofCondition_eq_nil proper properItem isSame properOld unknown
        rw [ofCondition_cons_of_same isSame, ofCondition_cons_of_same isSame, ih properOld properRest,
          none, mergeAligned_nil,
          mergeAligned_nil]
    · obtain ⟨properBefore, properBehind⟩ := ProperRules.append.mp properOld
      obtain ⟨⟨properOldItem, -⟩, properBehind⟩ := forall_mem_cons.mp properBehind
      have rest := ih (ProperRules.append.mpr ⟨properBefore, properBehind⟩) properRest
      have congr := @sameCondition_congr condition newItem oldItem properItem properOldItem same
      have joined : sameCondition condition ⟨oldItem.condition, mergeOperations oldItem.operations newItem.operations⟩ =
        sameCondition condition oldItem := rfl
      rw [merged]
      cases isSame : sameCondition condition newItem with
      | false =>
        rw [isSame] at congr
        rw [ofCondition_cons_of_not (joined.trans congr), ofCondition_cons_of_not isSame, rest, ofCondition_append,
          ofCondition_append, ofCondition_cons_of_not congr]
      | true =>
        rw [isSame] at congr
        have none := ofCondition_eq_nil proper properItem isSame properBefore notBefore
        rw [ofCondition_cons_of_same (joined.trans congr), ofCondition_cons_of_same isSame, rest, ofCondition_append,
          ofCondition_append, ofCondition_cons_of_same congr, none]
        rfl

end SecurityFabric.Authorization
