import SecurityFabric.Soundness.Authorization.StoreInvariant

/-! # What merging initial policies means

The operations that apply are those of both policies. An operation should get the obligations that the new policy gives
it, and merging the same policy again should change nothing.

The rules of one condition are merged position by position. An old rule without a new one at its position keeps its
obligations, and so does an operation that only a new rule at another position names. A new rule without an old one is
taken over as it is, with operations it names twice.
-/

namespace SecurityFabric.Authorization

section

open List GoMap PolicyOperationItem

variable {oldItems newItems : List PolicyRuleItem} {oldOps newOps : List PolicyOperationItem} {op : PolicyOperationItem}
    {olds news : List PolicyRuleItem}

private theorem mem_mergeOperations_cases (mem : op ∈ mergeOperations oldOps newOps) :
    op ∈ newOps ∨ (op ∈ oldOps ∧ op.id ∉ newOps.map (·.id)) := by
  unfold mergeOperations at mem
  split_ifs at mem with noOld noNew
  · exact .inl mem
  · rw [isEmpty_iff.mp noNew]
    exact .inr ⟨mem, not_mem_nil⟩
  · rcases mem_append.mp mem with fresh | kept
    · obtain ⟨k, found⟩ := (mem_values _ _).mp fresh
      rw [lookup_operations] at found
      exact .inl (mem_of_lastOperation found).1
    · obtain ⟨isOld, notNew⟩ := mem_filter.mp kept
      refine .inr ⟨isOld, fun named => of_decide_eq_true notNew ?_⟩
      rw [mem_assign]
      exact .inl (mem_map.mp named)

private theorem mem_mergeOperations_of_old (mem : op ∈ oldOps) (notNew : op.id ∉ newOps.map (·.id)) :
    op ∈ mergeOperations oldOps newOps := by
  unfold mergeOperations
  split_ifs with noOld noNew
  · rw [isEmpty_iff.mp noOld] at mem
    cases mem
  · exact mem
  · refine mem_append_right _ (mem_filter.mpr ⟨mem, decide_eq_true fun named => notNew ?_⟩)
    rw [mem_assign] at named
    rcases named with ⟨other, isNew, same⟩ | absent
    · exact mem_map.mpr ⟨other, isNew, same⟩
    · cases absent

/-- The entries of a side for a condition and an operation. -/
def Entry (rules : List PolicyRuleItem) (condition : Json) (id : String) (op : PolicyOperationItem) : Prop :=
  (∃ rule ∈ ofCondition condition rules, op ∈ rule.operations) ∧ op.id = id

/-- What the new side says of a condition and an operation is said with its obligations. -/
def ObligationsTaken (newItems merged : List PolicyRuleItem) : Prop :=
  ∀ newRule ∈ newItems, ∀ newOp ∈ newRule.operations,
    (∃ op, Entry merged newRule.condition newOp.id op) ∧ ∀ op, Entry merged newRule.condition newOp.id op →
        ∃ other, Entry newItems newRule.condition newOp.id other ∧
        obligationsEqual op.obligations other.obligations = true

/-- An old entry for an operation of the new side is named by the new rule at the position of its own, or has
obligations of the new side already. -/
def OldObligationsAgree (oldItems newItems : List PolicyRuleItem) : Prop :=
  ∀ newRule ∈ newItems, ∀ newOp ∈ newRule.operations, ∀ (i : Nat) (oldRule : PolicyRuleItem),
    (ofCondition newRule.condition oldItems)[i]? = some oldRule → ∀ op ∈ oldRule.operations, op.id = newOp.id →
      (∀ joined, (ofCondition newRule.condition newItems)[i]? = some joined → op.id ∉ joined.operations.map (·.id)) →
        ∃ other, Entry newItems newRule.condition newOp.id other ∧
        obligationsEqual op.obligations other.obligations = true

private theorem mem_mergeAligned_of_old {i : Nat} {old : PolicyRuleItem} (isOld : olds[i]? = some old)
    (mem : op ∈ old.operations) (notNew : ∀ joined, news[i]? = some joined → op.id ∉ joined.operations.map (·.id)) :
    ∃ rule ∈ mergeAligned olds news, op ∈ rule.operations := by
  induction olds generalizing news i with
  | nil => cases isOld
  | cons first olds ih =>
    cases news with
    | nil => exact ⟨old, by rw [mergeAligned_nil_right]; exact mem_of_getElem? isOld, mem⟩
    | cons new news =>
      cases i with
      | zero =>
        cases isOld
        exact ⟨_, mem_cons_self, mem_mergeOperations_of_old mem (notNew new rfl)⟩
      | succ i =>
        obtain ⟨rule, isRule, named⟩ := @ih news i isOld notNew
        exact ⟨rule, mem_cons_of_mem _ isRule, named⟩

private theorem mem_mergeAligned_cases {rule : PolicyRuleItem} (isRule : rule ∈ mergeAligned olds news)
    (mem : op ∈ rule.operations) :
    (∃ new ∈ news, op ∈ new.operations) ∨ ∃ (i : Nat) (old : PolicyRuleItem), olds[i]? = some old ∧
    op ∈ old.operations ∧ ∀ joined, news[i]? = some joined → op.id ∉ joined.operations.map (·.id) := by
  induction olds generalizing news with
  | nil =>
    rw [mergeAligned_nil] at isRule
    exact .inl ⟨rule, isRule, mem⟩
  | cons old olds ih =>
    cases news with
    | nil =>
      obtain ⟨i, found⟩ := getElem?_of_mem isRule
      exact .inr ⟨i, rule, found, mem, fun joined none => by cases none⟩
    | cons new news =>
      rcases mem_cons.mp isRule with rfl | later
      · rcases mem_mergeOperations_cases mem with isNew | ⟨isOld, notNew⟩
        · exact .inl ⟨new, mem_cons_self, isNew⟩
        · refine .inr ⟨0, old, rfl, isOld, fun joined isJoined => ?_⟩
          cases isJoined
          exact notNew
      · rcases ih later with ⟨other, isOther, named⟩ | ⟨i, other, found, named, notNew⟩
        · exact .inl ⟨other, mem_cons_of_mem _ isOther, named⟩
        · exact .inr ⟨i + 1, other, found, named, notNew⟩

private theorem named_mergeAligned {new : PolicyRuleItem} {newOp : PolicyOperationItem} (isNew : new ∈ news)
    (mem : newOp ∈ new.operations) : ∃ rule ∈ mergeAligned olds news, ∃ op ∈ rule.operations, op.id = newOp.id := by
  induction olds generalizing news with
  | nil => exact ⟨new, by rw [mergeAligned_nil]; exact isNew, newOp, mem, rfl⟩
  | cons old olds ih =>
    cases news with
    | nil => cases isNew
    | cons first news =>
      rcases mem_cons.mp isNew with rfl | later
      · have named := mem_mergeOperations.mpr (.inr (mem_map_of_mem mem) : _ ∈ old.operations.map (·.id) ∨ _)
        obtain ⟨op, isOp, same⟩ := mem_map.mp named
        exact ⟨_, mem_cons_self, op, isOp, same⟩
      · obtain ⟨rule, isRule, named⟩ := ih later
        exact ⟨rule, mem_cons_of_mem _ isRule, named⟩

private theorem obligationsTaken_iff (properOld : ProperRules oldItems) (properNew : ProperRules newItems) :
    ObligationsTaken newItems (mergeRuleItems oldItems newItems) ↔ OldObligationsAgree oldItems newItems := by
  constructor
  · intro taken newRule isNew newOp isOp i oldRule isOld op mem same notNew
    refine (taken newRule isNew newOp isOp).2 op ⟨?_, same⟩
    rw [ofCondition_mergeRuleItems (properNew newRule isNew).1 properOld properNew]
    exact mem_mergeAligned_of_old isOld mem notNew
  · intro agree newRule isNew newOp isOp
    have proper := (properNew newRule isNew).1
    have inClass : newRule ∈ ofCondition newRule.condition newItems := mem_filter.mpr ⟨isNew, sameCondition_refl proper⟩
    constructor
    · obtain ⟨rule, isRule, op, mem, same⟩ := @named_mergeAligned
        (ofCondition newRule.condition oldItems) _ _ _ inClass isOp
      exact ⟨op, ⟨rule, by rw [ofCondition_mergeRuleItems proper properOld properNew]; exact isRule, mem⟩, same⟩
    · rintro op ⟨⟨rule, isRule, mem⟩, same⟩
      rw [ofCondition_mergeRuleItems proper properOld properNew] at isRule
      rcases mem_mergeAligned_cases isRule mem with ⟨new, inNew, named⟩ | ⟨i, old, isOld, named, notNew⟩
      · have properOp := (properNew new (mem_filter.mp inNew).1).2 op named
        exact ⟨op, ⟨⟨new, inNew, named⟩, same⟩, properOp.refl⟩
      · exact agree newRule isNew newOp isOp i old isOld op named same notNew

/-- Rules with the same conditions and operations, up to the order of operations. -/
def SameRules : List PolicyRuleItem → List PolicyRuleItem → Prop :=
  Forall₂ fun before after => after.condition = before.condition ∧ after.operations.Perm before.operations

private theorem SameRules.refl (rules : List PolicyRuleItem) : SameRules rules rules :=
  forall₂_same.mpr fun _ _ => ⟨rfl, .refl _⟩

/-- A new rule names no operation twice, or joins an old one that has operations. -/
def NoneRepeated (oldItems newItems : List PolicyRuleItem) : Prop :=
  ∀ before newRule behind, newItems = before ++ newRule :: behind → (newRule.operations.map (·.id)).Nodup ∨
      ∃ oldRule, (ofCondition newRule.condition oldItems)[(ofCondition newRule.condition before).length]? =
      some oldRule ∧
        oldRule.operations ≠ []

/-- The operations of a rule by their ids. -/
def byID (ops : List PolicyOperationItem) : GoMap String PolicyOperationItem := assign (·.id) id ops ∅

private theorem keyed_byID (ops : List PolicyOperationItem) : GoMap.Keyed (·.id) (byID ops) := (keyed_empty _).assign _

private theorem mergeOperations_of_some (someOld : oldOps ≠ []) (someNew : newOps ≠ []) :
    mergeOperations oldOps newOps = (byID newOps).values ++ oldOps.filter fun op => op.id ∉ byID newOps := by
  rw [mergeOperations, if_neg (by simpa using someOld), if_neg (by simpa using someNew)]
  rfl

/-- What was merged with an old rule stays when it is merged again. -/
theorem mergeOperations_again (someOld : oldOps ≠ []) :
    mergeOperations (mergeOperations oldOps newOps) newOps = mergeOperations oldOps newOps := by
  by_cases someNew : newOps = []
  · simp [someNew, mergeOperations]
  · have named : mergeOperations oldOps newOps ≠ [] := by
      obtain ⟨op, isOp⟩ := exists_mem_of_ne_nil _ someNew
      have mem := (@mem_mergeOperations op.id oldOps newOps).mpr (.inr (mem_map_of_mem isOp))
      exact fun none => by simp [none] at mem
    have replaced : (byID newOps).values.filter (fun op => op.id ∉ byID newOps) = [] := by
      refine filter_eq_nil_iff.mpr fun op mem notNew => of_decide_eq_true notNew ?_
      exact ((keyed_byID newOps).mem_map_values op.id).mp (mem_map_of_mem mem)
    rw [mergeOperations_of_some named someNew, mergeOperations_of_some someOld someNew]
    simp only [filter_append, replaced, nil_append, filter_filter, Bool.and_self]

/-- What was taken over stays if no operation is named twice. -/
theorem mergeOperations_self_perm_iff {newOps : List PolicyOperationItem}
    {keep : PolicyOperationItem → PolicyOperationItem}
    (sameID : ∀ op, (keep op).id = op.id) :
    ((mergeOperations newOps newOps).map keep).Perm (newOps.map keep) ↔ (newOps.map (·.id)).Nodup := by
  by_cases someNew : newOps = []
  · simp [someNew, mergeOperations]
  · have replaced : newOps.filter (fun op => op.id ∉ byID newOps) = [] := by
      refine filter_eq_nil_iff.mpr fun op mem notNew => of_decide_eq_true notNew ?_
      rw [byID, mem_assign]
      exact .inl ⟨op, mem, rfl⟩
    have distinctValues := (keyed_byID newOps).nodup_map_values
    rw [mergeOperations_of_some someNew someNew, replaced, append_nil]
    constructor
    · intro perm
      have ids := perm.map PolicyOperationItem.id
      simp only [map_map, Function.comp_def, sameID] at ids
      exact ids.nodup_iff.mp distinctValues
    · intro distinct
      refine Perm.map keep ((perm_ext_iff_of_nodup distinctValues.of_map distinct.of_map).mpr fun op => ?_)
      rw [mem_values]
      simp only [byID, lookup_operations]
      constructor
      · rintro ⟨k, found⟩
        exact (mem_of_lastOperation found).1
      · intro mem
        obtain ⟨last, found⟩ := exists_lastOperation mem
        obtain ⟨isLast, same⟩ := mem_of_lastOperation found
        exact ⟨op.id, by rw [found, inj_on_of_nodup_map distinct isLast mem same]⟩

variable {newItem : PolicyRuleItem}

private theorem mergeRuleItems_of_head {first : PolicyRuleItem} (same : sameCondition newItem.condition first = true)
    (rest newItems : List PolicyRuleItem) : mergeRuleItems (first :: rest) (newItem :: newItems) =
      ⟨first.condition, mergeOperations first.operations newItem.operations⟩ :: mergeRuleItems rest newItems := by
  rw [mergeRuleItems, find?_cons_of_pos same]
  simp [eraseP_cons_of_pos same]

/-- The first new rule and the others, which find their old rules among those that are left. -/
theorem noneRepeated_cons {oldItems left newItems : List PolicyRuleItem} {newItem : PolicyRuleItem}
    (shifted : ∀ before newRule behind, newItems = before ++ newRule :: behind →
      (ofCondition newRule.condition oldItems)[(ofCondition newRule.condition (newItem :: before)).length]? =
        (ofCondition newRule.condition left)[(ofCondition newRule.condition before).length]?) :
    NoneRepeated oldItems (newItem :: newItems) ↔ ((newItem.operations.map (·.id)).Nodup ∨
        ∃ oldRule, (ofCondition newItem.condition oldItems)[0]? = some oldRule ∧ oldRule.operations ≠ []) ∧
        NoneRepeated left newItems := by
  constructor
  · intro none
    refine ⟨none [] newItem newItems rfl, fun before newRule behind split => ?_⟩
    rw [← shifted before newRule behind split]
    exact none (newItem :: before) newRule behind (by rw [split]; rfl)
  · rintro ⟨first, later⟩ before newRule behind split
    cases before with
    | nil =>
      obtain ⟨rfl, -⟩ := List.cons.inj split
      exact first
    | cons head before =>
      obtain ⟨rfl, rest⟩ := List.cons.inj split
      rw [shifted before newRule behind rest]
      exact later before newRule behind rest

private theorem noneRepeated_cons_of_unknown (properOld : ProperRules oldItems)
    (properNew : ProperRules (newItem :: newItems))
    (unknown : ∀ oldItem ∈ oldItems, sameCondition newItem.condition oldItem = false) :
    NoneRepeated oldItems (newItem :: newItems) ↔ (newItem.operations.map (·.id)).Nodup ∧
    NoneRepeated oldItems newItems := by
  obtain ⟨⟨properItem, -⟩, properRest⟩ := forall_mem_cons.mp properNew
  rw [@noneRepeated_cons oldItems oldItems]
  · have none : ofCondition newItem.condition oldItems = [] :=
      ofCondition_eq_nil properItem properItem (sameCondition_refl properItem) properOld unknown
    simp [none]
  · intro before newRule behind split
    have proper := (properRest newRule (by rw [split]; simp)).1
    cases isSame : sameCondition newRule.condition newItem with
    | false => rw [ofCondition_cons_of_not isSame]
    | true => rw [ofCondition_eq_nil proper properItem isSame properOld unknown, getElem?_nil, getElem?_nil]

private theorem noneRepeated_cons_of_joined {before behind newItems : List PolicyRuleItem} {oldItem : PolicyRuleItem}
    (properOld : ProperRules (before ++ oldItem :: behind)) (properNew : ProperRules (newItem :: newItems))
    (same : sameCondition newItem.condition oldItem = true)
    (notBefore : ∀ other ∈ before, sameCondition newItem.condition other = false) :
    NoneRepeated (before ++ oldItem :: behind) (newItem :: newItems) ↔
      ((newItem.operations.map (·.id)).Nodup ∨ oldItem.operations ≠ []) ∧ NoneRepeated (before ++ behind) newItems := by
  obtain ⟨⟨properItem, -⟩, properRest⟩ := forall_mem_cons.mp properNew
  obtain ⟨properBefore, properBehind⟩ := ProperRules.append.mp properOld
  have properOldItem := (properBehind oldItem mem_cons_self).1
  rw [@noneRepeated_cons (before ++ oldItem :: behind) (before ++ behind)]
  · have none : ofCondition newItem.condition before = [] :=
      ofCondition_eq_nil properItem properItem (sameCondition_refl properItem) properBefore notBefore
    have first : (ofCondition newItem.condition (before ++ oldItem :: behind))[0]? = some oldItem := by
      rw [ofCondition_append, none, ofCondition_cons_of_same same]
      rfl
    simp [first]
  · intro earlier newRule later split
    have proper := (properRest newRule (by rw [split]; simp)).1
    have congr := @sameCondition_congr newRule.condition newItem oldItem properItem properOldItem same
    rw [ofCondition_append, ofCondition_append]
    cases isSame : sameCondition newRule.condition newItem with
    | false => rw [ofCondition_cons_of_not isSame, ofCondition_cons_of_not (congr.trans isSame)]
    | true =>
      rw [ofCondition_cons_of_same isSame, ofCondition_cons_of_same (congr.trans isSame),
        ofCondition_eq_nil proper properItem isSame properBefore notBefore]
      rfl

private theorem sameRules_again_iff (properOld : ProperRules oldItems) (properNew : ProperRules newItems) :
    SameRules (mergeRuleItems oldItems newItems) (mergeRuleItems (mergeRuleItems oldItems newItems) newItems) ↔
      NoneRepeated oldItems newItems := by
  induction newItems generalizing oldItems with
  | nil =>
    refine iff_of_true (SameRules.refl _) fun before newRule behind split => ?_
    simp at split
  | cons newItem newItems ih =>
    obtain ⟨⟨properItem, -⟩, properRest⟩ := forall_mem_cons.mp properNew
    rcases mergeRuleItems_cons oldItems newItems newItem with
      ⟨unknown, merged⟩ | ⟨before, oldItem, behind, rfl, same, notBefore, merged⟩
    · rw [merged, mergeRuleItems_of_head (sameCondition_refl properItem), SameRules, forall₂_cons,
        noneRepeated_cons_of_unknown properOld properNew unknown, ← ih properOld properRest,
        ← @mergeOperations_self_perm_iff _ id fun _ => rfl, map_id, map_id]
      exact and_congr_left fun _ => and_iff_right rfl
    · obtain ⟨properBefore, properBehind⟩ := ProperRules.append.mp properOld
      have properKept := ProperRules.append.mpr ⟨properBefore, (forall_mem_cons.mp properBehind).2⟩
      have joined : sameCondition newItem.condition
        ⟨oldItem.condition, mergeOperations oldItem.operations newItem.operations⟩ = true := same
      rw [merged, mergeRuleItems_of_head joined, SameRules, forall₂_cons,
        noneRepeated_cons_of_joined properOld properNew same notBefore, ← ih properKept properRest]
      refine and_congr_left fun _ => ?_
      rw [and_iff_right rfl]
      by_cases empty : oldItem.operations = []
      · have taken : mergeOperations oldItem.operations newItem.operations = newItem.operations := by
          rw [empty]
          rfl
        have repeated := @mergeOperations_self_perm_iff newItem.operations id fun _ => rfl
        rw [map_id, map_id] at repeated
        rw [taken, repeated]
        simp [empty]
      · rw [mergeOperations_again empty]
        exact iff_of_true (.refl _) (.inr empty)

section

variable (policy : PolicyInfo) (condition : Json) (rules : List PolicyRuleItem)

private theorem sameCondition_stored (rule : PolicyRuleItem) :
    sameCondition condition rule.stored = sameCondition condition rule := by
  rw [sameCondition, sameCondition, PolicyRuleItem.stored]
  cases rule.condition with
  | null =>
    cases condition with
    | obj fields => cases fields <;> simp [Json.deepEqual, isConditionEmpty]
    | _ => simp [Json.deepEqual, isConditionEmpty]
  | _ => rfl

private theorem stored_mergeOperations (oldOps newOps : List PolicyOperationItem) :
    (mergeOperations (oldOps.map stored) newOps).map stored =
    (mergeOperations oldOps newOps).map stored := by
  have again : stored ∘ stored = stored := rfl
  unfold mergeOperations
  rw [isEmpty_map]
  split_ifs
  · rfl
  · rw [map_map, again]
  · simp only [map_append, filter_map, map_map]
    rfl

/-- Merging reads nothing of the old rules that is not stored. -/
theorem stored_mergeRuleItems (oldItems newItems : List PolicyRuleItem) :
    (mergeRuleItems (oldItems.map PolicyRuleItem.stored) newItems).map PolicyRuleItem.stored =
      (mergeRuleItems oldItems newItems).map PolicyRuleItem.stored := by
  have again (rule : PolicyRuleItem) (operations : List PolicyOperationItem) :
      (⟨rule.stored.condition, operations⟩ : PolicyRuleItem).stored =
        ⟨(⟨rule.condition, []⟩ : PolicyRuleItem).stored.condition, operations.map stored⟩ := by
    obtain ⟨condition, _⟩ := rule
    cases condition <;> rfl
  induction newItems generalizing oldItems with
  | nil =>
    rw [mergeRuleItems, map_map]
    refine map_congr_left fun rule _ => ?_
    exact (again rule (rule.operations.map stored)).trans (by rw [map_map]; rfl)
  | cons newItem newItems ih =>
    have same : sameCondition newItem.condition ∘ PolicyRuleItem.stored = sameCondition newItem.condition :=
      funext (sameCondition_stored newItem.condition)
    rw [mergeRuleItems, mergeRuleItems, find?_map, same]
    cases oldItems.find? (sameCondition newItem.condition) with
    | none => exact congrArg (newItem.stored :: ·) (ih oldItems)
    | some oldItem =>
      simp only [Option.map_some, map_cons, eraseP_map, same, ih]
      refine congrArg (· :: _) ((again oldItem _).trans ?_)
      exact congrArg (PolicyRuleItem.mk _) (stored_mergeOperations oldItem.operations newItem.operations)

/-- The rules that are stored: those with operations. -/
def withOperations : List PolicyRuleItem := rules.filter fun rule => !rule.operations.isEmpty

/-- Every rule names something. -/
def AllNamed : Prop := ∀ rule ∈ rules, rule.operations ≠ []

private theorem allNamed_withOperations : AllNamed (withOperations rules) := fun rule mem => by
  simpa using (mem_filter.mp mem).2

private theorem AllNamed.withOperations_eq {rules : List PolicyRuleItem} (named : AllNamed rules) :
    withOperations rules = rules :=
  filter_eq_self.mpr fun rule mem => by simpa using named rule mem

private theorem withOperations_cons_of_named {rule : PolicyRuleItem} (named : rule.operations ≠ [])
    (rules : List PolicyRuleItem) :
    withOperations (rule :: rules) = rule :: withOperations rules := filter_cons_of_pos (by simpa using named)

private theorem withOperations_cons_of_empty {rule : PolicyRuleItem} (empty : rule.operations = [])
    (rules : List PolicyRuleItem) :
    withOperations (rule :: rules) = withOperations rules := filter_cons_of_neg (by simpa using empty)

private theorem mergeOperations_ne_nil (some : oldOps ≠ [] ∨ newOps ≠ []) : mergeOperations oldOps newOps ≠ [] := by
  intro none
  have named (id : String) := @mem_mergeOperations id oldOps newOps
  simp only [none, map_nil, not_mem_nil, false_iff, not_or] at named
  rcases some with old | new
  · obtain ⟨op, isOp⟩ := exists_mem_of_ne_nil _ old
    exact (named op.id).1 (mem_map_of_mem isOp)
  · obtain ⟨op, isOp⟩ := exists_mem_of_ne_nil _ new
    exact (named op.id).2 (mem_map_of_mem isOp)

/-- Behind the new rules of a condition that join an old one, those without operations come last. -/
def EmptyLast (oldItems newItems : List PolicyRuleItem) : Prop := ∀ newRule ∈ newItems,
  ((ofCondition newRule.condition newItems).drop (ofCondition newRule.condition oldItems).length).Pairwise
    fun earlier later => earlier.operations = [] → later.operations = []

private theorem length_mergeAligned (named : AllNamed olds) : (withOperations (mergeAligned olds news)).length =
    olds.length + (withOperations (news.drop olds.length)).length := by
  induction olds generalizing news with
  | nil => simp [mergeAligned_nil]
  | cons old olds ih =>
    obtain ⟨first, rest⟩ := forall_mem_cons.mp named
    cases news with
    | nil =>
      rw [mergeAligned_nil_right, named.withOperations_eq, drop_nil]
      rfl
    | cons new news =>
      have joined := mergeOperations_ne_nil (.inl first : old.operations ≠ [] ∨ new.operations ≠ [])
      rw [mergeAligned, withOperations_cons_of_named joined, length_cons, ih rest, length_cons, drop_succ_cons]
      omega

/-- If as many rules as have operations are passed over and none with operations is left, those without come last. -/
private theorem pairwise_of_drop {rules : List PolicyRuleItem}
    (none : withOperations (rules.drop (withOperations rules).length) = []) :
    rules.Pairwise fun earlier later => earlier.operations = [] → later.operations = [] := by
  induction rules with
  | nil => exact .nil
  | cons rule rules ih =>
    by_cases empty : rule.operations = []
    · rw [withOperations_cons_of_empty empty] at none
      cases count : (withOperations rules).length with
      | zero =>
        have nothing : withOperations rules = [] := length_eq_zero_iff.mp count
        refine .cons (fun later mem _ => ?_) (ih (by rw [count, drop_zero, nothing]))
        simpa using filter_eq_nil_iff.mp nothing later mem
      | succ k =>
        rw [count, drop_succ_cons] at none
        have split : withOperations rules = withOperations (rules.take k) ++ withOperations (rules.drop k) := by
          rw [withOperations, withOperations, withOperations, ← filter_append, take_append_drop]
        have few := (length_filter_le (fun rule => !rule.operations.isEmpty) (rules.take k)).trans
          (length_take_le k rules)
        rw [split, none, append_nil, withOperations] at count
        omega
    · rw [withOperations_cons_of_named empty] at none
      exact .cons (fun later _ isEmpty => absurd isEmpty empty) (ih none)

private theorem ProperRules.mergeRuleItems (properOld : ProperRules oldItems) (properNew : ProperRules newItems) :
    ProperRules (Authorization.mergeRuleItems oldItems newItems) := by
  induction newItems generalizing oldItems with
  | nil => exact properOld
  | cons newItem newItems ih =>
    obtain ⟨properItem, properRest⟩ := forall_mem_cons.mp properNew
    rcases mergeRuleItems_cons oldItems newItems newItem with ⟨-, merged⟩ | ⟨before, oldItem, behind, rfl, -, -, merged⟩
    · rw [merged]
      exact forall_mem_cons.mpr ⟨properItem, ih properOld properRest⟩
    · rw [merged]
      obtain ⟨properBefore, properBehind⟩ := ProperRules.append.mp properOld
      obtain ⟨properOldItem, properBehind⟩ := forall_mem_cons.mp properBehind
      refine forall_mem_cons.mpr ⟨⟨properOldItem.1, fun op mem => ?_⟩,
        ih (ProperRules.append.mpr ⟨properBefore, properBehind⟩) properRest⟩
      exact (mem_mergeOperations_cases mem).elim (properItem.2 op) fun isOld => properOldItem.2 op isOld.1

private theorem ofCondition_withOperations :
    ofCondition condition (withOperations rules) = withOperations (ofCondition condition rules) := by
  rw [ofCondition, withOperations, withOperations, ofCondition, filter_filter, filter_filter]
  simp only [Bool.and_comm]

/-- The rules that a second run finds, and those it leaves. -/
private theorem storedRules_again (oldItems newItems : List PolicyRuleItem) :
    storedRules (mergeRuleItems (storedRules oldItems) newItems) =
      (withOperations (mergeRuleItems (withOperations oldItems) newItems)).map PolicyRuleItem.stored := by
  have commutes (rules : List PolicyRuleItem) :
      (withOperations rules).map PolicyRuleItem.stored = withOperations (rules.map PolicyRuleItem.stored) := by
    rw [withOperations, withOperations, filter_map]
    congr 2
    funext rule
    simp [PolicyRuleItem.stored]
  have stored (rules : List PolicyRuleItem) : storedRules rules =
    (withOperations rules).map PolicyRuleItem.stored := rfl
  rw [stored, stored, commutes (mergeRuleItems _ _), stored_mergeRuleItems, ← commutes]

/-- The same rules as far as they are stored have the same conditions. -/
private theorem SameRules.length_ofCondition {rules rules' : List PolicyRuleItem}
    (same : SameRules (rules.map PolicyRuleItem.stored) (rules'.map PolicyRuleItem.stored)) (condition : Json) :
    (ofCondition condition rules).length = (ofCondition condition rules').length := by
  rw [SameRules, forall₂_map_left_iff, forall₂_map_right_iff] at same
  induction same with
  | nil => rfl
  | @cons before after _ _ first _ ih =>
    have alike : sameCondition condition after = sameCondition condition before := by
      rw [← sameCondition_stored, ← sameCondition_stored condition before, sameCondition, sameCondition, first.1]
    cases isSame : sameCondition condition before with
    | false => rw [ofCondition_cons_of_not isSame, ofCondition_cons_of_not (alike.trans isSame), ih]
    | true => rw [ofCondition_cons_of_same isSame, ofCondition_cons_of_same (alike.trans isSame),
        length_cons, length_cons, ih]

/-- A second run that leaves as many rules of each condition as it finds has none to take over. -/
private theorem emptyLast_of_sameRules (properOld : ProperRules oldItems) (properNew : ProperRules newItems)
    (named : AllNamed oldItems)
    (same : SameRules ((withOperations (mergeRuleItems oldItems newItems)).map PolicyRuleItem.stored)
      ((withOperations (mergeRuleItems (withOperations (mergeRuleItems oldItems newItems)) newItems)).map
        PolicyRuleItem.stored)) : EmptyLast oldItems newItems := by
  intro newRule isNew
  have proper := (properNew newRule isNew).1
  have properMerged : ProperRules (withOperations (mergeRuleItems oldItems newItems)) := fun rule mem =>
    (properOld.mergeRuleItems properNew) rule (mem_filter.mp mem).1
  have lengths := same.length_ofCondition newRule.condition
  have namedOlds : AllNamed (ofCondition newRule.condition oldItems) := fun rule mem => named rule (mem_filter.mp mem).1
  rw [ofCondition_withOperations, ofCondition_withOperations, ofCondition_mergeRuleItems proper properMerged properNew,
    ofCondition_withOperations, ofCondition_mergeRuleItems proper properOld properNew,
    length_mergeAligned (allNamed_withOperations _), length_mergeAligned namedOlds] at lengths
  refine pairwise_of_drop (length_eq_zero_iff.mp ?_)
  rw [drop_drop]
  omega

section

variable (last : EmptyLast oldItems (newItem :: newItems)) (properOld : ProperRules oldItems)
  (properNew : ProperRules (newItem :: newItems))
  (unknown : ∀ oldItem ∈ oldItems, sameCondition newItem.condition oldItem = false)

include last properOld properNew unknown

private theorem EmptyLast.of_unknown : EmptyLast oldItems newItems := by
  obtain ⟨⟨properItem, -⟩, properRest⟩ := forall_mem_cons.mp properNew
  intro newRule isNew
  have here := last newRule (mem_cons_of_mem _ isNew)
  cases isSame : sameCondition newRule.condition newItem with
  | false => rwa [ofCondition_cons_of_not isSame] at here
  | true =>
    have none := ofCondition_eq_nil (properRest newRule isNew).1 properItem isSame properOld unknown
    rw [ofCondition_cons_of_same isSame, none] at here
    rw [none]
    exact (pairwise_cons.mp here).2

/-- A new rule without operations finds no rule to join in the second run, as those behind it have none either. -/
private theorem EmptyLast.again_of_unknown (empty : newItem.operations = []) :
    mergeRuleItems (withOperations (mergeRuleItems oldItems newItems)) (newItem :: newItems) =
      newItem :: mergeRuleItems (withOperations (mergeRuleItems oldItems newItems)) newItems := by
  obtain ⟨⟨properItem, -⟩, properRest⟩ := forall_mem_cons.mp properNew
  refine ((mergeRuleItems_cons _ newItems newItem).resolve_right ?_).2
  rintro ⟨before, rule, after, split, same, -, -⟩
  have mem : rule ∈ withOperations (mergeRuleItems oldItems newItems) := by
    rw [split]
    simp
  obtain ⟨isMerged, hasOperations⟩ := mem_filter.mp mem
  have noOld := ofCondition_eq_nil properItem properItem (sameCondition_refl properItem) properOld unknown
  have ofNew : rule ∈ ofCondition newItem.condition (mergeRuleItems oldItems newItems) :=
    mem_filter.mpr ⟨isMerged, same⟩
  have behind := last newItem mem_cons_self
  rw [ofCondition_mergeRuleItems properItem properOld properRest, noOld, mergeAligned_nil] at ofNew
  rw [ofCondition_cons_of_same (sameCondition_refl properItem), noOld] at behind
  simp [(pairwise_cons.mp behind).1 rule ofNew empty] at hasOperations

end

private theorem EmptyLast.of_joined {before behind : List PolicyRuleItem} {oldItem : PolicyRuleItem}
    (last : EmptyLast (before ++ oldItem :: behind) (newItem :: newItems)) (properItem : newItem.condition.Proper)
    (properOldItem : oldItem.condition.Proper) (same : sameCondition newItem.condition oldItem = true) :
    EmptyLast (before ++ behind) newItems := by
  intro newRule isNew
  have here := last newRule (mem_cons_of_mem _ isNew)
  have congr := @sameCondition_congr newRule.condition newItem oldItem properItem properOldItem same
  rw [ofCondition_append] at here ⊢
  cases isSame : sameCondition newRule.condition newItem with
  | false => rwa [ofCondition_cons_of_not isSame, ofCondition_cons_of_not (congr.trans isSame)] at here
  | true =>
    rw [ofCondition_cons_of_same isSame, ofCondition_cons_of_same (congr.trans isSame), length_append,
      length_cons, ← Nat.add_assoc,
      drop_succ_cons] at here
    rwa [length_append]

/-- If the rules without operations come last, a second run repeats the merge of the first. -/
private theorem sameRules_stored_iff (properOld : ProperRules oldItems) (properNew : ProperRules newItems)
    (named : AllNamed oldItems) (last : EmptyLast oldItems newItems) :
    SameRules ((withOperations (mergeRuleItems oldItems newItems)).map PolicyRuleItem.stored)
        ((withOperations (mergeRuleItems (withOperations (mergeRuleItems oldItems newItems)) newItems)).map
          PolicyRuleItem.stored) ↔ NoneRepeated oldItems newItems := by
  induction newItems generalizing oldItems with
  | nil =>
    rw [mergeRuleItems, named.withOperations_eq, mergeRuleItems, named.withOperations_eq]
    refine iff_of_true (SameRules.refl _) fun before newRule behind split => ?_
    simp at split
  | cons newItem newItems ih =>
    obtain ⟨⟨properItem, -⟩, properRest⟩ := forall_mem_cons.mp properNew
    rcases mergeRuleItems_cons oldItems newItems newItem with
      ⟨unknown, merged⟩ | ⟨before, oldItem, behind, rfl, same, notBefore, merged⟩
    · have rest := ih properOld properRest named (last.of_unknown properOld properNew unknown)
      rw [noneRepeated_cons_of_unknown properOld properNew unknown, ← rest, merged]
      by_cases empty : newItem.operations = []
      -- It is not stored.
      · rw [withOperations_cons_of_empty empty, last.again_of_unknown properOld properNew unknown empty,
          withOperations_cons_of_empty empty]
        simp [empty]
      · have stays : mergeOperations newItem.operations newItem.operations ≠ [] := mergeOperations_ne_nil (.inl empty)
        rw [withOperations_cons_of_named empty, mergeRuleItems_of_head (sameCondition_refl properItem),
          withOperations_cons_of_named stays, map_cons, map_cons, SameRules, forall₂_cons,
          ← @mergeOperations_self_perm_iff _ stored fun _ => rfl]
        exact and_congr_left fun _ => and_iff_right rfl
    · obtain ⟨namedBefore, namedBehind⟩ := forall_mem_append.mp named
      obtain ⟨namedItem, namedBehind⟩ := forall_mem_cons.mp namedBehind
      obtain ⟨properBefore, properBehind⟩ := ProperRules.append.mp properOld
      obtain ⟨⟨properOldItem, -⟩, properBehind⟩ := forall_mem_cons.mp properBehind
      have rest := ih (ProperRules.append.mpr ⟨properBefore, properBehind⟩) properRest
        (forall_mem_append.mpr ⟨namedBefore, namedBehind⟩)
        (last.of_joined properItem properOldItem same)
      have joined : sameCondition newItem.condition
        ⟨oldItem.condition, mergeOperations oldItem.operations newItem.operations⟩ = true := same
      have stays : mergeOperations oldItem.operations newItem.operations ≠ [] := mergeOperations_ne_nil (.inl namedItem)
      rw [noneRepeated_cons_of_joined properOld properNew same notBefore, ← rest, merged,
        withOperations_cons_of_named stays, mergeRuleItems_of_head joined, mergeOperations_again namedItem,
        withOperations_cons_of_named stays, map_cons, map_cons, SameRules, forall₂_cons]
      exact and_congr_left fun _ => iff_of_true ⟨rfl, .refl _⟩ (.inr namedItem)

/-- What two runs store for a side is the same exactly if neither the rules without operations nor repeated operations
stand in the way. -/
theorem sameRules_init_iff (properOld : ProperRules oldItems) (properNew : ProperRules newItems)
    (named : AllNamed oldItems) : SameRules (storedRules (mergeRuleItems oldItems newItems))
        (storedRules (mergeRuleItems (storedRules (mergeRuleItems oldItems newItems)) newItems)) ↔
      EmptyLast oldItems newItems ∧ NoneRepeated oldItems newItems := by
  rw [storedRules_again]
  constructor
  · intro same
    have last := emptyLast_of_sameRules properOld properNew named same
    exact ⟨last, (sameRules_stored_iff properOld properNew named last).mp same⟩
  · exact fun ⟨last, unrepeated⟩ => (sameRules_stored_iff properOld properNew named last).mpr unrepeated

/-- The operations of the new rules are in the first rule of their condition that is left, with their obligations. -/
def FirstCovers (oldItems newItems : List PolicyRuleItem) : Prop := ∀ newRule ∈ newItems, ∃ rule,
  (mergeAligned (ofCondition newRule.condition oldItems) (ofCondition newRule.condition newItems)).find?
      (fun rule => !rule.operations.isEmpty) = some rule ∧
    operationsCovered rule.operations newRule.operations = true

private theorem rulesCovered_stored_iff (properOld : ProperRules oldItems) (properNew : ProperRules newItems) :
    rulesCovered (storedRules (mergeRuleItems oldItems newItems)) newItems = true ↔ FirstCovers oldItems newItems := by
  rw [rulesCovered, all_eq_true]
  refine forall₂_congr fun newRule isNew => ?_
  have same : sameCondition newRule.condition ∘ PolicyRuleItem.stored = sameCondition newRule.condition :=
    funext (sameCondition_stored newRule.condition)
  rw [← ofCondition_mergeRuleItems (properNew newRule isNew).1 properOld properNew, storedRules,
    find?_map, same, ofCondition,
    find?_filter, find?_filter]
  simp only [and_comm]
  cases (mergeRuleItems oldItems newItems).find? _ with
  | none => simp
  | some rule =>
    have last (id : String) : lastOperation (rule.operations.map stored) id =
        (lastOperation rule.operations id).map stored := by
      rw [lastOperation, ← map_reverse, find?_map]
      rfl
    have covered : operationsCovered rule.stored.operations newRule.operations =
        operationsCovered rule.operations newRule.operations := by
      rw [Bool.eq_iff_iff, operationsCovered_iff, operationsCovered_iff, PolicyRuleItem.stored]
      simp [last, PolicyOperationItem.stored]
    simp [covered]

/-- A side is merged as it is meant: with the obligations of the new one, and once and for all. -/
def MergedAsMeant (oldItems newItems : List PolicyRuleItem) : Prop :=
  ObligationsTaken newItems (mergeRuleItems oldItems newItems) ∧
    SameRules (mergeRuleItems oldItems newItems) (mergeRuleItems (mergeRuleItems oldItems newItems) newItems)

/-- What that takes. -/
def Mergeable (oldItems newItems : List PolicyRuleItem) : Prop :=
  OldObligationsAgree oldItems newItems ∧ NoneRepeated oldItems newItems

private theorem mergedAsMeant_iff (properOld : ProperRules oldItems) (properNew : ProperRules newItems) :
    MergedAsMeant oldItems newItems ↔ Mergeable oldItems newItems :=
  and_congr (obligationsTaken_iff properOld properNew) (sameRules_again_iff properOld properNew)

/-- The conditions and obligations of a policy are proper values. -/
def ProperSides : Prop := ProperRules policy.rules.allow ∧ ProperRules policy.rules.deny

end

/-- The rules of both sides are the same. -/
def SameSides (before after : PolicyInfo) : Prop :=
  SameRules before.rules.allow after.rules.allow ∧ SameRules before.rules.deny after.rules.deny

/-- The row in which a policy is stored. -/
def storedRow (old : PolicyInfo) : PolicyInfo := { old with rules := old.rules.stored }

/-- The new policy for the key of the old one. -/
def broughtFor (old newInfo : PolicyInfo) : PolicyInfo :=
  { newInfo with resourceID := old.resourceID, resourceType := old.resourceType, accessorID := old.accessorID }

/-- A second run of `InitPolicy` leaves the rules that the first one has left in the row of the key. -/
def InitStays (old newInfo : PolicyInfo) : Prop := ∀ (now later : Int) (newV4 newV4' : Nat → String),
  Forall₂ SameSides (initPolicy [storedRow old] now newV4 [broughtFor old newInfo])
    (initPolicy (initPolicy [storedRow old] now newV4 [broughtFor old newInfo]) later newV4' [broughtFor old newInfo])

/-- The first run writes nothing, or the second, or it writes the same rules. -/
def InitSettles (old newInfo : PolicyInfo) : Prop :=
  cmpPolicyWithCondition (storedRow old) newInfo = true ∨
  (calcMinEndTime old.endTime newInfo.endTime = newInfo.endTime ∧
    FirstCovers (storedRules old.rules.allow) newInfo.rules.allow ∧
    FirstCovers (storedRules old.rules.deny) newInfo.rules.deny) ∨
  (EmptyLast (storedRules old.rules.allow) newInfo.rules.allow ∧
    NoneRepeated (storedRules old.rules.allow) newInfo.rules.allow) ∧
    EmptyLast (storedRules old.rules.deny) newInfo.rules.deny ∧
    NoneRepeated (storedRules old.rules.deny) newInfo.rules.deny

/-- The row with the new policy merged into it. -/
def mergedRow (newInfo : PolicyInfo) (now : Int) (row : PolicyInfo) : PolicyInfo :=
  { row with
    rules := (mergeNewPolicyWithCondition row newInfo).rules.stored
    endTime := calcMinEndTime row.endTime newInfo.endTime
    modifyTime := now }

/-- What a run leaves in the row. -/
def initRow (newInfo : PolicyInfo) (now : Int) (row : PolicyInfo) : PolicyInfo :=
  if cmpPolicyWithCondition row newInfo = true then row else mergedRow newInfo now row

private theorem initPolicy_singleton {old newInfo row : PolicyInfo} (now : Int) (newV4 : Nat → String)
    (sameKey : row.key = old.key) :
    initPolicy [row] now newV4 [broughtFor old newInfo] = [initRow newInfo now row] := by
  have found : PolicyTable.latest [row] (broughtFor old newInfo).key = some row := by
    simp [PolicyTable.latest, PolicyTable.rowsOf, show (broughtFor old newInfo).key = row.key from sameKey.symm]
  rw [initPolicy, getCreateAndUpdatePolicyWithCondition, planBatch, foldl_cons,
    oldPolicyOf_eq_latest _ (mem_singleton_self _), found,
    foldl_nil, Plan.add, initRow, writePlan]
  simp only [show cmpPolicyWithCondition row (broughtFor old newInfo) = cmpPolicyWithCondition row newInfo from rfl]
  split_ifs
  · rfl
  · exact congrArg ([·]) (if_pos rfl)

private theorem cmpPolicyWithCondition_mergedRow {row newInfo : PolicyInfo} (properRow : ProperSides row)
    (properNew : ProperSides newInfo) (now : Int) : cmpPolicyWithCondition (mergedRow newInfo now row) newInfo = true ↔
      calcMinEndTime row.endTime newInfo.endTime = newInfo.endTime ∧
        FirstCovers row.rules.allow newInfo.rules.allow ∧ FirstCovers row.rules.deny newInfo.rules.deny := by
  rw [cmpPolicyWithCondition, Bool.and_eq_true, Bool.and_eq_true, beq_iff_eq, and_assoc,
    ← rulesCovered_stored_iff properRow.1 properNew.1, ← rulesCovered_stored_iff properRow.2 properNew.2]
  rfl

private theorem ProperRules.storedRules {rules : List PolicyRuleItem} (proper : ProperRules rules) :
    ProperRules (Authorization.storedRules rules) := by
  refine forall_mem_map.mpr fun rule mem => ?_
  obtain ⟨properCondition, properOps⟩ := proper rule (mem_filter.mp mem).1
  refine ⟨?_, forall_mem_map.mpr properOps⟩
  obtain ⟨condition, operations⟩ := rule
  cases condition with
  | null => exact .obj nodup_nil (by simp)
  | _ => exact properCondition

private theorem initStays_iff_rows (old newInfo : PolicyInfo) : InitStays old newInfo ↔ ∀ now later,
    SameSides (initRow newInfo now (storedRow old)) (initRow newInfo later (initRow newInfo now (storedRow old))) := by
  have sameKey (now : Int) : (initRow newInfo now (storedRow old)).key = old.key := by
    rw [initRow]
    split_ifs <;> rfl
  have each (now later : Int) (newV4 newV4' : Nat → String) :
      Forall₂ SameSides (initPolicy [storedRow old] now newV4 [broughtFor old newInfo])
        (initPolicy (initPolicy [storedRow old] now newV4 [broughtFor old newInfo]) later newV4'
          [broughtFor old newInfo]) ↔
          SameSides (initRow newInfo now (storedRow old))
          (initRow newInfo later (initRow newInfo now (storedRow old))) := by
    rw [@initPolicy_singleton old newInfo (storedRow old) now newV4 rfl,
      initPolicy_singleton later newV4' (sameKey now), forall₂_cons]
    exact and_iff_left .nil
  exact ⟨fun stays now later => (each now later (fun _ => "") fun _ => "").mp (stays _ _ _ _),
    fun stays now later newV4 newV4' => (each now later newV4 newV4').mpr (stays now later)⟩

private theorem initStays_iff {old newInfo : PolicyInfo} (properOld : ProperSides old)
    (properNew : ProperSides newInfo) :
    InitStays old newInfo ↔ InitSettles old newInfo := by
  have properRow : ProperSides (storedRow old) := ⟨properOld.1.storedRules, properOld.2.storedRules⟩
  have named (rules : List PolicyRuleItem) : AllNamed (storedRules rules) := by
    refine forall_mem_map.mpr fun rule mem => ?_
    simpa [PolicyRuleItem.stored] using (mem_filter.mp mem).2
  rw [initStays_iff_rows, InitSettles]
  by_cases first : cmpPolicyWithCondition (storedRow old) newInfo = true
  · simp only [initRow, if_pos first]
    exact iff_of_true (fun _ _ => ⟨.refl _, .refl _⟩) (.inl first)
  · have second := cmpPolicyWithCondition_mergedRow properRow properNew
    simp only [show ∀ now, initRow newInfo now (storedRow old) = mergedRow newInfo now (storedRow old) from
      fun _ => if_neg first]
    by_cases skipped : cmpPolicyWithCondition (mergedRow newInfo 0 (storedRow old)) newInfo = true
    · refine iff_of_true (fun now later => ?_) (.inr (.inl ((second 0).mp skipped)))
      rw [initRow, if_pos ((second now).mpr ((second 0).mp skipped))]
      exact ⟨.refl _, .refl _⟩
    · have sides := and_congr (sameRules_init_iff properRow.1 properNew.1 (named _))
        (sameRules_init_iff properRow.2 properNew.2 (named _))
      rw [second] at skipped
      refine Iff.trans ?_ (sides.trans ((or_iff_right first).trans (or_iff_right skipped)).symm)
      have runs (now later : Int) : initRow newInfo later (mergedRow newInfo now (storedRow old)) =
        mergedRow newInfo later (mergedRow newInfo now (storedRow old)) := if_neg ((second now).not.mpr skipped)
      simp only [runs]
      exact ⟨fun stays => stays 0 0, fun stays _ _ => stays⟩

open Sample

private theorem properRules_readMarked (texts : List (List String)) : ProperRules (texts.map readMarked) := by
  intro rule mem
  obtain ⟨marks, -, rfl⟩ := mem_map.mp mem
  refine ⟨.null, fun op isOp item isItem => ?_⟩
  obtain ⟨text, -, rfl⟩ := mem_map.mp isOp
  rw [mem_singleton.mp isItem]
  exact .str text

end

/-! # When a merge may be skipped

A request that would change nothing is not written, which is decided by comparing, apart from the merge. For requests
with conditions the two agree. For unconditional ones they do unless a stored rule names an operation twice with
different obligations: the comparison looks at the last of them and the merge keeps one.
-/

open List GoMap

variable {oldOps newOps : List PolicyOperationItem}

/-- The same operations with the same obligations. -/
def SameOperations (xs ys : List PolicyOperationItem) : Prop :=
  (∀ x ∈ xs, ∃ y ∈ ys, x.id = y.id ∧ obligationsEqual x.obligations y.obligations = true) ∧
    ∀ y ∈ ys, ∃ x ∈ xs, x.id = y.id ∧ obligationsEqual x.obligations y.obligations = true

/-- An operation that is named several times has the same obligations each time. -/
def OneObligationEach (ops : List PolicyOperationItem) : Prop :=
  ∀ x ∈ ops, ∀ y ∈ ops, x.id = y.id → obligationsEqual x.obligations y.obligations = true

/-- The obligations of operations are proper values. -/
def ProperOperations (ops : List PolicyOperationItem) : Prop := ∀ op ∈ ops, ProperObligations op.obligations

/-- The operations of a merged side: the new ones, then the old ones that are not among them. -/
def mergedOperations (oldOps newOps : List PolicyOperationItem) : List PolicyOperationItem :=
  GoMap.values (assignMissing (·.id) id oldOps (assign (·.id) id newOps ∅))

private theorem mem_mergedOperations {op : PolicyOperationItem} :
    op ∈ mergedOperations oldOps newOps ↔ (lastOperation newOps op.id).or (oldOps.find? fun old => old.id = op.id) =
      some op := by
  have keyed : GoMap.Keyed (·.id) (assignMissing (·.id) id oldOps (assign (·.id) id newOps ∅)) :=
    ((keyed_empty _).assign _).assignMissing _
  rw [mergedOperations, mem_values]
  simp only [lookup_assignMissing, lookup_operations, Option.map_id_fun]
  constructor
  · rintro ⟨k, found⟩
    have isKey : op.id = k := keyed k op (by
      rw [lookup_assignMissing, lookup_operations, Option.map_id_fun]
      exact found)
    rw [isKey]
    exact found
  · exact fun found => ⟨op.id, found⟩

/-- When the new operations are covered, merging leaves the old ones exactly if none has two lists of obligations. -/
theorem sameOperations_merged_iff (covered : operationsCovered oldOps newOps = true)
    (properOld : ProperOperations oldOps)
    (properNew : ProperOperations newOps) :
    SameOperations (mergedOperations oldOps newOps) oldOps ↔ OneObligationEach oldOps := by
  rw [operationsCovered_iff] at covered
  have origin {op : PolicyOperationItem} (mem : op ∈ mergedOperations oldOps newOps) : op ∈ newOps ∨ op ∈ oldOps := by
    rcases Option.or_eq_some_iff.mp (mem_mergedOperations.mp mem) with isNew | ⟨-, isOld⟩
    · exact .inl (mem_of_lastOperation isNew).1
    · exact .inr (mem_of_find?_eq_some isOld)
  constructor
  · rintro ⟨-, found⟩ x memberX y memberY same
    obtain ⟨m, isMerged, idX, equalX⟩ := found x memberX
    obtain ⟨m', isMerged', idY, equalY⟩ := found y memberY
    have unique : m = m' := by
      rw [mem_mergedOperations, idX, same, ← idY] at isMerged
      exact Option.some.inj (isMerged.symm.trans (mem_mergedOperations.mp isMerged'))
    rw [← unique] at equalY
    have properM : ProperObligations m.obligations := (origin isMerged).elim (properNew m) (properOld m)
    exact (properOld x memberX).trans (properM.symm (properOld x memberX) equalX) equalY
  · intro one
    refine ⟨fun m isMerged => ?_, fun y memberY => ?_⟩
    · rcases origin isMerged with isNew | isOld
      · obtain ⟨last, isLast, equal⟩ := covered m isNew
        obtain ⟨mem, same⟩ := mem_of_lastOperation isLast
        exact ⟨last, mem, same.symm, equal⟩
      · exact ⟨m, isOld, rfl, (properOld m isOld).refl⟩
    · cases isNew : lastOperation newOps y.id with
      | some m =>
        obtain ⟨mem, same⟩ := mem_of_lastOperation isNew
        obtain ⟨last, isLast, equal⟩ := covered m mem
        obtain ⟨lastMem, lastSame⟩ := mem_of_lastOperation isLast
        refine ⟨m, mem_mergedOperations.mpr (by rw [same, isNew]; rfl), same, ?_⟩
        exact (properNew m mem).trans equal (one last lastMem y memberY (lastSame.trans same))
      | none =>
        obtain ⟨first, isFirst⟩ := Option.isSome_iff_exists.mp
          (find?_isSome.mpr ⟨y, memberY, by simp⟩ : (oldOps.find? fun old => decide (old.id = y.id)).isSome)
        have same : first.id = y.id := by simpa using find?_some isFirst
        refine ⟨first, mem_mergedOperations.mpr (by rw [same, isNew, isFirst]; rfl), same, ?_⟩
        exact one first (mem_of_find?_eq_some isFirst) y memberY same

/-- A policy as it was, as far as a request without conditions can tell. -/
structure Unchanged (old merged : PolicyInfo) : Prop where
  endTime : merged.endTime = old.endTime
  conditional : conditionalRules merged.rules.allow = conditionalRules old.rules.allow ∧
    conditionalRules merged.rules.deny = conditionalRules old.rules.deny
  allow : SameOperations (unconditionalOperations merged.rules.allow) (unconditionalOperations old.rules.allow)
  deny : SameOperations (unconditionalOperations merged.rules.deny) (unconditionalOperations old.rules.deny)

private theorem calcMinEndTime_self (endTime : Int) : calcMinEndTime endTime endTime = endTime := by
  unfold calcMinEndTime
  split_ifs <;> rfl

private theorem conditionalRules_merged (operations : List PolicyOperationItem) (rules : List PolicyRuleItem) :
    conditionalRules (unconditionalRule operations ++ conditionalRules rules) = conditionalRules rules := by
  unfold unconditionalRule conditionalRules
  split_ifs <;> simp

private theorem ids_subset_of_covered (covered : operationsCovered oldOps newOps = true) {id : String}
    (named : id ∈ newOps.map (·.id)) :
    id ∈ oldOps.map (·.id) := by
  obtain ⟨op, mem, rfl⟩ := mem_map.mp named
  obtain ⟨old, found, -⟩ := operationsCovered_iff.mp covered op mem
  obtain ⟨oldMem, same⟩ := mem_of_lastOperation found
  exact same ▸ mem_map_of_mem oldMem

variable {old newInfo : PolicyInfo}

/-- The sides of a merge that the comparison lets be skipped. No permission is dropped for a denial. -/
theorem mergeNewPolicy_of_cmpPolicy (same : cmpPolicy old newInfo = true)
    (disjoint : ∀ id ∈ noConditionIDs old.rules.allow, id ∉ noConditionIDs old.rules.deny) :
    (mergeNewPolicy old newInfo).endTime = old.endTime ∧ (mergeNewPolicy old newInfo).rules =
        ⟨unconditionalRule (mergedOperations (noConditionOperations old.rules.allow)
          (noConditionOperations newInfo.rules.allow)) ++
            conditionalRules old.rules.allow,
          unconditionalRule (mergedOperations (noConditionOperations old.rules.deny)
            (noConditionOperations newInfo.rules.deny)) ++
            conditionalRules old.rules.deny⟩ := by
  simp only [cmpPolicy, Bool.and_eq_true, beq_iff_eq] at same
  obtain ⟨⟨endTime, allow⟩, deny⟩ := same
  refine ⟨by rw [mergeNewPolicy, ← endTime]; exact calcMinEndTime_self _, ?_⟩
  have permitted {k : String} (named : k ∈ noConditionIDs old.rules.allow) :
      k ∉ assignMissing (·.id) id (noConditionOperations old.rules.deny)
        (assign (·.id) id (noConditionOperations newInfo.rules.deny) ∅) := by
    rw [mem_assignMissing, mem_assign]
    rintro ((isNew | absent) | isOld)
    · exact disjoint k named (ids_subset_of_covered deny (mem_map.mpr isNew))
    · cases absent
    · exact disjoint k named (mem_map.mpr isOld)
  rw [mergeNewPolicy]
  simp only [getPolicyNoConditionOperations]
  rw [filter_eq_self.mpr, filter_eq_self.mpr]
  · rfl
  · exact fun op mem => decide_eq_true (permitted (ids_subset_of_covered allow (mem_map_of_mem mem)))
  · exact fun op mem => decide_eq_true (permitted (mem_map_of_mem mem))

/-- The obligations of the unconditional operations of a policy are proper values. -/
def ProperPolicy (policy : PolicyInfo) : Prop :=
  ProperOperations (noConditionOperations policy.rules.allow) ∧
    ProperOperations (noConditionOperations policy.rules.deny)

private theorem unchanged_iff (consistent : old.rules.Consistent) (properOld : ProperPolicy old)
    (properNew : ProperPolicy newInfo)
    (same : cmpPolicy old newInfo = true) : Unchanged old (mergeNewPolicy old newInfo) ↔
      OneObligationEach (unconditionalOperations old.rules.allow) ∧
      OneObligationEach (unconditionalOperations old.rules.deny) := by
  have disjoint : ∀ id ∈ noConditionIDs old.rules.allow, id ∉ noConditionIDs old.rules.deny := by
    rw [noConditionIDs_of_single consistent.allow, noConditionIDs_of_single consistent.deny]
    exact consistent.disjoint
  obtain ⟨endTime, rules⟩ := mergeNewPolicy_of_cmpPolicy same disjoint
  simp only [cmpPolicy, Bool.and_eq_true] at same
  have allow := sameOperations_merged_iff same.1.2 properOld.1 properNew.1
  have deny := sameOperations_merged_iff same.2 properOld.2 properNew.2
  simp only [getPolicyNoConditionOperations] at allow deny
  rw [← noConditionOperations_of_single consistent.allow,
    ← noConditionOperations_of_single consistent.deny, ← allow, ← deny]
  constructor
  · rintro ⟨-, -, sameAllow, sameDeny⟩
    rw [rules, unconditionalOperations_merged, ← noConditionOperations_of_single consistent.allow] at sameAllow
    rw [rules, unconditionalOperations_merged, ← noConditionOperations_of_single consistent.deny] at sameDeny
    exact ⟨sameAllow, sameDeny⟩
  · rintro ⟨sameAllow, sameDeny⟩
    refine ⟨endTime, ?_, ?_, ?_⟩
    · rw [rules, conditionalRules_merged, conditionalRules_merged]
      exact ⟨rfl, rfl⟩
    · rwa [rules, unconditionalOperations_merged, ← noConditionOperations_of_single consistent.allow]
    · rwa [rules, unconditionalOperations_merged, ← noConditionOperations_of_single consistent.deny]

/-- A covered side names nothing that the old one does not. -/
theorem names_of_rulesCovered {svc : Services} (reads : svc.ReadsConditions) {oldRules newRules : List PolicyRuleItem}
    (covered : rulesCovered oldRules newRules = true) (data : Option Json) {op : String}
    (named : Names svc data newRules op) :
    Names svc data oldRules op := by
  obtain ⟨newRule, mem, applies, item, isItem, rfl⟩ := named
  have isCovered := all_eq_true.mp covered newRule mem
  cases found : oldRules.find? (sameCondition newRule.condition) with
  | none => rw [found] at isCovered; cases isCovered
  | some oldRule =>
    rw [found] at isCovered
    have same := ruleApplies_of_sameCondition reads (find?_some found) data
    obtain ⟨old, isOld, sameID⟩ := mem_map.mp (ids_subset_of_covered isCovered (mem_map_of_mem isItem))
    exact ⟨oldRule, mem_of_find?_eq_some found, same.trans applies, old, isOld, sameID⟩

open Sample

private theorem properPolicy_readMarked (texts : List String) : ProperPolicy (row "d" [readMarked texts] []) := by
  refine ⟨fun op mem item isItem => ?_, fun op mem => by cases mem⟩
  obtain ⟨text, -, rfl⟩ := mem_map.mp mem
  rw [mem_singleton.mp isItem]
  exact .str text

end SecurityFabric.Authorization
