import SecurityFabric.Model.Authorization.Policy
import SecurityFabric.Proofs.Authorization.PolicyCalc

/-! # Pages of policies

All three lists tell the number of policies with an unconditional operation, and the slice that was asked for. The list
with obligations does so only if the slice has an entry or there is no such policy.
-/

namespace SecurityFabric.Authorization

section

open List

variable {operationInfos : String → List OperationInfo} {hasType : String → Bool} {obligations : List ObligationInfo}
  {stored : List PolicyInfo} {offset : Nat} {limit : Int}

/-- The policy has an unconditional operation. -/
def PolicyInfo.hasUnconditional (policy : PolicyInfo) : Bool :=
  !((getPolicyNoConditionOperations policy).1.isEmpty && (getPolicyNoConditionOperations policy).2.isEmpty)

/-- The slice that is asked for. -/
def slice {α : Type} (list : List α) (offset : Nat) (limit : Int) : List α :=
  if limit = -1 then list else (list.drop offset).take limit.toNat

/-- All of a policy but its rules, which a list reduces. -/
def PolicyInfo.bare (policy : PolicyInfo) : PolicyInfo := { policy with rules := ⟨[], []⟩ }

/-- The number of policies with an unconditional operation, and their slice. -/
def Lists (stored : List PolicyInfo) (offset : Nat) (limit : Int) (told : Option (Nat × List PolicyInfo)) : Prop :=
  ∃ page, told = some ((stored.filter PolicyInfo.hasUnconditional).length, page) ∧
    page.map PolicyInfo.bare = slice ((stored.filter PolicyInfo.hasUnconditional).map PolicyInfo.bare) offset limit

private theorem applyPagination_eq_slice {α : Type} (list : List α) :
    applyPagination list offset limit = slice list offset limit := by
  simp only [applyPagination, slice]
  split_ifs with all past longer
  · rfl
  · rw [drop_eq_nil_of_le (by omega), take_nil]
  · rw [Int.toNat_natCast, take_length, take_of_length_le (by rw [length_drop]; omega)]
  · rw [drop_take, show ((offset : Int) + limit).toNat - offset = limit.toNat by omega]

private theorem map_slice {α β : Type} (f : α → β) (list : List α) :
    (slice list offset limit).map f = slice (list.map f) offset limit := by
  rw [slice, slice]
  split_ifs
  · rfl
  · rw [map_take, map_drop]

private theorem slice_eq_nil_iff {α : Type} {list : List α} (valid : limit = -1 ∨ 1 ≤ limit) (some : list ≠ []) :
    slice list offset limit = [] ↔ ¬ (limit = -1 ∨ offset < list.length) := by
  rw [slice]
  split_ifs with all
  · simp [all, some]
  · rw [take_eq_nil_iff, drop_eq_nil_iff]
    omega

private theorem map_bare_unconditionalPolicies (stored : List PolicyInfo) :
    (unconditionalPolicies stored).map PolicyInfo.bare =
      (stored.filter PolicyInfo.hasUnconditional).map PolicyInfo.bare := by
  induction stored with
  | nil => rfl
  | cons policy stored ih =>
    rw [unconditionalPolicies, filterMap_cons, ← unconditionalPolicies]
    by_cases empty : (getPolicyNoConditionOperations policy).1.isEmpty &&
      (getPolicyNoConditionOperations policy).2.isEmpty
    · rw [filter_cons_of_neg (by simp [PolicyInfo.hasUnconditional, empty])]
      simp [empty, ih]
    · rw [filter_cons_of_pos (by simp [PolicyInfo.hasUnconditional, empty]), map_cons, ← ih]
      simp only [empty]
      rfl

private theorem length_unconditionalPolicies (stored : List PolicyInfo) :
    (unconditionalPolicies stored).length = (stored.filter PolicyInfo.hasUnconditional).length := by
  rw [← length_map, map_bare_unconditionalPolicies, length_map]

private theorem map_bare_validObligations (page filled : List PolicyInfo) :
    (validObligations hasType obligations page filled).map PolicyInfo.bare = filled.map PolicyInfo.bare := by
  rw [validObligations]
  split_ifs
  · rfl
  · rw [map_map]
    rfl

private theorem lists_of_page {page : List PolicyInfo}
    (bare : page.map PolicyInfo.bare = (applyPagination (unconditionalPolicies stored) offset limit).map
      PolicyInfo.bare) : Lists stored offset limit (some ((unconditionalPolicies stored).length, page)) := by
  refine ⟨page, by rw [length_unconditionalPolicies], ?_⟩
  rw [bare, applyPagination_eq_slice, map_slice, map_bare_unconditionalPolicies]

private theorem lists_of_nil (nothing : (unconditionalPolicies stored).length = 0) :
    Lists stored offset limit (some (0, unconditionalPolicies stored)) := by
  have empty : (stored.filter PolicyInfo.hasUnconditional) = [] :=
    eq_nil_of_length_eq_zero ((length_unconditionalPolicies stored).symm.trans nothing)
  refine ⟨_, by rw [empty]; rfl, ?_⟩
  rw [empty, eq_nil_of_length_eq_zero nothing, slice]
  simp

private theorem lists_getPagination : Lists stored offset limit (getPagination operationInfos stored offset limit) := by
  rw [getPagination]
  split_ifs with nothing
  · exact lists_of_nil nothing
  · cases isPage : applyPagination (unconditionalPolicies stored) offset limit with
    | nil => exact lists_of_page (by rw [isPage])
    | cons first page => exact lists_of_page (by rw [isPage, map_map]; rfl)

private theorem lists_getAccessorPolicy :
    Lists stored offset limit (getAccessorPolicy operationInfos hasType obligations stored offset limit) := by
  rw [getAccessorPolicy]
  split_ifs with nothing
  · exact lists_of_nil nothing
  · cases isPage : applyPagination (unconditionalPolicies stored) offset limit with
    | nil => exact lists_of_page (by rw [isPage])
    | cons first page => exact lists_of_page (by rw [isPage, map_bare_validObligations, map_map]; rfl)

private theorem lists_getResourcePolicy_iff (valid : limit = -1 ∨ 1 ≤ limit) :
    Lists stored offset limit (getResourcePolicy operationInfos hasType obligations stored offset limit) ↔
      limit = -1 ∨ stored.filter PolicyInfo.hasUnconditional = [] ∨
      offset < (stored.filter PolicyInfo.hasUnconditional).length := by
  rw [getResourcePolicy, ← length_eq_zero_iff, ← length_unconditionalPolicies]
  split_ifs with nothing
  · exact iff_of_true (lists_of_nil nothing) (.inr (.inl nothing))
  · have empty := @slice_eq_nil_iff offset limit _ _ valid fun empty => nothing (length_eq_zero_iff.mpr empty)
    rw [← applyPagination_eq_slice] at empty
    cases isPage : applyPagination (unconditionalPolicies stored) offset limit with
    | nil => exact iff_of_false (fun ⟨_, told, _⟩ => nomatch told) fun within => empty.mp isPage (by tauto)
    | cons first page =>
      have isSome := mt empty.mpr (isPage ▸ cons_ne_nil first page)
      exact iff_of_true (lists_of_page (by rw [isPage, map_bare_validObligations, map_map]; rfl)) (by tauto)

/-- The three lists are right exactly if the slice of the list with obligations has an entry or there is nothing to
list. -/
theorem policy_lists_iff (valid : limit = -1 ∨ 1 ≤ limit ∧ limit ≤ 1000) :
    Lists stored offset limit (getPagination operationInfos stored offset limit) ∧
        Lists stored offset limit (getAccessorPolicy operationInfos hasType obligations stored offset limit) ∧
        Lists stored offset limit (getResourcePolicy operationInfos hasType obligations stored offset limit) ↔
      limit = -1 ∨ stored.filter PolicyInfo.hasUnconditional = [] ∨
      offset < (stored.filter PolicyInfo.hasUnconditional).length := by
  rw [lists_getResourcePolicy_iff (valid.imp_right And.left)]
  exact ⟨fun all => all.2.2, fun within => ⟨lists_getPagination, lists_getAccessorPolicy, within⟩⟩

/-- What the first pages show together. -/
def shown (size count : Nat) (told : Nat → Option (Nat × List PolicyInfo)) : List PolicyInfo :=
  (range count).flatMap fun page => ((told (page * size)).elim [] Prod.snd).map PolicyInfo.bare

private theorem shown_eq {size : Nat} {told : Nat → Option (Nat × List PolicyInfo)}
    (lists : ∀ offset, Lists stored offset size (told offset))
    (count : Nat) : shown size count told = ((stored.filter PolicyInfo.hasUnconditional).map PolicyInfo.bare).take
      (count * size) := by
  induction count with
  | zero => simp [shown]
  | succ count ih =>
    obtain ⟨page, isTold, isSlice⟩ := lists (count * size)
    rw [shown, range_succ, flatMap_append, ← shown, ih, flatMap_singleton, isTold, Nat.succ_mul, take_add]
    exact congrArg _ (isSlice.trans (if_neg (by omega)))

/-- Page after page, both lists show every policy with an unconditional operation once and in order. -/
theorem pages_show_all (size count : Nat) : shown size count (getPagination operationInfos stored · size) =
      ((stored.filter PolicyInfo.hasUnconditional).map PolicyInfo.bare).take (count * size) ∧
    shown size count (getAccessorPolicy operationInfos hasType obligations stored · size) =
      ((stored.filter PolicyInfo.hasUnconditional).map PolicyInfo.bare).take (count * size) :=
  ⟨shown_eq (fun _ => lists_getPagination) count, shown_eq (fun _ => lists_getAccessorPolicy) count⟩

/-- A policy that allows one operation. -/
def readPolicy : PolicyInfo :=
  { resourceID := "r", resourceType := "doc", accessorID := "u", accessorType := .user, endTime := -1,
    rules := ⟨[{ operations := [{ id := "read" }] }], []⟩ }

theorem second_page_out_of_range : getResourcePolicy (fun _ => []) (fun _ => true) [] [readPolicy] 10 10 = none := rfl

theorem policy_lists_first_page :
    Lists [readPolicy] 0 10 (getResourcePolicy (fun _ => []) (fun _ => true) [] [readPolicy] 0 10) :=
  ((@policy_lists_iff (fun _ => []) (fun _ => true) [] [readPolicy] 0 10 (by decide)).mpr (.inr (.inr (by decide)))).2.2

end

/-! # Listing the resources of a type

`getResourceList` rebuilds each resource's chain from the rows. Its query does not select the ancestors, so the list
judges a resource by its own rows and by the whole type. Rows stored under the empty id also take part, and come first
in every walk. The results say exactly when the list nevertheless contains a resource iff `check` allows it with its
stored ancestors.
-/

open List GoMap

section

variable (svc : Services) (table : PolicyTable) (now : Int) (tokens : List String) (accessor : AccessorInfo)
  (resource : ResourceInfo)

/-- The resource an instance id stands for, with the ancestors its rows store. -/
def storedResource (type id : String) : ResourceInfo where
  id := id
  type := type
  ancestors := ((table.find? fun row => row.resourceID = id ∧ row.resourceType = type).map (·.ancestors)).getD []

/-- The list of a type contains the resource exactly when `check` allows it. -/
def ListAgrees : Prop :=
  ∀ operation includes, ∃ listed obligations,
    getResourceList svc table now resource.type accessor operation includes = .ok (listed, obligations) ∧
      ((∃ entry ∈ listed, entry.id = resource.id) ↔ Granted svc table now accessor resource operation)

/-- What the list leaves out does not matter: rows under the empty id say nothing the other levels
contradict, and where these rows and the resource's own are silent, the inherited levels say nothing
the whole type contradicts. -/
def OmittedLevelsAgree : Prop :=
  let word := levelWord svc table now resource.type tokens fun _ => none
  let above := nearest word (inheritedLevels resource)
  ∀ op, (resource.id ≠ "" → ∀ allowed, word "" op = some allowed →
      (allowed = true ↔ (word resource.id op).or ((above op).or (word "*" op)) = some true)) ∧
    (resource.id = "" ∨ word "" op = none → word resource.id op = none → ∀ allowed, above op = some allowed →
      (allowed = true ↔ word "*" op = some true))

end

variable {svc : Services} {table : PolicyTable} {now : Int} {accessor : AccessorInfo} {tokens : List String}

@[simp] theorem storedResource_id (table : PolicyTable) (type id : String) : (storedResource table type id).id = id :=
  rfl

@[simp] theorem storedResource_type (table : PolicyTable) (type id : String) :
    (storedResource table type id).type = type := rfl

private theorem filter_getPoliciesByResourceType {policies : List PolicyInfo} {type : String} (held : tokens ≠ [])
    (found : getPoliciesByResourceTypeAndAccessToken table now type tokens = .ok policies) (level : String) :
    policies.filter (fun policy => policy.resourceID = level) =
      (atLevel table now type tokens level).map PolicyInfo.selected := by
  rw [getPoliciesByResourceTypeAndAccessToken, whereIn_ok held] at found
  cases found
  rw [filter_map, filter_filter, filter_filter]
  congr 1
  apply filter_congr
  intro policy _
  simp only [Function.comp_apply, PolicyInfo.selected]
  by_cases here : policy.resourceID = level
  · simp only [here]
    cases policy.expired now <;> simp
  · simp [here]

section Queried

variable (svc) {type : String} {policies : List PolicyInfo} (held : tokens ≠ [])
  (queried : getPoliciesByResourceTypeAndAccessToken table now type tokens = .ok policies)
include held queried

private theorem ancestors_of_getPoliciesByResourceType (id : String) :
    ((assign (·.resourceID) (·.ancestors) policies ∅).lookup id).getD [] = ([] : List Ancestor) := by
  rw [lookup_assign]
  cases last : policies.reverse.find? fun policy => policy.resourceID = id with
  | none => rfl
  | some policy =>
    have mem := mem_reverse.mp (mem_of_find?_eq_some last)
    rw [getPoliciesByResourceTypeAndAccessToken, whereIn_ok held] at queried
    cases queried
    obtain ⟨row, _, rfl⟩ := mem_map.mp mem
    rfl

/-- The walk for an instance hears the empty id, the instance and the whole type. -/
theorem decision_getResourceList (id op : String) :
    (calcResourceInheritedOperation (createAncestorsResource { id, type, ancestors := [] })
        (calcEach svc (fun _ => none) (groupBy (·.resourceID) policies))).decision op =
      (levelWord svc table now type tokens (fun _ => none) "" op).or
        ((levelWord svc table now type tokens (fun _ => none) id op).or
          (if id ≠ "*" then levelWord svc table now type tokens (fun _ => none) "*" op else none)) := by
  have word (level : String) : (((calcEach svc (fun _ => none) (groupBy (·.resourceID) policies)).lookup level).getD
    .zero).mention op =
      levelWord svc table now type tokens (fun _ => none) level op := by
    rw [mention_calcEach, filter_getPoliciesByResourceType held queried, mention_map_selected, levelWord]
  rw [calcResourceInheritedOperation, decision_inheritedOperation, nearest_walkIDs]
  simp [word, inheritedLevels]

private theorem mem_keys_calcEach_getPoliciesByResourceType (id : String) :
    id ∈ (calcEach svc (fun _ => none) (groupBy (·.resourceID) policies)).keys ↔
    atLevel table now type tokens id ≠ [] := by
  rw [← AList.mem_keys, ← AList.lookup_isSome, calcEach, lookup_filterMap, lookup_groupBy,
    filter_getPoliciesByResourceType held queried]
  cases atLevel table now type tokens id <;> simp

end Queried

/-- The list holds the ids that have policies in force and pass the walk without ancestors, which
hears the empty id, the resource and the whole type. -/
theorem getResourceList_spec (table : PolicyTable) (now : Int)
    (found : getAccessorIDs svc accessor = .ok tokens) (type : String)
    (operation : List String) (includes : List PolicCalcyIncludeType) :
    ∃ listed obligations, getResourceList svc table now type accessor operation includes = .ok (listed, obligations) ∧
      ∀ id, (∃ entry ∈ listed, entry.id = id) ↔ atLevel table now type tokens id ≠ [] ∧ ∀ op ∈ operation,
        (levelWord svc table now type tokens (fun _ => none) "" op).or
          ((levelWord svc table now type tokens (fun _ => none) id op).or
            (if id ≠ "*" then levelWord svc table now type tokens (fun _ => none) "*" op else none)) = some true := by
  have held := getAccessorIDs_ne_nil found
  obtain ⟨policies, queried⟩ : ∃ policies,
      getPoliciesByResourceTypeAndAccessToken table now type tokens = .ok policies := ⟨_, whereIn_ok held _⟩
  have keys := mem_keys_calcEach_getPoliciesByResourceType svc held queried
  have decided := decision_getResourceList svc held queried
  simp only [getResourceList, found, queried, bind, Except.bind, ancestors_of_getPoliciesByResourceType held queried]
  refine ⟨_, _, rfl, fun id => ?_⟩
  constructor
  · rintro ⟨entry, mem, rfl⟩
    obtain ⟨key, kept, rfl⟩ := mem_map.mp mem
    obtain ⟨present, allowed⟩ := mem_filter.mp kept
    refine ⟨(keys key).mp present, fun op asked => ?_⟩
    rw [← decided]
    exact (InheritedOperation.allows_iff _ operation).mp allowed op asked
  · rintro ⟨present, allowed⟩
    refine ⟨_, mem_map_of_mem (mem_filter.mpr ⟨(keys id).mpr present, ?_⟩), rfl⟩
    rw [InheritedOperation.allows_iff]
    exact fun op asked => (decided id op).trans (allowed op asked)

private theorem levelWord_of_unconditional (unconditional : ∀ policy ∈ table, policy.Unconditional) (type : String)
    (data other : String → Option Json) (level op : String) :
    levelWord svc table now type tokens data level op = levelWord svc table now type tokens other level op :=
  mention_of_unconditional (fun policy mem => unconditional policy (mem_filter.mp mem).1) _ _

private theorem or_or_iff (first own above whole : Option Bool) :
    (first.or (own.or whole) = some true ↔ own.or (above.or whole) = some true) ↔
      (∀ allowed, first = some allowed → (allowed = true ↔ own.or (above.or whole) = some true)) ∧
        (first = none → own = none → ∀ allowed, above = some allowed → (allowed = true ↔ whole = some true)) := by
  cases first <;> cases own <;> cases above <;> simp [iff_comm, eq_comm]

private theorem or_self_or_iff (own above whole : Option Bool) :
    (own.or (own.or whole) = some true ↔ own.or (above.or whole) = some true) ↔
    (own = none → ∀ allowed, above = some allowed → (allowed = true ↔ whole = some true)) := by
  cases own <;> cases above <;> simp [iff_comm]

/-- On a store without conditions, a listed instance is judged as `check` judges it with its stored
ancestors exactly when the levels that the list omits or adds do not matter. -/
theorem listAgrees_iff (found : getAccessorIDs svc accessor = .ok tokens)
    (unconditional : ∀ policy ∈ table, policy.Unconditional)
    {type id : String} (concrete : id ≠ "*") (held : atLevel table now type tokens id ≠ []) :
    ListAgrees svc table now accessor (storedResource table type id) ↔
      OmittedLevelsAgree svc table now tokens (storedResource table type id) := by
  have verdicts : ListAgrees svc table now accessor (storedResource table type id) ↔ ∀ op,
      ((levelWord svc table now type tokens (fun _ => none) "" op).or
      ((levelWord svc table now type tokens (fun _ => none) id op).or
            (levelWord svc table now type tokens (fun _ => none) "*" op)) = some true ↔
              verdict svc table now type tokens
          (fun _ => requestData (storedResource table type id) accessor) (levels (storedResource table type id)) op =
            some true) := by
    constructor
    · intro agrees op
      obtain ⟨listed, obligations, ran, same⟩ := agrees [op] []
      obtain ⟨listed', obligations', ran', spec⟩ := getResourceList_spec table now found type [op] []
      obtain ⟨rfl, rfl⟩ := Prod.mk.inj (Except.ok.inj (ran.symm.trans ran'))
      have entry := (spec id).symm.trans (same.trans (granted_iff found _ _))
      simpa only [storedResource_type, held, ne_eq, not_false_eq_true, true_and, forall_mem_singleton, concrete,
        ↓reduceIte] using entry
    · intro same operation includes
      obtain ⟨listed, obligations, ran, spec⟩ := getResourceList_spec table now found type operation includes
      refine ⟨listed, obligations, ran, (spec id).trans ?_⟩
      rw [granted_iff found]
      simp only [held, ne_eq, not_false_eq_true, true_and, concrete]
      exact forall₂_congr fun op _ => same op
  rw [verdicts]
  refine forall_congr' fun op => ?_
  rw [verdict, nearest_congr fun level _ => levelWord_of_unconditional unconditional type _ (fun _ =>
    none) level op, nearest_levels]
  simp only [storedResource_id]
  by_cases empty : id = ""
  · simp only [empty, ne_eq, not_true_eq_false, false_implies, true_and, true_or, true_implies]
    exact or_self_or_iff _ _ _
  · simp only [empty, ne_eq, not_false_eq_true, true_implies, false_or]
    exact or_or_iff _ _ _ _

section Samples

open Sample

/-- A document in a folder, with the right to write it. -/
def documentRow : PolicyInfo := { row "d" [rule "write"] [] with ancestors := [⟨"p", "", ""⟩] }

/-- Where nothing is stored below the folder, the list and `check` agree on its document. -/
theorem listAgrees_iff_sample : getAccessorIDs services app = .ok ["app"] ∧
    ListAgrees services [documentRow, row "*" [rule "read"] []] 0 app
      (storedResource [documentRow, row "*" [rule "read"] []] "doc" "d") := by
  refine ⟨rfl, (listAgrees_iff getAccessorIDs_app (by decide) (by decide) (by decide)).mpr ?_⟩
  intro op
  refine ⟨fun _ allowed spoken => ?_, fun _ _ allowed spoken => ?_⟩
  · cases spoken
  · cases spoken

/-- Reading is denied below the folder and allowed on the whole type: the list offers the document
for reading, and `check` with its stored ancestors refuses it. -/
theorem list_ignores_inherited_denial :
    (∀ policy ∈ [documentRow, row "p/*" [] [rule "read"], row "*" [rule "read"] []], policy.Unconditional) ∧
    atLevel [documentRow, row "p/*" [] [rule "read"], row "*" [rule "read"] []] 0 "doc" ["app"] "d" ≠ [] ∧
    ¬ ListAgrees services [documentRow, row "p/*" [] [rule "read"], row "*" [rule "read"] []] 0 app
      (storedResource [documentRow, row "p/*" [] [rule "read"], row "*" [rule "read"] []] "doc" "d") := by
  refine ⟨by decide, by decide, fun agrees => ?_⟩
  obtain ⟨listed, obligations, ran, same⟩ := agrees ["read"] []
  have offered := congrArg (Except.map fun answer => answer.1.any fun entry => entry.id == "d") ran
  change Except.ok true = Except.ok _ at offered
  obtain ⟨entry, mem, here⟩ := any_eq_true.mp (Except.ok.inj offered).symm
  obtain ⟨checkResult, answered, result⟩ := same.mp ⟨entry, mem, by simpa using here⟩
  have refused := congrArg (Except.map (·.result)) answered
  change Except.ok false = Except.ok checkResult.result at refused
  exact absurd ((Except.ok.inj refused).trans result) (by decide)

end Samples

end SecurityFabric.Authorization
