import SecurityFabric.Model.PolicyManagement

/-! # What the handlers of product authorizations compute

The removals of a plan, grouped by product, are the removal of its rows. The change a request computes
for a product is the number of its new rows less that of those it removes, and every product that
grows under a quota is counted. So by its transaction a handler has found room for
each product it adds: in the rows it counted, or because it removes as many as it adds.
-/

namespace SecurityFabric.PolicyManagement

open List GoMap AList

variable {quotas : GoMap String Int} {product : String}

private theorem foldl_filter_eq {α β : Type} (keep : β → α → Bool) (rounds : List β) (rows : List α) :
    rounds.foldl (fun rows round => rows.filter (keep round)) rows = rows.filter fun row =>
      rounds.all fun round => keep round row := by
  induction rounds generalizing rows with
  | nil => simp
  | cons round rest ih =>
    rw [foldl_cons, ih, filter_filter]
    exact filter_congr fun row _ => by rw [all_cons, Bool.and_comm]

private theorem deleteAuthorizedProducts_eq (rows products : List ProductInfo) :
    deleteAuthorizedProducts rows products = rows.filter (· ∉ products) := by
  unfold deleteAuthorizedProducts
  rw [foldl_filter_eq]
  refine filter_congr fun row _ => Bool.eq_iff_iff.mpr ?_
  simp only [all_eq_true, decide_eq_true_eq, not_and]
  constructor
  · intro spared mem
    have grouped := lookup_concat ProductInfo.product (fun info => [info.accountID]) products ∅ row.product
    have nonempty : products.filter (fun info => info.product = row.product) ≠ [] :=
      ne_nil_of_mem (mem_filter.mpr ⟨mem, decide_eq_true rfl⟩)
    rw [if_neg nonempty] at grouped
    refine spared _ (mem_lookup_iff.mp grouped) ?_ rfl
    simpa using ⟨row, ⟨mem, rfl⟩, rfl⟩
  · rintro absent ⟨product, accounts⟩ group account rfl
    have grouped := mem_lookup_iff.mpr group
    rw [lookup_concat] at grouped
    split_ifs at grouped with empty
    · cases grouped
    · obtain ⟨info, ⟨mem, same⟩, sameAccount⟩ : ∃ info, (info ∈ products ∧ info.product = row.product) ∧
          row.accountID = info.accountID := by
        rw [← Option.some.inj grouped] at account
        simpa using account
      obtain ⟨accountID, product⟩ := info
      cases same
      cases sameAccount
      exact absent mem

/-- Rows of a product that a plan removes from a table. -/
def Plan.removed (plan : Plan) (rows : List ProductInfo) (product : String) : Nat :=
  getProductsAuthorizedCount (rows.filter (· ∈ plan.needDeleteProducts)) product

theorem count_write (plan : Plan) (rows : List ProductInfo) (product : String) :
    getProductsAuthorizedCount (plan.write rows) product + plan.removed rows product =
      getProductsAuthorizedCount rows product + getProductsAuthorizedCount plan.needAddProducts product := by
  have parts := countP_eq_countP_filter_add rows (fun row => decide (row.product = product))
    (fun row => decide (row ∈ plan.needDeleteProducts))
  simp only [Plan.write, addAuthorizedProducts, deleteAuthorizedProducts_eq, Plan.removed, getProductsAuthorizedCount,
    countP_append, decide_not]
  omega

private theorem lookup_getLicenses (quotas : GoMap String Int) (product : String) :
    (getLicenses quotas).lookup product = (quotas.lookup product).map (License.mk product) := by
  rw [getLicenses, lookup_filterMap]
  cases quotas.lookup product <;> rfl

/-- A licence for new users is one of the licences, under its own product. -/
theorem quota_of_lookup_default {config : Option (List String)} {license : License}
    (found : (getLicensesFromDefaultConfig quotas config).lookup product = some license) :
    quotas.lookup product = some license.totalUserQuota := by
  have listed {key : String} (found : (getLicenses quotas).lookup key = some license) :
      license.product = key ∧ quotas.lookup key = some license.totalUserQuota := by
    rw [lookup_getLicenses] at found
    obtain ⟨quota, isQuota, rfl⟩ := Option.map_eq_some_iff.mp found
    exact ⟨rfl, isQuota⟩
  cases config with
  | none => exact (listed found).2
  | some productList =>
    rw [getLicensesFromDefaultConfig, lookup_assign, lookup_empty, Option.or_none, Option.map_id] at found
    have named : license.product = product := by simpa using find?_some found
    have mem := mem_reverse.mp (mem_of_find?_eq_some found)
    obtain ⟨key, stored⟩ := (mem_values _ _).mp (mem_filter.mp mem).1
    obtain ⟨same, quota⟩ := listed stored
    rw [← named, same]
    exact quota

/-- The change computed for each product is that of the rows. -/
def Plan.Balanced (plan : Plan) : Prop := ∀ product, (plan.mapProductChange.lookup product).getD 0 =
    (getProductsAuthorizedCount plan.needAddProducts product : Int) - getProductsAuthorizedCount
    plan.needDeleteProducts product

private theorem count_of_user (userID : String) (products : List String) (product : String) :
    getProductsAuthorizedCount (products.map (ProductInfo.mk userID)) product = products.count product := by
  rw [getProductsAuthorizedCount, countP_map]
  rfl

variable {plan : Plan}

private theorem Plan.Balanced.addUser (balanced : plan.Balanced) (name userID : String) (current future : List String) :
    (plan.addUser name userID current future).Balanced := by
  intro product
  have before := balanced product
  simp only [Plan.addUser, lookup_tally, getProductsAuthorizedCount, countP_append] at before ⊢
  rw [before]
  have added := count_of_user userID (future.filter (· ∉ current)) product
  have deleted := count_of_user userID (current.filter (· ∉ future)) product
  simp only [getProductsAuthorizedCount] at added deleted
  rw [added, deleted]
  push_cast
  ring

private theorem UpdateRequest.balanced_plan (request : UpdateRequest) (current : GoMap String (List String)) :
    (request.plan current).Balanced := by
  have start : ({} : Plan).Balanced := fun product => by simp
  unfold UpdateRequest.plan
  generalize ({} : Plan) = plan at start
  induction request.userIDs generalizing plan with
  | nil => exact start
  | cons userID rest ih => exact ih _ (start.addUser _ _ _ _)

/-- A product that grows under a quota is counted. -/
theorem Plan.Balanced.counted (balanced : plan.Balanced) {quota : Int} (limited : quotas.lookup product = some quota)
    (bounded : quota ≠ -1)
    (grows : getProductsAuthorizedCount plan.needDeleteProducts product <
      getProductsAuthorizedCount plan.needAddProducts product) :
    product ∈ plan.countedProducts (getLicenses quotas) := by
  have change := balanced product
  cases found : plan.mapProductChange.lookup product with
  | none =>
    rw [found, Option.getD_none] at change
    omega
  | some value =>
    rw [found, Option.getD_some] at change
    have key : product ∈ plan.mapProductChange := lookup_isSome.mp (by rw [found]; rfl)
    refine mem_filter.mpr ⟨mem_keys.mp key, ?_⟩
    simp only [lookup_getLicenses, limited, found, Option.map_some, decide_eq_true_eq]
    exact ⟨by omega, bounded⟩

section

variable (quotas : GoMap String Int) (plan : Plan) (todo : List String) (counts : List (String × Nat))
  (current : GoMap String (List String)) (handler : Handler)

/-- Each product with a quota that the plan adds loses as many rows as it gains, or was counted with
enough room left. -/
def Plan.HasRoom : Prop :=
  ∀ product quota, quotas.lookup product = some quota → quota ≠ -1 →
    0 < getProductsAuthorizedCount plan.needAddProducts product →
      getProductsAuthorizedCount plan.needAddProducts product ≤
      getProductsAuthorizedCount plan.needDeleteProducts product ∨
        ∃ counted, (product, counted) ∈ counts ∧ (counted : Int) +
        getProductsAuthorizedCount plan.needAddProducts product ≤
            quota + getProductsAuthorizedCount plan.needDeleteProducts product

/-- What a handler in the middle of its counts knows. -/
def Handler.Counting : Handler → Prop
  | .updateAuthorizedProducts _ => plan.Balanced ∧
      ∀ product ∈ plan.countedProducts (getLicenses quotas), product ∈ todo ∨ product ∈ counts.map (·.1)
  | .userAddAllProducts _ => (counts.map (·.1) ++ todo).Nodup
  | .userDeleteAllProducts _ => True

def Handler.Checked : HandlerPhase → Prop
  | .counting plan todo counts => handler.Counting quotas plan todo counts
  | .writing plan counts => plan.HasRoom quotas counts
  | _ => True

theorem Handler.checked_begin : handler.Checked quotas (handler.begin quotas) := by
  cases handler with
  | updateAuthorizedProducts request =>
    simp only [Handler.begin]
    cases request.authorize <;> trivial
  | userAddAllProducts event =>
    simp only [Handler.begin]
    split_ifs <;> trivial
  | userDeleteAllProducts userID => trivial

theorem Handler.checked_afterReading : handler.Checked quotas (handler.afterReading quotas current) := by
  cases handler with
  | updateAuthorizedProducts request => exact ⟨request.balanced_plan current, fun _ => .inl⟩
  | userAddAllProducts event => exact (keys_nodup _).filter _
  | userDeleteAllProducts userID => trivial

end

variable {counts : List (String × Nat)} {handler : Handler}

/-- One more product counted. -/
theorem Handler.Counting.count {todo : List String} (counting : handler.Counting quotas plan todo counts)
    (open_ : product ∈ todo) (number : Nat) :
    handler.Counting quotas plan (todo.erase product) (counts ++ [(product, number)]) := by
  cases handler with
  | updateAuthorizedProducts request =>
    refine ⟨counting.1, fun other needed => ?_⟩
    rw [map_append, mem_append]
    by_cases same : other = product
    · exact .inr (.inr (by simp [same]))
    · rcases counting.2 other needed with waiting | done
      · exact .inl ((mem_erase_of_ne same).mpr waiting)
      · exact .inr (.inl done)
  | userAddAllProducts event =>
    refine Perm.nodup ?_ counting
    rw [map_append, append_assoc]
    exact (perm_cons_erase open_).append_left _
  | userDeleteAllProducts userID => trivial

/-- Nothing is over its quota by the counts of a request. -/
theorem Plan.hasRoom_of_balanced (balanced : plan.Balanced)
    (counted : ∀ product ∈ plan.countedProducts (getLicenses quotas), product ∈ counts.map (·.1))
    (within : plan.overQuotaProducts (getLicenses quotas) counts = []) : plan.HasRoom quotas counts := by
  intro product quota limited bounded _
  by_cases shrinks : getProductsAuthorizedCount plan.needAddProducts product ≤
    getProductsAuthorizedCount plan.needDeleteProducts product
  · exact .inl shrinks
  · obtain ⟨⟨other, count⟩, mem, same⟩ := mem_map.mp (counted product
      (balanced.counted limited bounded (Nat.lt_of_not_le shrinks)))
    obtain rfl : other = product := same
    refine .inr ⟨count, mem, ?_⟩
    have fits := filter_eq_nil_iff.mp (map_eq_nil_iff.mp within) _ mem
    simp only [lookup_getLicenses, limited, Option.map_some, decide_eq_true_eq, balanced other] at fits
    omega

/-- An event adds a product once, where it counted room for one more. -/
theorem UserEvent.hasRoom_productes (event : UserEvent) (once : (counts.map (·.1)).Nodup) : Plan.HasRoom quotas
    { needAddProducts := event.productes (getLicensesFromDefaultConfig quotas event.config) counts } counts := by
  intro product quota limited bounded added
  obtain ⟨row, mem, same⟩ := countP_pos_iff.mp added
  obtain ⟨⟨other, count⟩, chosen, rfl⟩ := mem_map.mp mem
  obtain rfl : other = product := of_decide_eq_true same
  obtain ⟨counted, fits⟩ := mem_filter.mp chosen
  refine .inr ⟨count, counted, ?_⟩
  have single : getProductsAuthorizedCount
      (event.productes (getLicensesFromDefaultConfig quotas event.config) counts) other ≤ 1 := by
    calc getProductsAuthorizedCount (event.productes _ counts) other
        ≤ (counts.map (·.1)).count other := by
          rw [UserEvent.productes, getProductsAuthorizedCount, countP_map, count_eq_countP, countP_map]
          exact Sublist.countP_le filter_sublist
      _ ≤ 1 := nodup_iff_count_le_one.mp once other
  cases found : (getLicensesFromDefaultConfig quotas event.config).lookup other with
  | none => simp [found] at fits
  | some license =>
    have licensed := quota_of_lookup_default found
    rw [limited, Option.some.injEq] at licensed
    simp only [found, decide_eq_true_eq] at fits
    simp only at single ⊢
    omega

theorem Handler.checked_afterCounting (counting : handler.Counting quotas plan [] counts) :
    handler.Checked quotas (handler.afterCounting quotas plan counts) := by
  cases handler with
  | updateAuthorizedProducts request =>
    simp only [Handler.afterCounting]
    split_ifs with refused
    · trivial
    · refine Plan.hasRoom_of_balanced counting.1 (fun product needed => ?_) (not_not.mp fun beyond =>
        refused (.inr beyond))
      exact (counting.2 product needed).resolve_left not_mem_nil
  | userAddAllProducts event =>
    simp only [Handler.afterCounting]
    split_ifs with nothing
    · trivial
    · exact event.hasRoom_productes (by simpa [Handler.Counting] using counting)
  | userDeleteAllProducts userID => trivial

end SecurityFabric.PolicyManagement
