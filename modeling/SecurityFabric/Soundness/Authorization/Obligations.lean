import Mathlib.Data.List.Sort
import SecurityFabric.Model.Authorization.ObligationType
import SecurityFabric.Model.Authorization.Policy

/-! # Which obligations an operation comes with

For each operation and type of obligation, the item with the smallest priority should be returned, out of those that are
usable: with a value of its own, or with an obligation that still exists. The function picks the first item of each type
in the order of priorities, and only then drops the items whose obligation is gone. So such an item hides the usable
items of its type, unless one with a smaller priority comes before it; among equal priorities the sort leaves the order
open.
-/

namespace SecurityFabric.Authorization

open List

section

open GoMap

variable (svc : Services) (existing : List ObligationInfo) (items : List PolicyObligationCalcItem)

/-- An item with a value of its own, or one whose obligation exists. -/
def Usable (item : PolicyObligationItem) : Prop := item.id = "" ∨ ∃ info ∈ existing, info.id = item.id

instance (existing : List ObligationInfo) (item : PolicyObligationItem) : Decidable (Usable existing item) :=
  inferInstanceAs (Decidable (_ ∨ ∃ info ∈ existing, info.id = item.id))

section

variable (sort : PrioritySort) (allowMap : GoMap String (List PolicyObligationCalcItem)) (operation : String)
  (chosen : List PolicyObligationItem)

/-- Services that know these obligations and sort in this way. -/
def Services.withObligations : Services :=
  { svc with
    obligationGetByIDSInternal := fun ids => .ok (existing.filter fun info => info.id ∈ ids)
    sort := sort }

/-- The items that are returned for an operation. -/
def obligationsFor : List PolicyObligationItem :=
  ((calcObligationWithPriority svc allowMap).lookup operation).getD []

/-- One usable item of each type that has one, with the smallest priority. -/
structure Chosen : Prop where
  once : (chosen.map (·.typeID)).Nodup
  types : ∀ typeID, typeID ∈ chosen.map (·.typeID) ↔ ∃ item ∈ items, item.typeID = typeID ∧
    Usable existing item.toPolicyObligationItem
  smallest : ∀ choice ∈ chosen, ∃ item ∈ items, item.typeID = choice.typeID ∧ item.id = choice.id ∧
    (item.id = "" → item.value = choice.value) ∧ Usable existing item.toPolicyObligationItem ∧
    ∀ other ∈ items, other.typeID = choice.typeID → Usable existing other.toPolicyObligationItem →
      item.priority ≤ other.priority

/-- Every item whose obligation is gone comes behind another one of its type, if the type has a usable item at all. -/
def GoneComeLater : Prop := ∀ gone ∈ items, ¬ Usable existing gone.toPolicyObligationItem →
    (∃ item ∈ items, item.typeID = gone.typeID ∧ Usable existing item.toPolicyObligationItem) →
    ∃ item ∈ items, item.typeID = gone.typeID ∧ item.priority < gone.priority

private theorem lookup_firstOfEachType (typeID : String) : (firstOfEachType items).lookup typeID =
    (items.find? fun item => item.typeID = typeID).map PolicyObligationCalcItem.toPolicyObligationItem := by
  have general (m : GoMap String PolicyObligationItem) : (items.foldl (fun rTmp obligation =>
      if obligation.typeID ∈ rTmp then rTmp else rTmp.insert obligation.typeID obligation.toPolicyObligationItem)
        m).lookup typeID =
      (m.lookup typeID).or
        ((items.find? fun item => item.typeID = typeID).map PolicyObligationCalcItem.toPolicyObligationItem) := by
    induction items generalizing m with
    | nil => simp
    | cons item rest ih =>
      rw [foldl_cons, ih]
      by_cases present : item.typeID ∈ m
      · rw [if_pos present]
        by_cases same : item.typeID = typeID
        · subst same
          obtain ⟨held, isHeld⟩ := Option.isSome_iff_exists.mp (AList.lookup_isSome.mpr present)
          simp [isHeld]
        · simp [same]
      · rw [if_neg present]
        by_cases same : item.typeID = typeID
        · subst same
          simp [AList.lookup_eq_none.mpr present]
        · simp [AList.lookup_insert_ne (Ne.symm same), same]
  rw [firstOfEachType]
  simpa using general ∅

private theorem keyed_firstOfEachType : GoMap.Keyed (·.typeID) (firstOfEachType items) := by
  intro typeID held isHeld
  rw [lookup_firstOfEachType, Option.map_eq_some_iff] at isHeld
  obtain ⟨item, found, rfl⟩ := isHeld
  simpa using find?_some found

private theorem map_filterMap_sublist {ν κ : Type} {key : ν → κ} {keep : ν → Option ν}
    (same : ∀ v w, keep v = some w → key w = key v)
    (values : List ν) : ((values.filterMap keep).map key).Sublist (values.map key) := by
  induction values with
  | nil => exact .slnil
  | cons v rest ih =>
    cases kept : keep v with
    | none => simpa [kept] using ih.cons (key v)
    | some w =>
      rw [filterMap_cons_some kept, map_cons, same v w kept]
      exact ih.cons_cons (key v)

private theorem rel_of_find? {α : Type} {le : α → α → Prop} {test : α → Bool} {list : List α} {first other : α}
    (sorted : list.Pairwise le)
    (found : list.find? test = some first) (mem : other ∈ list) (passes : test other = true) :
    first = other ∨ le first other := by
  obtain ⟨-, before, behind, rfl, notBefore⟩ := find?_eq_some_iff_append.mp found
  rw [mem_append, mem_cons] at mem
  rcases mem with isBefore | rfl | isBehind
  · simpa [passes] using notBefore other isBefore
  · exact .inl rfl
  · exact .inr (rel_of_pairwise_cons (pairwise_append.mp sorted).2.1 isBehind)

private theorem priority_le_of_find? {sort : PrioritySort} {items : List PolicyObligationCalcItem} {typeID : String}
    {first other : PolicyObligationCalcItem}
    (found : (sort.slice items).find? (fun item => item.typeID = typeID) = some first)
    (mem : other ∈ items) (isType : other.typeID = typeID) : first.priority ≤ other.priority := by
  have inSorted : other ∈ sort.slice items := (sort.perm items).mem_iff.mpr mem
  rcases rel_of_find? (sort.sorted items) found inSorted (by simpa using isType) with rfl | smaller
  · exact le_refl _
  · exact smaller

/-- The item with the present value of its obligation, unless that is gone. -/
def refreshed (item : PolicyObligationItem) : Option PolicyObligationItem :=
  if item.id = "" then some item
  else ((assign (·.id) (·.value) existing ∅).lookup item.id).map fun value => { item with value }

private theorem refreshed_isSome_iff {existing : List ObligationInfo} {item : PolicyObligationItem} :
    (refreshed existing item).isSome ↔ Usable existing item := by
  rw [refreshed, Usable]
  split_ifs with own
  · simp [own]
  · rw [Option.isSome_map, AList.lookup_isSome, mem_assign]
    simp [own]

private theorem refreshed_eq {existing : List ObligationInfo} {item fresh : PolicyObligationItem}
    (isFresh : refreshed existing item = some fresh) :
    fresh.typeID = item.typeID ∧ fresh.id = item.id ∧ (item.id = "" → fresh.value = item.value) := by
  rw [refreshed] at isFresh
  split_ifs at isFresh with own
  · rw [Option.some.inj isFresh]
    exact ⟨rfl, rfl, fun _ => rfl⟩
  · obtain ⟨value, -, rfl⟩ := Option.map_eq_some_iff.mp isFresh
    exact ⟨rfl, rfl, fun isOwn => absurd isOwn own⟩

theorem lookup_asked {existing : List ObligationInfo} {ids : List String} {id : String} (asked : id ∈ ids) :
    (assign (·.id) (·.value) (existing.filter fun info => info.id ∈ ids) ∅ : GoMap String Json).lookup id =
      (assign (·.id) (·.value) existing ∅ : GoMap String Json).lookup id := by
  rw [lookup_assign, lookup_assign, ← filter_reverse, find?_filter]
  congr 3
  funext info
  by_cases same : info.id = id
  · simp [same, asked]
  · simp [same]

/-- The items that are returned for an operation depend on its own items only. -/
theorem obligationsFor_eq :
    obligationsFor (svc.withObligations existing sort) allowMap operation =
      ((allowMap.lookup operation).map fun items =>
        (GoMap.values (firstOfEachType (sort.slice items))).filterMap (refreshed existing)).getD [] := by
  have looked : (filterMap (fun _ obligations => some (GoMap.values (firstOfEachType (sort.slice obligations))))
      allowMap).lookup operation = (allowMap.lookup operation).map fun items =>
        GoMap.values (firstOfEachType (sort.slice items)) := by
    rw [lookup_filterMap]
    cases allowMap.lookup operation <;> rfl
  have isSort : (svc.withObligations existing sort).sort = sort := rfl
  rw [obligationsFor, calcObligationWithPriority, isSort]
  revert looked
  generalize filterMap (fun _ obligations => some (GoMap.values (firstOfEachType (sort.slice obligations)))) allowMap =
    result
  intro looked
  -- the ids of all operations are asked for together
  have asked {oblist : List PolicyObligationItem} {ob : PolicyObligationItem}
    (isList : result.lookup operation = some oblist)
      (mem : ob ∈ oblist) (named : ob.id ≠ "") :
      ob.id ∈ (collect (((GoMap.values result).flatten.map (·.id)).filter fun id => id ≠ "")).keys := by
    rw [← AList.mem_keys, mem_collect, mem_filter]
    refine ⟨mem_map_of_mem (mem_flatten.mpr ⟨oblist, ?_, mem⟩), by simpa using named⟩
    exact (mem_values result oblist).mpr ⟨operation, isList⟩
  revert asked
  generalize (collect (((GoMap.values result).flatten.map (·.id)).filter fun id => id ≠ "")).keys = ids
  intro asked
  cases isList : allowMap.lookup operation with
  | none =>
    rw [isList] at looked
    split_ifs
    · rw [looked]
      rfl
    · change ((filterMap _ result).lookup operation).getD [] = _
      rw [lookup_filterMap, looked]
      rfl
  | some items =>
    rw [isList, Option.map_some] at looked
    rw [Option.map_some, Option.getD_some]
    split_ifs with nothing
    · rw [looked, Option.getD_some]
      have unnamed : ∀ ob ∈ GoMap.values (firstOfEachType (sort.slice items)), refreshed existing ob = some ob := by
        intro ob mem
        by_cases named : ob.id = ""
        · rw [refreshed, if_pos named]
        · have isAsked := asked looked mem named
          rw [nothing] at isAsked
          cases isAsked
      rw [filterMap_congr unnamed, filterMap_some]
    · have kept : ∀ ob ∈ GoMap.values (firstOfEachType (sort.slice items)), (if ob.id = "" then some ob
            else ((assign (·.id) (·.value) (existing.filter fun info => info.id ∈ ids) ∅ : GoMap String Json).lookup
              ob.id).map
              fun value => { ob with value }) = refreshed existing ob := by
        intro ob mem
        by_cases named : ob.id = ""
        · rw [refreshed, if_pos named, if_pos named]
        · rw [refreshed, if_neg named, if_neg named, lookup_asked (asked looked mem named)]
      change ((filterMap _ result).lookup operation).getD [] = _
      rw [lookup_filterMap, looked, Option.bind_some, filterMap_congr kept]
      generalize filterMap (refreshed existing) _ = list
      cases list <;> rfl

/-- The chosen items, in terms of the order of the sort. -/
theorem chosen_iff (items : List PolicyObligationCalcItem) :
    Chosen existing items ((GoMap.values (firstOfEachType (sort.slice items))).filterMap (refreshed existing)) ↔
      ∀ first, ∀ typeID, (sort.slice items).find? (fun item => item.typeID = typeID) = some first →
        (∃ item ∈ items, item.typeID = typeID ∧ Usable existing item.toPolicyObligationItem) →
        Usable existing first.toPolicyObligationItem := by
  have member_iff (item : PolicyObligationCalcItem) : item ∈ sort.slice items ↔
    item ∈ items := (sort.perm items).mem_iff
  have mem_chosen (choice : PolicyObligationItem) :
      choice ∈ (GoMap.values (firstOfEachType (sort.slice items))).filterMap (refreshed existing) ↔
        ∃ first typeID, (sort.slice items).find? (fun item => item.typeID = typeID) = some first ∧
          refreshed existing first.toPolicyObligationItem = some choice := by
    simp only [mem_filterMap, mem_values, lookup_firstOfEachType, Option.map_eq_some_iff]
    constructor
    · rintro ⟨_, ⟨typeID, first, found, rfl⟩, isFresh⟩
      exact ⟨first, typeID, found, isFresh⟩
    · rintro ⟨first, typeID, found, isFresh⟩
      exact ⟨_, ⟨typeID, first, found, rfl⟩, isFresh⟩
  constructor
  · intro chosen first typeID found some
    obtain ⟨choice, isChoice, sameType⟩ := mem_map.mp ((chosen.types typeID).mpr some)
    obtain ⟨other, otherType, otherFound, isFresh⟩ := (mem_chosen choice).mp isChoice
    have isType : other.typeID = otherType := by simpa using find?_some otherFound
    obtain ⟨typeKept, -, -⟩ := refreshed_eq isFresh
    have sameTypes : otherType = typeID := by rw [← isType, ← sameType, typeKept]
    rw [sameTypes, found] at otherFound
    rw [Option.some.inj otherFound]
    exact refreshed_isSome_iff.mp (Option.isSome_of_eq_some isFresh)
  · intro usable
    refine ⟨?_, fun typeID => ?_, fun choice isChoice => ?_⟩
    · have sublist := map_filterMap_sublist (fun item fresh isFresh => (@refreshed_eq existing item fresh isFresh).1)
        (GoMap.values (firstOfEachType (sort.slice items)))
      exact sublist.nodup (keyed_firstOfEachType _).nodup_map_values
    · rw [mem_map]
      constructor
      · rintro ⟨choice, isChoice, rfl⟩
        obtain ⟨first, typeID, found, isFresh⟩ := (mem_chosen choice).mp isChoice
        refine ⟨first, (member_iff first).mp (mem_of_find?_eq_some found), (refreshed_eq isFresh).1.symm, ?_⟩
        exact refreshed_isSome_iff.mp (Option.isSome_of_eq_some isFresh)
      · rintro ⟨item, mem, isType, isUsable⟩
        have someFound : ((sort.slice items).find? fun item => item.typeID = typeID).isSome :=
          find?_isSome.mpr ⟨item, (member_iff item).mpr mem, by simpa using isType⟩
        obtain ⟨first, found⟩ := Option.isSome_iff_exists.mp someFound
        obtain ⟨choice, isFresh⟩ := Option.isSome_iff_exists.mp
          (refreshed_isSome_iff.mpr (usable first typeID found ⟨item, mem, isType, isUsable⟩))
        refine ⟨choice, (mem_chosen choice).mpr ⟨first, typeID, found, isFresh⟩, ?_⟩
        rw [(refreshed_eq isFresh).1]
        simpa using find?_some found
    · obtain ⟨first, typeID, found, isFresh⟩ := (mem_chosen choice).mp isChoice
      have isType : first.typeID = typeID := by simpa using find?_some found
      obtain ⟨sameType, sameID, sameValue⟩ := refreshed_eq isFresh
      refine ⟨first, (member_iff first).mp (mem_of_find?_eq_some found), sameType.symm, sameID.symm,
        fun own => (sameValue own).symm, refreshed_isSome_iff.mp (Option.isSome_of_eq_some isFresh),
        fun other mem otherType _ => ?_⟩
      exact priority_le_of_find? found mem (by rw [otherType, sameType, isType])

end

/-- Items whose obligation is gone rank before others of the same priority. -/
def rank (item : PolicyObligationCalcItem) : Nat :=
  2 * item.priority + if Usable existing item.toPolicyObligationItem then 1 else 0

private theorem pairwise_rank :
    (items.mergeSort fun first second => decide (rank existing first ≤ rank existing second)).Pairwise
    fun first second => rank existing first ≤ rank existing second :=
  pairwise_mergeSort' (fun first second => rank existing first ≤ rank existing second) items

/-- One of the orders that the sort may produce. -/
def goneFirst : PrioritySort where
  slice items := items.mergeSort fun first second => decide (rank existing first ≤ rank existing second)
  perm items := mergeSort_perm items _
  sorted items := (pairwise_rank existing items).imp fun {first second} ranked => by
    unfold rank at ranked
    split_ifs at ranked <;> omega

/-- Every sort chooses as it should exactly if items whose obligation is gone come later. -/
theorem goneComeLater_iff :
    (∀ sort : PrioritySort, Chosen existing items ((GoMap.values (firstOfEachType (sort.slice items))).filterMap
      (refreshed existing))) ↔ GoneComeLater existing items := by
  simp only [chosen_iff]
  constructor
  · intro chosen gone isGone notUsable some
    have mem : gone ∈ (goneFirst existing).slice items := ((goneFirst existing).perm items).mem_iff.mpr isGone
    have someFound : (((goneFirst existing).slice items).find? fun item => item.typeID = gone.typeID).isSome :=
      find?_isSome.mpr ⟨gone, mem, by simp⟩
    obtain ⟨first, found⟩ := Option.isSome_iff_exists.mp someFound
    have isUsable := chosen (goneFirst existing) first gone.typeID found some
    refine ⟨first, ((goneFirst existing).perm items).mem_iff.mp
      (mem_of_find?_eq_some found), by simpa using find?_some found, ?_⟩
    rcases rel_of_find? (pairwise_rank existing items) found mem (by simp) with rfl | ranked
    · exact absurd isUsable notUsable
    · rw [rank, rank, if_pos isUsable, if_neg notUsable] at ranked
      omega
  · intro later sort first typeID found some
    by_contra notUsable
    have isType : first.typeID = typeID := by simpa using find?_some found
    have mem : first ∈ items := (sort.perm items).mem_iff.mp (mem_of_find?_eq_some found)
    obtain ⟨item, isItem, sameType, smaller⟩ := later first mem notUsable (isType ▸ some)
    have smallest := priority_le_of_find? found isItem (sameType.trans isType)
    omega

/-- The services know these obligations, and whatever way they sort, each operation gets the items it should, which
depend on no other operation. -/
theorem obligations_chosen_iff (svc : Services) (existing : List ObligationInfo)
    (allowMap : GoMap String (List PolicyObligationCalcItem)) :
    (∀ sort : PrioritySort, (∀ operation items, allowMap.lookup operation = some items →
        Chosen existing items (obligationsFor (svc.withObligations existing sort) allowMap operation)) ∧
      ∀ (other : GoMap String (List PolicyObligationCalcItem)) (operation : String),
        other.lookup operation = allowMap.lookup operation →
        obligationsFor (svc.withObligations existing sort) other operation =
          obligationsFor (svc.withObligations existing sort) allowMap operation) ↔
      ∀ operation items, allowMap.lookup operation = some items → GoneComeLater existing items := by
  constructor
  · intro chosen operation items isItems
    refine (goneComeLater_iff existing items).mp fun sort => ?_
    have here := (chosen sort).1 operation items isItems
    rwa [obligationsFor_eq, isItems] at here
  · intro later sort
    refine ⟨fun operation items isItems => ?_, fun other operation same => ?_⟩
    · rw [obligationsFor_eq, isItems]
      exact (goneComeLater_iff existing items).mpr (later operation items isItems) sort
    · rw [obligationsFor_eq, obligationsFor_eq, same]

/-- Two obligations of one type for an operation, set for the user and for a department. The one for the user was
deleted, and nothing is returned. -/
theorem deleted_obligation_hides :
    ∃ allowMap : GoMap String (List PolicyObligationCalcItem), ∃ existing : List ObligationInfo,
    (∃ items, allowMap.lookup "read" = some items ∧ ∃ item ∈ items, item.typeID = "watermark" ∧
      Usable existing item.toPolicyObligationItem) ∧
    obligationsFor (Sample.services.withObligations existing Sample.sort) allowMap "read" = [] := by
  refine ⟨(∅ : GoMap String (List PolicyObligationCalcItem)).insert "read"
    [⟨⟨"watermark", "deleted", .null⟩, 1⟩, ⟨⟨"watermark", "kept", .null⟩, 4⟩], [⟨"kept", "watermark", .null⟩], ?_, ?_⟩
  · exact ⟨_, AList.lookup_insert _, ⟨⟨"watermark", "kept", .null⟩, 4⟩, by simp, rfl,
      .inr ⟨_, mem_singleton_self _, rfl⟩⟩
  · have sorted : Sample.sort.slice [⟨⟨"watermark", "deleted", .null⟩, 1⟩, ⟨⟨"watermark", "kept", .null⟩, 4⟩] =
        [⟨⟨"watermark", "deleted", .null⟩, 1⟩, ⟨⟨"watermark", "kept", .null⟩, 4⟩] := mergeSort_of_pairwise (by decide)
    rw [obligationsFor_eq, AList.lookup_insert, Option.map_some, sorted]
    rfl

end

namespace ObligationType

/-! # Names of a list of obligation types

`Get` writes the name of each type of the entry `i` to the type `i`, and asks that type whether the operations are
unlimited. So it agrees with `GetByID` only where no other type has a name, and stops at an unlimited entry. Neither
reads a limited scope without operations.
-/

/-- The scopes of the row can be read: none is limited to no operations. -/
def Row.Readable (row : Row) : Prop := ∀ type ∈ row.scope.getD [], type.2 ≠ some []

section

variable (names : Names) {types : List ObligationResourceTypeScope} {own type : ObligationResourceTypeScope} {i : Nat}

section

variable (types type)

/-- The resource type exists. -/
def Known : Prop := names.resourceTypeInfoMap.lookup type.resourceTypeID ≠ none

/-- The name of the resource type, if it exists and has one. -/
def typeName : String := ((names.resourceTypeInfoMap.lookup type.resourceTypeID).map (·.name)).getD ""

def operationName (operation : ObligationOperation) : String :=
  (((names.operationInfoMap.lookup type.resourceTypeID).getD ∅).lookup operation.id).getD ""

/-- No operation of the type has a name, or the type does not exist. -/
def OperationsNameless : Prop :=
  Known names type → ∀ operation ∈ type.operationsScope.operations, operationName names type operation = ""

/-- The types of the entry `i` allow for what `Get` does with them. -/
structure FitsAt (i : Nat) (types : List ObligationResourceTypeScope) : Prop where
  /-- The type `i` is there if any type exists. -/
  inRange : ∀ type ∈ types, Known names type → i < types.length
  /-- Only the type `i` has a name, and no later type exists if it has. -/
  named : ∀ j type, types[j]? = some type → typeName names type ≠ "" →
    j = i ∧ ∀ later ∈ types.drop (i + 1), ¬ Known names later
  /-- If the operations of the type `i` are unlimited, no type has operations with names. -/
  limited : ∀ own, types[i]? = some own → own.operationsScope.unlimited = true →
    ∀ type ∈ types, OperationsNameless names type

/-- There are no names for the types. -/
def Nameless : Prop := ∀ type ∈ types, typeName names type = "" ∧ OperationsNameless names type

/-- The entries from `i` on fit up to the first unlimited one, and behind it there are no names. -/
def FitsFrom (i : Nat) (rows : List Row) : Prop := ∀ k row, rows[k]? = some row →
  ((∀ earlier ∈ rows.take k, earlier.scope ≠ none) → FitsAt names (i + k) row.stored.types) ∧
    ((∃ earlier ∈ rows.take k, earlier.scope = none) → Nameless names row.stored.types)

/-- The types are stored without names, and without operations if these are unlimited. -/
def Unnamed : Prop := ∀ type ∈ types, type.resourceTypeName = "" ∧
  (∀ operation ∈ type.operationsScope.operations, operation.name = "") ∧
    (type.operationsScope.unlimited = true → type.operationsScope.operations = [])

private theorem unnamed_stored (row : Row) : Unnamed row.stored.types := by
  refine forall_mem_map.mpr fun type _ => ⟨rfl, forall_mem_map.mpr fun _ _ => rfl, ?_⟩
  cases type.2 <;> simp

/-- The type with its operations named, if the resource type exists. -/
def fillKnown : ObligationResourceTypeScope :=
  match names.resourceTypeInfoMap.lookup type.resourceTypeID with
  | none => type
  | some _ => fillOperations names type

private theorem fillKnown_kept : (fillKnown names type).resourceTypeID = type.resourceTypeID ∧
    (fillKnown names type).resourceTypeName = type.resourceTypeName := by
  unfold fillKnown
  split <;> exact ⟨rfl, rfl⟩

end

private theorem fillKnown_eq_self_iff (unnamed : Unnamed types) (mem : type ∈ types) :
    fillKnown names type = type ↔ OperationsNameless names type := by
  unfold fillKnown OperationsNameless Known
  cases known : names.resourceTypeInfoMap.lookup type.resourceTypeID with
  | none => simp
  | some info =>
    obtain ⟨-, noNames, -⟩ := unnamed type mem
    have fixed (operation) (isOperation : operation ∈ type.operationsScope.operations) :
        { operation with name := operationName names type operation } = operation ↔
        operationName names type operation = "" := by
      obtain ⟨id, name⟩ := operation
      obtain rfl : name = "" := noNames _ isOperation
      simp
    refine Iff.trans ?_ ((forall₂_congr fixed).trans (by simp))
    rw [← map_inj_left, map_id']
    obtain ⟨resourceTypeID, resourceTypeName, unlimited, operations⟩ := type
    simp only [fillOperations, ObligationResourceTypeScope.mk.injEq, ObligationOperationsScopeInfo.mk.injEq, true_and]
    rfl

private theorem fillType_eq (unnamed : Unnamed types) (mem : type ∈ types) :
    fillType names type = { fillKnown names type with resourceTypeName := typeName names type } := by
  obtain ⟨noName, -, noOperations⟩ := unnamed type mem
  unfold fillType fillKnown typeName
  cases names.resourceTypeInfoMap.lookup type.resourceTypeID with
  | none => exact noName ▸ rfl
  | some info =>
    dsimp only
    split_ifs with unlimited
    · obtain ⟨resourceTypeID, resourceTypeName, _, operations⟩ := type
      obtain rfl : operations = [] := noOperations unlimited
      rfl
    · rfl

/-- The last of the names of the types that exist. -/
def lastName (types : List ObligationResourceTypeScope) : String :=
  ((types.filterMap fun type => names.resourceTypeInfoMap.lookup type.resourceTypeID).getLast?.map (·.name)).getD ""

/-- The type `m` of the entry `i` after the turns of the first `n`. -/
def afterTurns (own : ObligationResourceTypeScope) (i : Nat) (types : List ObligationResourceTypeScope) (n m : Nat)
    (type : ObligationResourceTypeScope) : ObligationResourceTypeScope where
  resourceTypeID := type.resourceTypeID
  resourceTypeName := if m = i then lastName names (types.take n) else ""
  operationsScope := if m < n ∧ own.operationsScope.unlimited = false then (fillKnown names type).operationsScope
    else type.operationsScope

private theorem unlimited_afterTurns (n m : Nat) :
    (afterTurns names own i types n m type).operationsScope.unlimited = type.operationsScope.unlimited := by
  unfold afterTurns fillKnown
  dsimp only
  split_ifs
  · split <;> rfl
  · rfl

private theorem lastName_take_succ {n : Nat} (isType : types[n]? = some type) : lastName names (types.take (n + 1)) =
    ((names.resourceTypeInfoMap.lookup type.resourceTypeID).map (·.name)).getD (lastName names (types.take n)) := by
  rw [take_add_one, isType, lastName, filterMap_append]
  cases known : names.resourceTypeInfoMap.lookup type.resourceTypeID <;> simp [known, lastName]

private theorem fillTypeAt_afterTurns {n : Nat} (isOwn : types[i]? = some own) (isType : types[n]? = some type) :
    fillTypeAt names i (types.mapIdx (afterTurns names own i types n)) n =
      some (types.mapIdx (afterTurns names own i types (n + 1))) := by
  have last := lastName_take_succ names isType
  have length : i < types.length := (List.getElem?_eq_some_iff.mp isOwn).1
  simp only [fillTypeAt, getElem?_mapIdx, isType, isOwn, Option.map_some, Option.bind_eq_bind, Option.bind_some,
    unlimited_afterTurns]
  cases known : names.resourceTypeInfoMap.lookup type.resourceTypeID with
  | none =>
    rw [show names.resourceTypeInfoMap.lookup (afterTurns names own i types n n type).resourceTypeID = none from known]
    refine congrArg some (ext_getElem? fun m => ?_)
    rw [getElem?_mapIdx, getElem?_mapIdx]
    by_cases here : m = n
    · subst here
      simp [isType, fillKnown, known, afterTurns, last]
    · have same : m < n + 1 ↔ m < n := by omega
      exact Option.map_congr fun other _ => by simp [afterTurns, same, last, known]
  | some info =>
    rw [show names.resourceTypeInfoMap.lookup (afterTurns names own i types n n type).resourceTypeID =
      some info from known]
    refine congrArg some (ext_getElem? fun m => ?_)
    rw [getElem?_mapIdx]
    have written : ((types.mapIdx (afterTurns names own i types n)).set i
        { afterTurns names own i types n i own with resourceTypeName := info.name })[m]? =
        (types[m]?).map fun type =>
          { afterTurns names own i types n m type with resourceTypeName := if m = i then info.name else "" } := by
      rw [getElem?_set, length_mapIdx, if_pos length, getElem?_mapIdx]
      by_cases same : i = m
      · subst same
        simp [isOwn]
      · rw [if_neg same]
        exact Option.map_congr fun other _ => by simp [afterTurns, Ne.symm same]
    cases unlimited : own.operationsScope.unlimited
    · refine (getElem?_modify _ _ _ _).trans ?_
      rw [written, Option.map_eq_map, Option.map_map]
      by_cases here : m = n
      · subst here
        simp [isType, afterTurns, fillKnown, fillOperations, known, unlimited, last]
      · have same : m < n + 1 ↔ m < n := by omega
        exact Option.map_congr fun other _ => by simp [afterTurns, Ne.symm here, same, unlimited, last, known]
    · exact written.trans (Option.map_congr fun other _ => by simp [afterTurns, unlimited, last, known])

private theorem foldlM_fillTypeAt (unnamed : Unnamed types) (isOwn : types[i]? = some own) {n : Nat}
    (le : n ≤ types.length) :
    (range n).foldlM (fillTypeAt names i) types = some (types.mapIdx (afterTurns names own i types n)) := by
  induction n with
  | zero =>
    refine congrArg some (ext_getElem? fun m => ?_)
    rw [getElem?_mapIdx]
    cases isType : types[m]? with
    | none => rfl
    | some type =>
      have noName := (unnamed type (mem_of_getElem? isType)).1
      simp [afterTurns, lastName, ← noName]
  | succ n ih =>
    rw [range_succ, foldlM_append, ih (by omega), Option.bind_eq_bind, Option.bind_some, foldlM_cons,
      fillTypeAt_afterTurns names isOwn (getElem?_eq_getElem le)]
    rfl

private theorem typeName_of_unknown (unknown : ¬ Known names type) : typeName names type = "" := by
  simp [typeName, not_not.mp unknown]

private theorem foldlM_of_unknown (unknown : ∀ type ∈ types, ¬ Known names type) {n : Nat} (le : n ≤ types.length) :
    (range n).foldlM (fillTypeAt names i) types = some types := by
  induction n with
  | zero => rfl
  | succ n ih =>
    have isType : types[n]? = some types[n] := getElem?_eq_getElem le
    have notKnown := not_not.mp (unknown _ (mem_of_getElem? isType))
    rw [range_succ, foldlM_append, ih (by omega)]
    simp [fillTypeAt, isType, notKnown]

private theorem unknown_of_foldlM (outside : types[i]? = none) {n : Nat} {after : List ObligationResourceTypeScope}
    (ran : (range n).foldlM (fillTypeAt names i) types = some after) :
    after = types ∧ ∀ j < n, ∀ type, types[j]? = some type → ¬ Known names type := by
  induction n generalizing after with
  | zero => exact ⟨(Option.some.inj ran).symm, by simp⟩
  | succ n ih =>
    simp only [range_succ, foldlM_append, foldlM_cons, foldlM_nil, bind_pure] at ran
    obtain ⟨between, earlier, turn⟩ := Option.bind_eq_some_iff.mp ran
    obtain ⟨rfl, unknown⟩ := ih earlier
    obtain ⟨type, isType, turn⟩ := Option.bind_eq_some_iff.mp turn
    split at turn
    next notKnown =>
      refine ⟨(Option.some.inj turn).symm, fun j below other isOther => ?_⟩
      rcases Nat.lt_succ_iff_lt_or_eq.mp below with before | rfl
      · exact unknown j before other isOther
      · obtain rfl : type = other := Option.some.inj (isType.symm.trans isOther)
        exact not_not.mpr notKnown
    next => simp [outside] at turn

private theorem lastName_append_of_unknown {later : List ObligationResourceTypeScope}
    (unknown : ∀ type ∈ later, ¬ Known names type) :
    lastName names (types ++ later) = lastName names types := by
  rw [lastName, filterMap_append, filterMap_eq_nil_iff.mpr fun type mem =>
    not_not.mp (unknown type mem), append_nil, lastName]

private theorem lastName_append_of_known {later : List ObligationResourceTypeScope} (mem : type ∈ later)
    (known : Known names type) : ∃ last ∈ later, lastName names (types ++ later) = typeName names last := by
  obtain ⟨info, isInfo⟩ := Option.ne_none_iff_exists'.mp known
  cases found : (later.filterMap fun type => names.resourceTypeInfoMap.lookup type.resourceTypeID).getLast? with
  | none => exact absurd (filterMap_eq_nil_iff.mp (getLast?_eq_none_iff.mp found) type mem) known
  | some info =>
    obtain ⟨last, isLast, isInfo⟩ := mem_filterMap.mp (mem_of_getLast? found)
    exact ⟨last, isLast, by rw [lastName, filterMap_append, getLast?_append, found, typeName, isInfo]; rfl⟩

private theorem lastName_of_nameless (nameless : ∀ type ∈ types, typeName names type = "") :
    lastName names types = "" := by
  by_cases known : ∃ type ∈ types, Known names type
  · obtain ⟨type, mem, known⟩ := known
    obtain ⟨last, isLast, lastName_eq⟩ := @lastName_append_of_known names [] type _ mem known
    exact lastName_eq.trans (nameless last isLast)
  · push Not at known
    exact @lastName_append_of_unknown names [] types known

/-- The last name is the one of the type `i`, and the others have none, exactly if only that type has one and none
exists behind it. -/
private theorem lastName_iff (isOwn : types[i]? = some own) :
    (∀ m type, types[m]? = some type → (if m = i then lastName names types else "") = typeName names type) ↔
      ∀ j type, types[j]? = some type → typeName names type ≠ "" →
      j = i ∧ ∀ later ∈ types.drop (i + 1), ¬ Known names later := by
  constructor
  · intro same j type isType named
    obtain rfl : j = i := by
      by_contra other
      exact named ((same j type isType).symm.trans (if_neg other))
    refine ⟨rfl, fun later mem known => named ?_⟩
    obtain ⟨last, isLast, lastName_eq⟩ := @lastName_append_of_known names (types.take (j + 1)) later _ mem known
    obtain ⟨k, isLast⟩ := getElem?_of_mem isLast
    rw [getElem?_drop] at isLast
    rw [take_append_drop] at lastName_eq
    rw [← same j type isType, if_pos rfl, lastName_eq, ← same _ last isLast, if_neg (by omega)]
  · intro only m type isType
    by_cases here : m = i
    · subst here
      rw [if_pos rfl]
      by_cases named : typeName names type = ""
      · rw [named]
        refine lastName_of_nameless names fun other mem => ?_
        obtain ⟨k, isOther⟩ := getElem?_of_mem mem
        by_contra otherNamed
        obtain rfl := (only k other isOther otherNamed).1
        exact otherNamed (Option.some.inj (isOther.symm.trans isType) ▸ named)
      · have known : Known names type := not_imp_comm.mp (typeName_of_unknown names) named
        obtain ⟨last, isLast, lastName_eq⟩ := @lastName_append_of_known names (types.take m) type [type]
          (mem_singleton_self _) known
        rw [← take_append_drop (m + 1) types, lastName_append_of_unknown names (only m type isType named).2,
          take_add_one, isType, Option.toList_some, lastName_eq, mem_singleton.mp isLast]
    · rw [if_neg here]
      by_contra named
      exact here (only m type isType (Ne.symm named)).1

private theorem mapIdx_eq_map_iff {f : Nat → ObligationResourceTypeScope → ObligationResourceTypeScope}
    {g : ObligationResourceTypeScope → ObligationResourceTypeScope} :
    types.mapIdx f = types.map g ↔ ∀ m type, types[m]? = some type → f m type = g type := by
  refine ⟨fun same m type isType => ?_, fun same => ext_getElem? fun m => ?_⟩
  · simpa [isType] using congrArg (·[m]?) same
  · rw [getElem?_mapIdx, getElem?_map]
    exact Option.map_congr fun type isType => same m type isType

private theorem afterTurns_eq_fillType_iff (unnamed : Unnamed types) {m : Nat} (isType : types[m]? = some type) :
    afterTurns names own i types types.length m type = fillType names type ↔
      (if m = i then lastName names types else "") = typeName names type ∧
        (own.operationsScope.unlimited = true → OperationsNameless names type) := by
  have mem := mem_of_getElem? isType
  have below : m < types.length := (List.getElem?_eq_some_iff.mp isType).1
  rw [fillType_eq names unnamed mem, ← fillKnown_eq_self_iff names unnamed mem, afterTurns, take_length]
  have kept := fillKnown_kept names type
  generalize fillKnown names type = filled at kept ⊢
  obtain ⟨resourceTypeID, resourceTypeName, scope⟩ := type
  obtain ⟨_, _, filledScope⟩ := filled
  obtain ⟨rfl, rfl⟩ := kept
  cases own.operationsScope.unlimited <;> simp [below, eq_comm]

private theorem foldlM_eq_iff_fitsAt (unnamed : Unnamed types) :
    (range types.length).foldlM (fillTypeAt names i) types = some (types.map (fillType names)) ↔
    FitsAt names i types := by
  by_cases none : ∀ type ∈ types, ¬ Known names type
  · rw [foldlM_of_unknown names none le_rfl]
    refine iff_of_true (congrArg some ?_) ⟨fun type mem known => absurd known (none type mem), ?_, ?_⟩
    · refine (map_id' types).symm.trans (map_congr_left fun type mem => ?_)
      rw [fillType, not_not.mp (none type mem)]
    · exact fun j type isType named => absurd (typeName_of_unknown names (none type (mem_of_getElem? isType))) named
    · exact fun own isOwn unlimited type mem known => absurd known (none type mem)
  · push Not at none
    obtain ⟨known, isKnown, exists_⟩ := none
    cases isOwn : types[i]? with
    | none =>
      refine iff_of_false (fun ran => ?_) fun fits => ?_
      · obtain ⟨j, isKnown⟩ := getElem?_of_mem isKnown
        exact (unknown_of_foldlM names isOwn ran).2 j (List.getElem?_eq_some_iff.mp isKnown).1 known isKnown exists_
      · exact absurd (getElem?_eq_none_iff.mp isOwn) (not_le.mpr (fits.inRange known isKnown exists_))
    | some own =>
      rw [foldlM_fillTypeAt names unnamed isOwn le_rfl, Option.some_inj, mapIdx_eq_map_iff]
      have turned (m type) (isType : types[m]? = some type) :=
        @afterTurns_eq_fillType_iff names types own type i unnamed m isType
      refine ⟨fun same => ?_, fun fits m type isType => ?_⟩
      · refine ⟨fun _ _ _ => (List.getElem?_eq_some_iff.mp isOwn).1, ?_, ?_⟩
        · exact (lastName_iff names isOwn).mp fun m type isType => ((turned m type isType).mp (same m type isType)).1
        · intro other isOther unlimited type mem
          obtain rfl : own = other := Option.some.inj (isOwn.symm.trans isOther)
          obtain ⟨m, isType⟩ := getElem?_of_mem mem
          exact ((turned m type isType).mp (same m type isType)).2 unlimited
      · exact (turned m type isType).mpr ⟨(lastName_iff names isOwn).mpr fits.named m type isType,
          fun unlimited => fits.limited own isOwn unlimited type (mem_of_getElem? isType)⟩

private theorem map_fillType_eq_self_iff (unnamed : Unnamed types) :
    types = types.map (fillType names) ↔ Nameless names types := by
  have fixed (type) (mem : type ∈ types) : type = fillType names type ↔
      typeName names type = "" ∧ OperationsNameless names type := by
    rw [fillType_eq names unnamed mem, ← fillKnown_eq_self_iff names unnamed mem]
    have kept := fillKnown_kept names type
    obtain ⟨noName, -, -⟩ := unnamed type mem
    generalize fillKnown names type = filled at kept ⊢
    generalize typeName names type = name
    obtain ⟨resourceTypeID, resourceTypeName, scope⟩ := type
    obtain rfl : resourceTypeName = "" := noName
    obtain ⟨_, _, filledScope⟩ := filled
    simp only at kept
    obtain ⟨rfl, rfl⟩ := kept
    simp [eq_comm]
  refine Iff.trans ?_ (forall₂_congr fixed)
  rw [← map_inj_left, map_id']

/-- What `GetByID` makes of the row. -/
def Row.filled (row : Row) : ObligationTypeInfo := { row.stored with types := row.stored.types.map (fillType names) }

private theorem stored_eq_filled_iff (row : Row) : row.stored = row.filled names ↔ Nameless names row.stored.types := by
  rw [← map_fillType_eq_self_iff names (unnamed_stored row), Row.filled]
  generalize row.stored = info
  cases info
  simp

private theorem stored_types_of_unlimited {row : Row} (unlimited : row.scope = none) : row.stored.types = [] := by
  simp [Row.stored, unlimited]

private theorem fitsFrom_cons_iff {row : Row} {rest : List Row} :
    FitsFrom names i (row :: rest) ↔ if row.scope = none then ∀ later ∈ rest, Nameless names later.stored.types
      else FitsAt names i row.stored.types ∧ FitsFrom names (i + 1) rest := by
  have behind {k : Nat} {later : Row} (isLater : rest[k]? = some later) : (row :: rest)[k + 1]? = some later := isLater
  have next (k : Nat) : i + (k + 1) = i + 1 + k := by omega
  split_ifs with unlimited
  · refine ⟨fun fits later mem => ?_, fun fits k later isLater => ?_⟩
    · obtain ⟨k, isLater⟩ := getElem?_of_mem mem
      exact (fits _ later (behind isLater)).2 ⟨row, by simp, unlimited⟩
    · cases k with
      | zero =>
        obtain rfl : row = later := by simpa using isLater
        rw [stored_types_of_unlimited unlimited]
        exact ⟨fun _ => ⟨by simp, by simp, by simp⟩, by simp⟩
      | succ k => exact ⟨fun limited => absurd unlimited (limited row (by simp)), fun _ =>
          fits later (mem_of_getElem? isLater)⟩
  · refine ⟨fun fits => ⟨(fits 0 row rfl).1 (by simp), fun k later isLater => ?_⟩, fun fits k later isLater => ?_⟩
    · have fit := fits _ later (behind isLater)
      rw [next] at fit
      simpa [unlimited] using fit
    · cases k with
      | zero =>
        obtain rfl : row = later := by simpa using isLater
        exact ⟨fun _ => fits.1, by simp⟩
      | succ k =>
        rw [next]
        simpa [unlimited] using fits.2 k later isLater

/-- `Get` fills the names of the entries as `GetByID` does exactly if the entries fit. -/
private theorem getFrom_eq_iff {rows : List Row} :
    getFrom names i (rows.map Row.stored) = some (rows.map (Row.filled names)) ↔ FitsFrom names i rows := by
  induction rows generalizing i with
  | nil => simp [getFrom, FitsFrom]
  | cons row rest ih =>
    rw [fitsFrom_cons_iff, map_cons, map_cons, getFrom]
    by_cases unlimited : row.scope = none
    · rw [if_pos (by simp [Row.stored, unlimited]), if_pos unlimited, Option.some_inj, cons.injEq, map_inj_left]
      have same : row.stored = row.filled names := by
        rw [stored_eq_filled_iff, stored_types_of_unlimited unlimited]
        simp [Nameless]
      simp only [stored_eq_filled_iff, ← same, true_and]
    · rw [if_neg (by simpa [Row.stored, Option.isNone_iff_eq_none] using unlimited), if_neg unlimited,
        ← foldlM_eq_iff_fitsAt names (unnamed_stored row), ← ih]
      simp [Row.filled, Option.bind_eq_some_iff]

private theorem mapM_info_iff {rows : List Row} {result : Row → ObligationTypeInfo} {infos : List ObligationTypeInfo} :
    rows.mapM (fun row => row.info.map fun _ => result row) = some infos ↔
    (∀ row ∈ rows, row.Readable) ∧ rows.map result = infos := by
  induction rows generalizing infos with
  | nil => simp
  | cons row rest ih =>
    have unreadable : (row.scope.getD []).any (·.2 = some []) = true ↔ ¬ row.Readable := by
      simp only [Row.Readable, any_eq_true, decide_eq_true_iff, not_forall, not_not, exists_prop]
    rw [mapM_cons, forall_mem_cons, Row.info]
    split_ifs with any
    · exact iff_of_false (by simp) fun read => unreadable.mp any read.1.1
    · have readable : row.Readable := not_not.mp (unreadable.not.mp any)
      simp [Option.bind_eq_some_iff, ih, readable]

private theorem getByID_eq (row : Row) : getByID names row = row.info.map fun _ => row.filled names := by
  rw [getByID, Row.info]
  split_ifs
  · rfl
  · refine congrArg some ?_
    dsimp only
    split_ifs with unlimited
    · rw [stored_eq_filled_iff, stored_types_of_unlimited (Option.isNone_iff_eq_none.mp unlimited)]
      simp [Nameless]
    · rfl

/-- `Get` and `GetByID` run and give the same for every row exactly if all rows can be read and the entries fit. -/
theorem get_eq_getByID_iff (names : Names) (rows : List Row) :
    (∃ infos, get names rows = some infos ∧ rows.mapM (getByID names) = some infos) ↔
      (∀ row ∈ rows, row.Readable) ∧ FitsFrom names 0 rows := by
  have read : rows.mapM Row.info = rows.mapM fun row => row.info.map fun _ => row.stored := by
    refine congrArg rows.mapM (funext fun row => ?_)
    rw [Row.info]
    split_ifs <;> rfl
  rw [funext (getByID_eq names), get, read, ← getFrom_eq_iff]
  simp only [mapM_info_iff, Option.bind_eq_bind, Option.bind_eq_some_iff]
  constructor
  · rintro ⟨infos, ⟨_, ⟨readable, rfl⟩, ran⟩, -, rfl⟩
    exact ⟨readable, ran⟩
  · rintro ⟨readable, ran⟩
    exact ⟨_, ⟨_, ⟨readable, rfl⟩, ran⟩, readable, rfl⟩

end

/-- One type that exists. -/
def documents : Names := getResourceTypesOperation ⟨id, fun _ _ _ => Iff.rfl⟩ "en-us" [⟨"doc", "Document", []⟩]

/-- In the second of two entries a second type is asked for, behind an unlimited entry no name is filled in, and a scope
that is limited to no operations cannot be read. -/
theorem get_out_of_range : get documents [⟨"a", some [("doc", none)]⟩, ⟨"b", some [("doc", none)]⟩] = none ∧
    get documents [⟨"a", none⟩, ⟨"b", some [("doc", none)]⟩] ≠
      [⟨"a", none⟩, ⟨"b", some [("doc", none)]⟩].mapM (getByID documents) ∧
    get documents [⟨"a", some [("doc", some [])]⟩] = none := by
  decide

end ObligationType

end SecurityFabric.Authorization
