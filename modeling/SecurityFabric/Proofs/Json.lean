import Mathlib.Data.List.Nodup
import Mathlib.Data.List.Perm.Subperm
import SecurityFabric.Model.Json

/-! # Equality of decoded values

`reflect.DeepEqual` goes through the fields of one object and looks each up in the other. On objects with distinct keys,
which all maps have, it is an equivalence. It is transitive on any, since what is looked up is a field.
-/

namespace SecurityFabric.Json

open List

variable {fields : List (String × Json)} {xs ys : List (String × Json)}

/-- Every object has distinct keys. -/
inductive Proper : Json → Prop
  | null : Proper .null
  | bool (value : Bool) : Proper (.bool value)
  | num (value : Rat) : Proper (.num value)
  | str (value : String) : Proper (.str value)
  | arr {items : List Json} (all : ∀ item ∈ items, Proper item) : Proper (.arr items)
  | obj {fields : List (String × Json)} (keys : (fields.map Prod.fst).Nodup) (all : ∀ field ∈ fields, Proper field.2) :
    Proper (.obj fields)

private theorem deepEqualItems_iff {xs ys : List Json} :
    deepEqualItems xs ys = true ↔ Forall₂ (fun x y => deepEqual x y = true) xs ys := by
  induction xs generalizing ys with
  | nil => cases ys <;> simp [deepEqualItems]
  | cons x xs ih =>
    cases ys with
    | nil => simp [deepEqualItems]
    | cons y ys => simp [deepEqualItems, ih]

private theorem deepEqualFields_iff :
    deepEqualFields xs ys = true ↔ ∀ k x, (k, x) ∈ xs → ∃ y, ys.lookup k = some y ∧ deepEqual x y = true := by
  induction xs with
  | nil => simp [deepEqualFields]
  | cons field xs ih =>
    obtain ⟨k, x⟩ := field
    rw [deepEqualFields, Bool.and_eq_true, ih]
    constructor
    · rintro ⟨first, later⟩ k' x' mem
      rcases mem_cons.mp mem with same | mem
      · cases same
        cases found : ys.lookup k with
        | none => rw [found] at first; cases first
        | some y => exact ⟨y, rfl, by rw [found] at first; exact first⟩
      · exact later k' x' mem
    · intro all
      refine ⟨?_, fun k' x' mem => all k' x' (mem_cons_of_mem _ mem)⟩
      obtain ⟨y, found, same⟩ := all k x mem_cons_self
      rw [found]
      exact same

private theorem deepEqual_obj : deepEqual (.obj xs) (.obj ys) = true ↔
    xs.length = ys.length ∧ ∀ k x, (k, x) ∈ xs → ∃ y, ys.lookup k = some y ∧ deepEqual x y = true := by
  rw [deepEqual, Bool.and_eq_true, beq_iff_eq, deepEqualFields_iff]

variable {x : Json}

private theorem mem_of_lookup {k : String} (found : fields.lookup k = some x) : (k, x) ∈ fields := by
  rw [lookup_eq_some_iff] at found
  obtain ⟨before, behind, rfl, -⟩ := found
  simp

private theorem lookup_of_mem (keys : (fields.map Prod.fst).Nodup) {k : String} (mem : (k, x) ∈ fields) :
    fields.lookup k = some x := by
  cases found : fields.lookup k with
  | none => simpa using lookup_eq_none_iff.mp found (k, x) mem
  | some y =>
    have same := inj_on_of_nodup_map keys (mem_of_lookup found) mem rfl
    rw [(Prod.mk.inj same).2]

theorem Proper.refl (proper : Proper x) : deepEqual x x = true := by
  induction proper with
  | null => rfl
  | bool value | num value | str value => exact beq_self_eq_true value
  | arr all ih =>
    rw [deepEqual, deepEqualItems_iff, forall₂_same]
    exact ih
  | obj keys all ih =>
    rw [deepEqual_obj]
    exact ⟨rfl, fun k x mem => ⟨x, lookup_of_mem keys mem, ih (k, x) mem⟩⟩

theorem forall₂_trans_of_mem {α : Type} {R : α → α → Prop} {xs ys zs : List α}
    (chains : ∀ x ∈ xs, ∀ {y z}, R x y → R y z → R x z)
    (first : Forall₂ R xs ys) (second : Forall₂ R ys zs) : Forall₂ R xs zs := by
  induction first generalizing zs with
  | nil => exact second
  | cons related rest ih =>
    cases second with
    | cons related' rest' =>
      obtain ⟨here, later⟩ := forall_mem_cons.mp chains
      exact .cons (here related related') (ih later rest')

theorem forall₂_symm_of_mem {α : Type} {R : α → α → Prop} {xs ys : List α} (turns : ∀ x ∈ xs, ∀ y ∈ ys, R x y → R y x)
    (related : Forall₂ R xs ys) : Forall₂ R ys xs := by
  induction related with
  | nil => exact .nil
  | cons here later ih =>
    refine .cons (turns _ mem_cons_self _ mem_cons_self here) (ih fun x inXs y inYs => ?_)
    exact turns x (mem_cons_of_mem _ inXs) y (mem_cons_of_mem _ inYs)

/-- Equal values are the same, or arrays with equal items, or objects with equal fields. -/
theorem deepEqual_cases {y : Json} (same : deepEqual x y = true) :
    x = y ∨ (∃ xs ys, x = .arr xs ∧ y = .arr ys ∧ Forall₂ (fun x y => deepEqual x y = true) xs ys) ∨
      ∃ xs ys, x = .obj xs ∧ y = .obj ys ∧ xs.length = ys.length ∧
        ∀ k x, (k, x) ∈ xs → ∃ y, ys.lookup k = some y ∧ deepEqual x y = true := by
  cases x <;> cases y <;> first | cases same; done | skip
  case null.null => exact .inl rfl
  case bool.bool => exact .inl (congrArg Json.bool (beq_iff_eq.mp same))
  case num.num => exact .inl (congrArg Json.num (beq_iff_eq.mp same))
  case str.str => exact .inl (congrArg Json.str (beq_iff_eq.mp same))
  case arr.arr xs ys => exact .inr (.inl ⟨xs, ys, rfl, rfl, deepEqualItems_iff.mp same⟩)
  case obj.obj xs ys => exact .inr (.inr ⟨xs, ys, rfl, rfl, deepEqual_obj.mp same⟩)

theorem Proper.trans (proper : Proper x) :
    ∀ {y z : Json}, deepEqual x y = true → deepEqual y z = true → deepEqual x z = true := by
  induction proper with
  | null | bool value | num value | str value =>
    intro y z first second
    rcases deepEqual_cases first with rfl | ⟨xs, ys, same, -⟩ | ⟨xs, ys, same, -⟩
    · exact second
    · cases same
    · cases same
  | @arr items all ih =>
    intro y z first second
    rcases deepEqual_cases first with rfl | ⟨xs, ys, same, rfl, equal⟩ | ⟨xs, ys, same, -⟩
    · exact second
    · cases same
      rcases deepEqual_cases second with rfl | ⟨ys', zs, same, rfl, equal'⟩ | ⟨ys, zs, same, -⟩
      · exact first
      · cases same
        exact deepEqualItems_iff.mpr (forall₂_trans_of_mem ih equal equal')
      · cases same
    · cases same
  | @obj fields keys all ih =>
    intro y z first second
    rcases deepEqual_cases first with rfl | ⟨xs, ys, same, -⟩ | ⟨xs, ys, same, rfl, length, equal⟩
    · exact second
    · cases same
    · cases same
      rcases deepEqual_cases second with rfl | ⟨ys, zs, same, -⟩ | ⟨ys', zs, same, rfl, length', equal'⟩
      · exact first
      · cases same
      · cases same
        refine deepEqual_obj.mpr ⟨length.trans length', fun k x mem => ?_⟩
        obtain ⟨y, found, same⟩ := equal k x mem
        obtain ⟨z, found', same'⟩ := equal' k y (mem_of_lookup found)
        exact ⟨z, found', ih (k, x) mem same same'⟩

theorem Proper.symm (proper : Proper x) : ∀ {y : Json}, Proper y → deepEqual x y = true → deepEqual y x = true := by
  induction proper with
  | null | bool value | num value | str value =>
    intro y _ same
    rcases deepEqual_cases same with rfl | ⟨xs, ys, same, -⟩ | ⟨xs, ys, same, -⟩
    · exact same
    · cases same
    · cases same
  | arr all ih =>
    intro y properY same
    rcases deepEqual_cases same with rfl | ⟨xs, ys, isArray, rfl, equal⟩ | ⟨xs, ys, isObject, -⟩
    · exact same
    · cases isArray
      cases properY with
      | arr allY => exact deepEqualItems_iff.mpr (forall₂_symm_of_mem (fun x inXs y inYs =>
          ih x inXs (allY y inYs)) equal)
    · cases isObject
  | @obj fields keys all ih =>
    intro y properY same
    rcases deepEqual_cases same with rfl | ⟨xs, ys, isArray, -⟩ | ⟨xs, ys, isObject, rfl, length, equal⟩
    · exact same
    · cases isArray
    · cases isObject
      cases properY with
      | obj keysY allY =>
        -- the keys of one are among those of the other, and there are as many
        have keysOf : fields.map Prod.fst ⊆ ys.map Prod.fst := by
          intro k isKey
          obtain ⟨field, mem, rfl⟩ := mem_map.mp isKey
          obtain ⟨y, found, -⟩ := equal field.1 field.2 mem
          exact mem_map.mpr ⟨(field.1, y), mem_of_lookup found, rfl⟩
        have perm : (fields.map Prod.fst).Perm (ys.map Prod.fst) :=
          (keys.subperm keysOf).perm_of_length_le (by simp [length])
        refine deepEqual_obj.mpr ⟨length.symm, fun k y mem => ?_⟩
        obtain ⟨field, inside, rfl⟩ := mem_map.mp (perm.mem_iff.mpr (mem_map_of_mem mem))
        obtain ⟨other, found, same⟩ := equal field.1 field.2 inside
        rw [lookup_of_mem keysY mem] at found
        cases found
        exact ⟨field.2, lookup_of_mem keys inside, ih field inside (allY _ mem) same⟩

end SecurityFabric.Json
