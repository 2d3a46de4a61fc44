import Mathlib.Data.List.AList
import Mathlib.Data.List.Induction
import Mathlib.Tactic.Ring

/-! # Go maps as association lists

Mathlib's `AList` keeps at most one entry a key, which is what a Go map stores. This addition covers the loops Go
programs write over maps: collecting a set, grouping a slice by a key, overwriting entries in slice order, and ranging
over one map to fill another. Go leaves the order of a `range` open, and every law is stated on lookups and membership.
-/

namespace SecurityFabric

open List AList

/-- A test that passes less, and not one of what passed, leaves fewer. -/
theorem length_filter_lt {α : Type} {p q : α → Bool} {xs : List α} {x : α}
    (less : ∀ other ∈ xs, q other = true → p other = true)
    (member : x ∈ xs) (passes : p x = true) (fails : ¬ q x = true) : (xs.filter q).length < (xs.filter p).length := by
  have again : xs.filter q = (xs.filter p).filter q := by
    rw [filter_filter]
    exact filter_congr fun other isOther => Bool.eq_iff_iff.mpr (by simpa using less other isOther)
  rw [again]
  exact length_filter_lt_length_iff_exists.mpr ⟨x, mem_filter.mpr ⟨member, passes⟩, fails⟩

/-- The only element that passes is found. -/
theorem find?_of_unique {α : Type} {p : α → Bool} {xs : List α} {x : α} (mem : x ∈ xs) (passes : p x = true)
    (unique : ∀ other ∈ xs, p other = true → other = x) : xs.find? p = some x := by
  cases found : xs.find? p with
  | none => exact absurd passes (find?_eq_none.mp found x mem)
  | some other => rw [unique other (mem_of_find?_eq_some found) (find?_some found)]

/-- A Go map. A missing key reads as the zero value, so callers use `lookup` with a default. -/
abbrev GoMap (κ ν : Type) := AList (fun _ : κ => ν)

/-- A Go `map[K]bool` into which only `true` is ever stored. -/
abbrev GoSet (κ : Type) := GoMap κ Unit

namespace GoMap

variable {κ ν μ α : Type} [DecidableEq κ]

/-- `m[k] = append(m[k], xs...)`. -/
def append (m : GoMap κ (List ν)) (k : κ) (xs : List ν) : GoMap κ (List ν) := m.insert k ((m.lookup k).getD [] ++ xs)

section

variable (key : α → κ) (value : α → ν) (xs : List α) (f : Option μ → ν → μ) (m : GoMap κ ν) (res : GoMap κ μ) (k : κ)

/-- Set `m[key(x)] = value(x)` for each `x` in order: a later element overwrites an earlier one. -/
def assign : GoMap κ ν := xs.foldl (fun m x => m.insert (key x) (value x)) m

/-- Set `m[key(x)] = value(x)` for each `x` in order unless the key is already there. -/
def assignMissing : GoMap κ ν :=
  xs.foldl (fun m x => if key x ∈ m then m else m.insert (key x) (value x)) m

/-- `m[key(x)] = append(m[key(x)], value(x)...)` for each `x` in order. -/
def concat (value : α → List ν) (xs : List α) (m : GoMap κ (List ν)) : GoMap κ (List ν) :=
  xs.foldl (fun m x => append m (key x) (value x)) m

/-- Group a slice by a key, keeping the slice order inside each group. -/
def groupBy : GoMap κ (List α) := concat key (fun x => [x]) xs ∅

/-- Collect the given keys into a set. -/
def collect (keys : List κ) : GoSet κ := assign id (fun _ => ()) keys ∅

/-- Range over a map and keep the entries that `f` gives a value. -/
def filterMap (f : κ → ν → Option μ) (m : GoMap κ ν) : GoMap κ μ where
  entries := m.entries.filterMap (fun e => (f e.1 e.2).map (Sigma.mk e.1))
  nodupKeys := by
    have keys : ((m.entries.filterMap fun e => (f e.1 e.2).map (Sigma.mk (β := fun _ => μ) e.1)).map
        Sigma.fst).Sublist (m.entries.map Sigma.fst) := by
      induction m.entries with
      | nil => exact .slnil
      | cons e rest ih =>
        cases kept : f e.1 e.2 with
        | none => simpa [filterMap_cons, kept] using ih.cons e.1
        | some v => simpa [filterMap_cons, kept] using ih.cons_cons e.1
    exact keys.nodup m.nodupKeys

/-- Range over a map `m` and set `res[k] = f(res[k], v)` for each of its entries. -/
def overlay : GoMap κ μ :=
  m.entries.foldl (fun res entry => res.insert entry.1 (f (res.lookup entry.1) entry.2)) res

/-- Collect `value(x)` into the set under `key(x)` for each `x`. -/
def collectBy [DecidableEq ν] (xs : List α) : GoMap κ (GoSet ν) :=
  xs.foldl (fun m x => m.insert (key x) (((m.lookup (key x)).getD ∅).insert (value x) ())) ∅

/-- Load the value of each key that is not there yet. -/
def load {ε : Type} (fetch : κ → Except ε ν) (keys : List κ) (m : GoMap κ ν) : Except ε (GoMap κ ν) :=
  keys.foldlM (fun m k => if k ∈ m then .ok m else (fetch k).map (m.insert k)) m

/-- `m[k] += n` for each key in order. -/
def tally (n : Int) (keys : List κ) (m : GoMap κ Int) : GoMap κ Int :=
  keys.foldl (fun m k => m.insert k ((m.lookup k).getD 0 + n)) m

/-- The values of a map, in iteration order. -/
def values : List ν := m.entries.map (·.2)

theorem lookup_assign :
    (assign key value xs m).lookup k = ((xs.reverse.find? (fun x => key x = k)).map value).or (m.lookup k) := by
  induction xs generalizing m with
  | nil => rfl
  | cons x rest ih =>
    rw [show assign key value (x :: rest) m = assign key value rest (m.insert (key x) (value x)) from
      rfl, ih, reverse_cons, find?_append]
    cases found : rest.reverse.find? (fun x => key x = k) with
    | some last => simp
    | none =>
      by_cases same : key x = k
      · subst same
        simp
      · simp [same, lookup_insert_ne (Ne.symm same)]

/-- The last element with the key of one that is there. -/
theorem exists_last {xs : List α} {x : α} (mem : x ∈ xs) :
    ∃ last ∈ xs, key last = key x ∧ xs.reverse.find? (fun other => key other = key x) = some last := by
  cases found : xs.reverse.find? fun other => key other = key x with
  | none => simpa using find?_eq_none.mp found x (mem_reverse.mpr mem)
  | some last => exact ⟨last, mem_reverse.mp (mem_of_find?_eq_some found), by simpa using find?_some found, rfl⟩

theorem lookup_assign_of_unique {xs : List α} (m : GoMap κ ν) {x : α} (found : x ∈ xs)
    (unique : ∀ other ∈ xs, key other = key x → other = x) :
    (assign key value xs m).lookup (key x) = some (value x) := by
  obtain ⟨last, mem, same, isLast⟩ := exists_last key found
  rw [lookup_assign, isLast, unique last mem same]
  rfl

theorem mem_assign : k ∈ assign key value xs m ↔ (∃ x ∈ xs, key x = k) ∨ k ∈ m := by
  rw [← lookup_isSome, lookup_assign, Option.isSome_or, Bool.or_eq_true, lookup_isSome]
  simp

/-- What is there stays; of the new elements with a key, the first decides. -/
theorem lookup_assignMissing :
    (assignMissing key value xs m).lookup k = (m.lookup k).or ((xs.find? (fun x => key x = k)).map value) := by
  induction xs generalizing m with
  | nil => simp [assignMissing]
  | cons x rest ih =>
    rw [show assignMissing key value (x :: rest) m = assignMissing key value rest
      (if key x ∈ m then m else m.insert (key x) (value x)) from rfl, ih]
    by_cases same : key x = k
    · subst same
      split_ifs with present
      · obtain ⟨v, found⟩ := Option.isSome_iff_exists.mp (lookup_isSome.mpr present)
        simp [found]
      · simp [lookup_eq_none.mpr present]
    · split_ifs with present
      · simp [same]
      · simp [same, lookup_insert_ne (Ne.symm same)]

theorem mem_assignMissing : k ∈ assignMissing key value xs m ↔ k ∈ m ∨ ∃ x ∈ xs, key x = k := by
  rw [← lookup_isSome, lookup_assignMissing, Option.isSome_or, Bool.or_eq_true, lookup_isSome]
  simp

@[simp] theorem mem_collect (keys : List κ) (k : κ) : k ∈ collect keys ↔ k ∈ keys := by
  simp [collect, mem_assign]

theorem lookup_concat (value : α → List ν) (xs : List α) (m : GoMap κ (List ν)) (k : κ) :
    (concat key value xs m).lookup k = if xs.filter (fun x => key x = k) = [] then m.lookup k
      else some ((m.lookup k).getD [] ++ (xs.filter (fun x => key x = k)).flatMap value) := by
  induction xs using reverseRecOn with
  | nil => rfl
  | append_singleton rest x ih =>
    rw [concat, foldl_append, foldl_cons, foldl_nil,
      show rest.foldl (fun m x => append m (key x) (value x)) m = concat key value rest m from rfl]
    by_cases same : key x = k
    · subst same
      rw [append, ih]
      split_ifs with empty <;> simp_all
    · rw [append, lookup_insert_ne (Ne.symm same), ih]
      simp [same]

theorem mem_concat (value : α → List ν) (xs : List α) (m : GoMap κ (List ν)) (k : κ) :
    k ∈ concat key value xs m ↔ (∃ x ∈ xs, key x = k) ∨ k ∈ m := by
  rw [← lookup_isSome, lookup_concat, ← lookup_isSome]
  split_ifs with empty
  · have none : ¬ ∃ x ∈ xs, key x = k := by simpa using empty
    simp [none]
  · have found : ∃ x ∈ xs, key x = k := by simpa using empty
    simp [found]

theorem lookup_groupBy :
    (groupBy key xs).lookup k = if xs.filter (fun x => key x = k) = [] then none
      else some (xs.filter (fun x => key x = k)) := by
  rw [groupBy, lookup_concat]
  simp

theorem lookup_filterMap (f : κ → ν → Option μ) (m : GoMap κ ν) (k : κ) :
    (filterMap f m).lookup k = (m.lookup k).bind (f k) := by
  ext v
  rw [← Option.mem_def, mem_lookup_iff, filterMap, mem_filterMap]
  constructor
  · rintro ⟨⟨k', w⟩, mem, kept⟩
    obtain ⟨v', value, same⟩ := Option.map_eq_some_iff.mp kept
    cases same
    exact Option.bind_eq_some_iff.mpr ⟨w, mem_lookup_iff.mpr mem, value⟩
  · intro found
    obtain ⟨w, mem, value⟩ := Option.bind_eq_some_iff.mp found
    exact ⟨⟨k, w⟩, mem_lookup_iff.mp mem, by rw [value]; rfl⟩

theorem lookup_overlay :
    (overlay f m res).lookup k = ((m.lookup k).map (f (res.lookup k))).or (res.lookup k) := by
  obtain ⟨entries, distinct⟩ := m
  change (entries.foldl _ res).lookup k = ((entries.dlookup k).map (f (res.lookup k))).or (res.lookup k)
  induction entries generalizing res with
  | nil => rfl
  | cons entry rest ih =>
    obtain ⟨fresh, distinct⟩ := nodupKeys_cons.mp distinct
    rw [foldl_cons, ih _ distinct]
    obtain ⟨key, value⟩ := entry
    by_cases same : key = k
    · subst same
      rw [dlookup_eq_none.mpr fresh, dlookup_cons_eq, lookup_insert]
      rfl
    · rw [dlookup_cons_ne _ _ (Ne.symm same), lookup_insert_ne (Ne.symm same)]

theorem lookup_tally (n : Int) (keys : List κ) (m : GoMap κ Int) (k : κ) :
    ((tally n keys m).lookup k).getD 0 = (m.lookup k).getD 0 + keys.count k * n := by
  induction keys generalizing m with
  | nil => simp [tally]
  | cons first rest ih =>
    rw [show tally n (first :: rest) m = tally n rest (m.insert first ((m.lookup first).getD 0 + n)) from rfl, ih]
    by_cases same : first = k
    · subst same
      rw [lookup_insert, count_cons_self, Option.getD_some]
      push_cast
      ring
    · rw [lookup_insert_ne (Ne.symm same), count_cons_of_ne same]

theorem mem_values (v : ν) : v ∈ values m ↔ ∃ k, m.lookup k = some v := by
  simp only [values, mem_map]
  constructor
  · rintro ⟨⟨k, w⟩, mem, rfl⟩
    exact ⟨k, mem_lookup_iff.mpr mem⟩
  · rintro ⟨k, found⟩
    exact ⟨⟨k, v⟩, mem_lookup_iff.mp found, rfl⟩

theorem mem_filter_entries (test : ν → Bool) (k : κ) :
    k ∈ (m.entries.filter fun entry => test entry.2).map (·.1) ↔ ∃ v, m.lookup k = some v ∧ test v = true := by
  simp only [mem_map, mem_filter]
  constructor
  · rintro ⟨⟨key, v⟩, ⟨mem, passes⟩, rfl⟩
    exact ⟨v, mem_lookup_iff.mpr mem, passes⟩
  · rintro ⟨v, found, passes⟩
    exact ⟨⟨k, v⟩, ⟨mem_lookup_iff.mp found, passes⟩, rfl⟩

end

theorem mem_lookup_collectBy [DecidableEq ν] (key : α → κ) (value : α → ν) (xs : List α) (k : κ) (v : ν) :
    v ∈ ((collectBy key value xs).lookup k).getD ∅ ↔ ∃ x ∈ xs, key x = k ∧ value x = v := by
  induction xs using reverseRecOn with
  | nil => simp [collectBy]
  | append_singleton rest x ih =>
    rw [collectBy, foldl_append, foldl_cons, foldl_nil, show rest.foldl _ ∅ = collectBy key value rest from rfl]
    by_cases same : key x = k
    · subst same
      rw [lookup_insert, Option.getD_some, mem_insert, ih]
      simp [eq_comm, or_comm]
    · rw [lookup_insert_ne (Ne.symm same), ih]
      simp [same]

theorem mem_collectBy [DecidableEq ν] (key : α → κ) (value : α → ν) (xs : List α) (k : κ) :
    k ∈ collectBy key value xs ↔ ∃ x ∈ xs, key x = k := by
  induction xs using reverseRecOn with
  | nil => simp [collectBy]
  | append_singleton rest x ih =>
    rw [collectBy, foldl_append, foldl_cons, foldl_nil, show rest.foldl _ ∅ =
      collectBy key value rest from rfl, mem_insert, ih]
    simp [eq_comm, or_comm]

variable {m : GoMap κ ν}

/-- What is there stays; the other keys get what was fetched for them. -/
theorem lookup_load {ε : Type} {fetch : κ → Except ε ν} {keys : List κ} {loaded : GoMap κ ν}
    (success : load fetch keys m = .ok loaded)
    (k : κ) : loaded.lookup k = (m.lookup k).or (if k ∈ keys then (fetch k).toOption else none) := by
  induction keys generalizing m with
  | nil =>
    cases success
    simp
  | cons first rest ih =>
    rw [load, foldlM_cons] at success
    by_cases present : first ∈ m
    · rw [if_pos present] at success
      rw [ih success]
      by_cases same : k = first
      · subst same
        obtain ⟨v, found⟩ := Option.isSome_iff_exists.mp (lookup_isSome.mpr present)
        simp [found]
      · simp [same]
    · rw [if_neg present] at success
      cases fetched : fetch first with
      | error failure =>
        rw [fetched] at success
        cases success
      | ok v =>
        rw [fetched] at success
        have later := ih success
        by_cases same : k = first
        · subst same
          simp [later, lookup_eq_none.mpr present, fetched, Except.toOption]
        · simp [later, same]

theorem lookup_insert_eq_some {k k' : κ} {v w : ν} :
    (m.insert k v).lookup k' = some w ↔ (k' = k ∧ w = v) ∨ (k' ≠ k ∧ m.lookup k' = some w) := by
  by_cases same : k' = k
  · rw [same]
    simp [eq_comm]
  · simp [same]

/-- Each value is stored under its own key. -/
def Keyed (key : ν → κ) (m : GoMap κ ν) : Prop := ∀ k v, m.lookup k = some v → key v = k

theorem keyed_empty (key : ν → κ) : Keyed key (∅ : GoMap κ ν) := fun _ _ found => by
  rw [lookup_empty] at found
  cases found

variable {key : ν → κ}

theorem Keyed.insert (keyed : Keyed key m) (v : ν) : Keyed key (m.insert (key v) v) := by
  intro k w found
  rcases lookup_insert_eq_some.mp found with ⟨rfl, rfl⟩ | ⟨-, before⟩
  · rfl
  · exact keyed k w before

theorem Keyed.assign (keyed : Keyed key m) (xs : List ν) : Keyed key (assign key id xs m) := by
  induction xs generalizing m with
  | nil => exact keyed
  | cons x rest ih => exact ih (keyed.insert x)

theorem Keyed.assignMissing (keyed : Keyed key m) (xs : List ν) : Keyed key (assignMissing key id xs m) := by
  induction xs generalizing m with
  | nil => exact keyed
  | cons x rest ih =>
    change Keyed key (GoMap.assignMissing key id rest (if key x ∈ m then m else m.insert (key x) x))
    split_ifs
    · exact ih keyed
    · exact ih (keyed.insert x)

theorem Keyed.mem_map_values (keyed : Keyed key m) (k : κ) : k ∈ (values m).map key ↔ k ∈ m := by
  rw [mem_map, ← lookup_isSome, Option.isSome_iff_exists]
  constructor
  · rintro ⟨v, mem, rfl⟩
    obtain ⟨k, found⟩ := (mem_values m v).mp mem
    exact ⟨v, by rw [keyed k v found, found]⟩
  · rintro ⟨v, found⟩
    exact ⟨v, (mem_values m v).mpr ⟨k, found⟩, keyed k v found⟩

theorem Keyed.nodup_map_values (keyed : Keyed key m) : ((values m).map key).Nodup := by
  have same : (values m).map key = m.entries.map Sigma.fst := by
    rw [values, map_map]
    refine map_congr_left fun entry mem => ?_
    exact keyed entry.1 entry.2 (mem_lookup_iff.mpr mem)
  rw [same]
  exact m.nodupKeys

end GoMap

end SecurityFabric
