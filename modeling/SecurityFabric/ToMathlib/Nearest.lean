import Mathlib.Data.List.Nodup

/-! # Nearest-level decisions

A subject is judged at a sequence of levels, nearest first. A level may allow a key, deny it, or leave it open, and the
first level that speaks decides. Any loop that walks the levels and never revises a settled key computes `nearest`
(`decision_foldl`). Apart from repetitions the decisions determine the sequence of levels (`eq_of_forall_nearest`).
-/

namespace SecurityFabric

open List

variable {ι κ σ : Type*}

/-- The word of the nearest speaking level: `some true` allows the key, `some false` denies it. -/
def nearest (mention : ι → κ → Option Bool) (levels : List ι) (k : κ) : Option Bool :=
  levels.findSome? (fun level => mention level k)

variable {mention mention' : ι → κ → Option Bool}

@[simp] theorem nearest_nil (k : κ) : nearest mention [] k = none := rfl

theorem nearest_cons (level : ι) (rest : List ι) (k : κ) :
    nearest mention (level :: rest) k = (mention level k).or (nearest mention rest k) := by
  simp only [nearest, findSome?_cons]
  cases mention level k <;> rfl

theorem nearest_append (first second : List ι) (k : κ) :
    nearest mention (first ++ second) k = (nearest mention first k).or (nearest mention second k) :=
  findSome?_append

variable {levels : List ι} {k : κ}

theorem nearest_congr (same : ∀ level ∈ levels, mention level k = mention' level k) :
    nearest mention levels k = nearest mention' levels k := by
  induction levels with
  | nil => rfl
  | cons level rest ih =>
    rw [nearest_cons, nearest_cons, same level mem_cons_self, ih (forall_mem_cons.mp same).2]

theorem nearest_eq_none_iff : nearest mention levels k = none ↔ ∀ level ∈ levels, mention level k = none :=
  findSome?_eq_none_iff

theorem nearest_replicate_succ (n : Nat) (level : ι) (k : κ) :
    nearest mention (replicate (n + 1) level) k = mention level k := by
  induction n with
  | zero => simp [nearest_cons]
  | succ n ih =>
    rw [replicate_succ, nearest_cons, ih]
    cases mention level k <;> rfl

theorem nearest_eq_some_iff {verdict : Bool} : nearest mention levels k = some verdict ↔
    ∃ closer level farther, levels = closer ++ level :: farther ∧
      (∀ other ∈ closer, mention other k = none) ∧ mention level k = some verdict := by
  rw [nearest, findSome?_eq_some_iff]
  constructor
  · rintro ⟨closer, level, farther, split, spoken, silent⟩
    exact ⟨closer, level, farther, split, silent, spoken⟩
  · rintro ⟨closer, level, farther, split, silent, spoken⟩
    exact ⟨closer, level, farther, split, spoken, silent⟩

theorem nearest_filter (keep : ι → Bool) (silent : ∀ level ∈ levels, keep level = false → mention level k = none) :
    nearest mention (levels.filter keep) k = nearest mention levels k := by
  induction levels with
  | nil => rfl
  | cons level rest ih =>
    have tail := ih (forall_mem_cons.mp silent).2
    cases kept : keep level with
    | true => rw [filter_cons_of_pos kept, nearest_cons, nearest_cons, tail]
    | false =>
      rw [filter_cons_of_neg (by simp [kept]), nearest_cons, tail, silent level mem_cons_self kept, Option.none_or]

theorem nearest_eq_of_silent_ne [DecidableEq ι] (speaker : ι)
    (silent : ∀ level ∈ levels, level ≠ speaker → mention level k = none) :
    nearest mention levels k = if speaker ∈ levels then mention speaker k else none := by
  induction levels with
  | nil => rfl
  | cons level rest ih =>
    rw [nearest_cons, ih (forall_mem_cons.mp silent).2]
    by_cases same : level = speaker
    · subst same
      cases mention level k <;> simp
    · simp [silent level mem_cons_self same, Ne.symm same]

/-- Hearing a level again changes nothing. -/
theorem nearest_eraseDups [DecidableEq ι] (levels : List ι) (k : κ) :
    nearest mention levels.eraseDups k = nearest mention levels k := by
  cases levels with
  | nil => rfl
  | cons level rest =>
    rw [eraseDups_cons, nearest_cons, nearest_cons, nearest_eraseDups]
    cases spoken : mention level k with
    | some verdict => rfl
    | none =>
      rw [nearest_filter]
      intro other _ dropped
      have equal : other = level := by simpa using dropped
      rw [equal, spoken]
termination_by levels.length
decreasing_by exact Nat.lt_succ_of_le (length_filter_le _ rest)

theorem nodup_eraseDups [DecidableEq ι] (levels : List ι) : levels.eraseDups.Nodup := by
  cases levels with
  | nil => exact nodup_nil
  | cons level rest =>
    rw [eraseDups_cons, nodup_cons]
    refine ⟨?_, nodup_eraseDups _⟩
    simp
termination_by levels.length
decreasing_by exact Nat.lt_succ_of_le (length_filter_le _ rest)

/-- Two sequences without repetitions that always allow a key alike are the same sequence. -/
theorem eq_of_forall_nearest [DecidableEq ι] {first second : List ι} (k : κ) (firstNodup : first.Nodup)
    (secondNodup : second.Nodup)
    (same : ∀ mention : ι → Option Bool, nearest (fun level _ => mention level) first k = some true ↔
      nearest (fun level _ => mention level) second k = some true) : first = second := by
  induction first generalizing second with
  | nil =>
    cases second with
    | nil => rfl
    | cons level rest => simpa [nearest_cons] using same (fun _ => some true)
  | cons level rest ih =>
    cases second with
    | nil => simpa [nearest_cons] using same (fun _ => some true)
    | cons level' rest' =>
      have heads : level' = level := by
        -- only `level` allows, so the other head must be `level` as well
        simpa [nearest_cons] using same (fun other => some (decide (other = level)))
      subst heads
      have tails : rest = rest' := by
        apply ih (nodup_cons.mp firstNodup).2 (nodup_cons.mp secondNodup).2
        intro mention
        have masked := same (fun other => if other = level' then none else mention other)
        have unmask (tail : List ι) (absent : level' ∉ tail) :
            nearest (fun other _ => if other = level' then none else mention other) tail k =
              nearest (fun other _ => mention other) tail k :=
          nearest_congr (fun other mem => if_neg (fun (equal : other = level') => absent (equal ▸ mem)))
        simp only [nearest_cons] at masked
        rwa [unmask rest (nodup_cons.mp firstNodup).1, unmask rest' (nodup_cons.mp secondNodup).1] at masked
      rw [tails]

theorem decision_foldl (step : σ → ι → σ) (decision : σ → κ → Option Bool)
    (settles : ∀ state level k, decision (step state level) k = (decision state k).or (mention level k))
    (levels : List ι) (state : σ) (k : κ) :
    decision (levels.foldl step state) k = (decision state k).or (nearest mention levels k) := by
  induction levels generalizing state with
  | nil => simp
  | cons level rest ih => rw [foldl_cons, ih, settles, nearest_cons, Option.or_assoc]

end SecurityFabric
