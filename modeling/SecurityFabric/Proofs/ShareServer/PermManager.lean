import SecurityFabric.Model.ShareServer
import SecurityFabric.ToMathlib.Nearest

/-! # The loops over levels

Both loops settle the levels of the groups one after another. Bit by bit, what they come to is what the nearest level
says that says anything. The groups come deepest first, so that the levels are those of all depths, except that nothing
is settled where there is no group.
-/

namespace SecurityFabric.ShareServer

section

open List Level

variable {size : Nat}
variable (infos : List (DbPermConfig size))
variable {word : Nat → Nat → Option Bool} {final : AccessPerm} {req : PermValue} {most bit : Nat}

theorem getLsbD_without (x y : PermValue) (bit : Nat) :
    (x &&& ~~~y).getLsbD bit = (x.getLsbD bit && !y.getLsbD bit) := by
  rw [BitVec.getLsbD_and]
  cases set : x.getLsbD bit with
  | false => rfl
  | true => simp [BitVec.lt_of_getLsbD set]

theorem eq_zero_iff {x : PermValue} : x = 0 ↔ ∀ bit, x.getLsbD bit = false := by
  constructor
  · rintro rfl bit
    exact BitVec.getLsbD_zero
  · intro none
    refine BitVec.eq_of_getLsbD_eq fun bit _ => ?_
    rw [none bit]
    exact BitVec.getLsbD_zero.symm

/-- What a level says of a permission. -/
def Level.speaks (level : Level) (bit : Nat) : Option Bool :=
  if level.denyValue.getLsbD bit then some false else if level.allowValue.getLsbD bit then some true else none

@[simp] theorem speaks_zero (bit : Nat) : (⟨0, 0⟩ : Level).speaks bit = none := by
  simp [speaks]

def DbPermConfig.level (info : DbPermConfig size) : Level := ⟨info.denyValue, info.allowValue⟩

/-- The levels that the loop settles. -/
def levelsOf : Level → Nat → List (DbPermConfig size) → List Level
  | tmp, _, [] => [tmp]
  | tmp, tmpDepth, info :: rest =>
    if getPathDepth info.docId = tmpDepth then levelsOf (tmp.add info) tmpDepth rest
    else tmp :: levelsOf info.level (getPathDepth info.docId) rest

private theorem byLevel_eq_foldlM {σ ρ : Type} (settle : σ → Level → Except ρ σ) (state : σ)
    (tmp : Level) (tmpDepth : Nat)
    (infos : List (DbPermConfig size)) :
    byLevel settle state tmp tmpDepth infos = (levelsOf tmp tmpDepth infos).foldlM settle state := by
  induction infos generalizing state tmp tmpDepth with
  | nil =>
    rw [byLevel, levelsOf, foldlM_cons]
    cases settle state tmp <;> rfl
  | cons info rest ih =>
    rw [byLevel, levelsOf]
    split_ifs
    · exact ih ..
    · rw [foldlM_cons]
      cases settle state tmp with
      | error code => rfl
      | ok next => exact ih ..

/-- What has been settled for a permission. -/
def AccessPerm.decision (perm : AccessPerm) (bit : Nat) : Option Bool :=
  if perm.denyValue.getLsbD bit then some false else if perm.allowValue.getLsbD bit then some true else none

/-- Nothing is both allowed and denied. -/
def AccessPerm.Disjoint (perm : AccessPerm) : Prop :=
  ∀ bit, ¬ (perm.allowValue.getLsbD bit = true ∧ perm.denyValue.getLsbD bit = true)

private theorem AccessPerm.decision_settle (final : AccessPerm) (level : Level) (bit : Nat) :
    (final.settle level).decision bit = (final.decision bit).or (level.speaks bit) := by
  simp only [AccessPerm.decision, AccessPerm.settle, speaks, BitVec.getLsbD_or, getLsbD_without]
  cases final.denyValue.getLsbD bit <;> cases final.allowValue.getLsbD bit <;> cases level.denyValue.getLsbD bit <;>
    cases level.allowValue.getLsbD bit <;> rfl

private theorem AccessPerm.Disjoint.settle (disjoint : final.Disjoint) (level : Level) :
    (final.settle level).Disjoint := by
  intro bit
  have before := disjoint bit
  simp only [AccessPerm.settle, BitVec.getLsbD_or, getLsbD_without]
  revert before
  cases final.denyValue.getLsbD bit <;> cases final.allowValue.getLsbD bit <;> cases level.denyValue.getLsbD bit <;>
    cases level.allowValue.getLsbD bit <;> simp

private theorem disjoint_foldl (disjoint : final.Disjoint) (levels : List Level) :
    (levels.foldl AccessPerm.settle final).Disjoint := by
  induction levels generalizing final with
  | nil => exact disjoint
  | cons level rest ih => exact ih (disjoint.settle level)

/-- Settled permissions, read off bit by bit. -/
theorem foldl_settle_bits (levels : List Level) (bit : Nat) :
    ((levels.foldl AccessPerm.settle ⟨0, 0⟩).allowValue.getLsbD bit = true ↔ nearest speaks levels bit = some true) ∧
      ((levels.foldl AccessPerm.settle ⟨0, 0⟩).denyValue.getLsbD bit = true ↔
        nearest speaks levels bit = some false) := by
  have decided := decision_foldl AccessPerm.settle AccessPerm.decision AccessPerm.decision_settle levels ⟨0, 0⟩ bit
  have disjoint := @disjoint_foldl ⟨0, 0⟩ (fun bit => by simp) levels bit
  rw [show (⟨0, 0⟩ : AccessPerm).decision bit = none by simp [AccessPerm.decision], Option.none_or] at decided
  rw [← decided, AccessPerm.decision]
  revert disjoint
  cases (levels.foldl AccessPerm.settle ⟨0, 0⟩).denyValue.getLsbD bit <;>
    cases (levels.foldl AccessPerm.settle ⟨0, 0⟩).allowValue.getLsbD bit <;> simp

theorem calcPerm_eq_foldl : calcPerm infos = (levelsOf ⟨0, 0⟩ 0 infos).foldl AccessPerm.settle ⟨0, 0⟩ := by
  rw [calcPerm, byLevel_eq_foldlM,
    show foldlM (fun final tmp => (.ok (final.settle tmp) : Except Empty AccessPerm)) _ _ = .ok _ from foldlM_pure]

/-- All requested permissions are allowed by the nearest levels that speak of them. -/
theorem foldlM_checkLevel_iff (levels : List Level) (asked : req ≠ 0) :
    levels.foldlM checkLevel req = .error .checkOk ↔ ∀ bit, req.getLsbD bit = true →
    nearest speaks levels bit = some true := by
  induction levels generalizing req with
  | nil =>
    refine iff_of_false (fun ended => by cases ended) fun all => asked (eq_zero_iff.mpr fun bit => ?_)
    cases set : req.getLsbD bit with
    | false => rfl
    | true => cases all bit set
  | cons level rest ih =>
    rw [foldlM_cons, checkLevel]
    by_cases denied : level.denyValue &&& req ≠ 0
    · rw [if_pos denied]
      refine iff_of_false (fun ended => by cases ended) fun all => denied (eq_zero_iff.mpr fun bit => ?_)
      rw [BitVec.getLsbD_and]
      cases set : req.getLsbD bit with
      | false => rw [Bool.and_false]
      | true =>
        have allowed := all bit set
        rw [nearest_cons, speaks] at allowed
        cases isDenied : level.denyValue.getLsbD bit with
        | false => rfl
        | true => rw [isDenied] at allowed; cases allowed
    · have notDenied (bit : Nat) (set : req.getLsbD bit = true) : level.denyValue.getLsbD bit = false := by
        have none := eq_zero_iff.mp (not_not.mp denied) bit
        rwa [BitVec.getLsbD_and, set, Bool.and_true] at none
      have word (bit : Nat) (set : req.getLsbD bit = true) :
          level.speaks bit = if level.allowValue.getLsbD bit then some true else none := by
        rw [speaks, notDenied bit set, if_neg (by simp)]
      have left (bit : Nat) : (req &&& ~~~(level.allowValue &&& ~~~level.denyValue)).getLsbD bit =
          (req.getLsbD bit && !level.allowValue.getLsbD bit) := by
        rw [getLsbD_without, getLsbD_without]
        cases set : req.getLsbD bit with
        | false => rfl
        | true => rw [notDenied bit set, Bool.not_false, Bool.and_true]
      rw [if_neg denied]
      by_cases allAllowed : req &&& ~~~(level.allowValue &&& ~~~level.denyValue) = 0
      · rw [if_pos allAllowed]
        refine iff_of_true rfl fun bit set => ?_
        have none := eq_zero_iff.mp allAllowed bit
        rw [left, set, Bool.true_and, Bool.not_eq_false'] at none
        rw [nearest_cons, word bit set, none]
        rfl
      · rw [if_neg allAllowed]
        refine (ih allAllowed).trans (forall_congr' fun bit => ?_)
        rw [left]
        cases set : req.getLsbD bit with
        | false => simp
        | true =>
          rw [nearest_cons, word bit set]
          cases level.allowValue.getLsbD bit <;> simp

theorem checkPerm_eq_checkOk_iff (asked : req ≠ 0) :
    checkPerm infos req = .checkOk ↔ ∀ bit, req.getLsbD bit = true →
    nearest speaks (levelsOf ⟨0, 0⟩ 0 infos) bit = some true := by
  rw [← foldlM_checkLevel_iff _ asked, checkPerm, byLevel_eq_foldlM]
  cases (levelsOf ⟨0, 0⟩ 0 infos).foldlM checkLevel req with
  | ok left => exact iff_of_false (fun same => by cases same) fun same => by cases same
  | error code => exact ⟨fun same => congrArg Except.error same, fun same => Except.error.inj same⟩

/-- The depths from one down to the library. -/
def depthsDown : Nat → List Nat
  | 0 => []
  | depth + 1 => (depth + 1) :: depthsDown depth

variable {depth : Nat}

theorem mem_depthsDown {k : Nat} : k ∈ depthsDown depth ↔ 1 ≤ k ∧ k ≤ depth := by
  induction depth with
  | zero => simp only [depthsDown, not_mem_nil, false_iff]; omega
  | succ depth ih =>
    rw [depthsDown, mem_cons, ih]
    omega

/-- The groups of a depth, put together. -/
def levelAt (infos : List (DbPermConfig size)) (depth : Nat) : Level :=
  (infos.filter fun info => getPathDepth info.docId = depth).foldl Level.add ⟨0, 0⟩

private theorem getLsbD_foldl_add (level : Level) (bit : Nat) :
    (((infos.foldl Level.add level).denyValue.getLsbD bit = true ↔
      level.denyValue.getLsbD bit = true ∨ ∃ info ∈ infos, info.denyValue.getLsbD bit = true)) ∧
    (((infos.foldl Level.add level).allowValue.getLsbD bit = true ↔
      level.allowValue.getLsbD bit = true ∨ ∃ info ∈ infos, info.allowValue.getLsbD bit = true)) := by
  induction infos generalizing level with
  | nil => simp
  | cons info rest ih =>
    obtain ⟨deny, allow⟩ := ih (level.add info)
    rw [foldl_cons, deny, allow]
    simp [Level.add, or_assoc]

private theorem speaks_congr {level other : Level} {bit : Nat}
    (deny : level.denyValue.getLsbD bit = other.denyValue.getLsbD bit)
    (allow : level.allowValue.getLsbD bit = other.allowValue.getLsbD bit) : level.speaks bit = other.speaks bit := by
  rw [speaks, speaks, deny, allow]

private theorem nearest_depthsDown {least most bit : Nat} (smaller : least ≤ most)
    (silent : ∀ k, least < k → k ≤ most → word k bit = none) :
    nearest word (depthsDown most) bit = nearest word (depthsDown least) bit := by
  induction most with
  | zero => rw [Nat.le_zero.mp smaller]
  | succ most ih =>
    rcases Nat.lt_or_eq_of_le smaller with less | rfl
    · rw [depthsDown, nearest_cons, silent (most + 1) less (le_refl _)]
      exact ih (Nat.le_of_lt_succ less) fun k above upTo => silent k above (Nat.le_succ_of_le upTo)
    · rfl

/-- The nearest depth at which something is said. -/
theorem nearest_depthsDown_eq_some_iff {verdict : Bool} : nearest word (depthsDown most) bit = some verdict ↔
    ∃ k, 1 ≤ k ∧ k ≤ most ∧ word k bit = some verdict ∧ ∀ j, k < j → j ≤ most → word j bit = none := by
  induction most with
  | zero =>
    refine iff_of_false (fun found => by cases found) ?_
    omega
  | succ most ih =>
    rw [depthsDown, nearest_cons]
    cases spoken : word (most + 1) bit with
    | some said =>
      rw [Option.some_or]
      constructor
      · rintro same
        exact ⟨most + 1, by omega, le_refl _, spoken.trans same, fun j above upTo => by omega⟩
      · rintro ⟨k, -, upTo, found, silent⟩
        rcases Nat.lt_or_eq_of_le upTo with less | rfl
        · rw [silent (most + 1) less (le_refl _)] at spoken
          cases spoken
        · rw [← spoken, found]
    | none =>
      rw [Option.none_or, ih]
      constructor
      · rintro ⟨k, positive, upTo, found, silent⟩
        refine ⟨k, positive, by omega, found, fun j above within => ?_⟩
        rcases Nat.lt_or_eq_of_le within with less | rfl
        · exact silent j above (by omega)
        · exact spoken
      · rintro ⟨k, positive, upTo, found, silent⟩
        rcases Nat.lt_or_eq_of_le upTo with less | rfl
        · exact ⟨k, positive, by omega, found, fun j above within => silent j above (by omega)⟩
        · rw [spoken] at found
          cases found

/-- The groups come deepest first. -/
def DepthSorted (infos : List (DbPermConfig size)) : Prop :=
  infos.Pairwise fun first second => getPathDepth second.docId ≤ getPathDepth first.docId

private theorem levelAt_cons_of_ne {info : DbPermConfig size} (other : getPathDepth info.docId ≠ depth)
    (rest : List (DbPermConfig size)) : levelAt (info :: rest) depth = levelAt rest depth := by
  rw [levelAt, filter_cons_of_neg (by simpa using other), levelAt]

variable {infos : List (DbPermConfig size)}

private theorem levelAt_eq_zero (none : ∀ info ∈ infos, getPathDepth info.docId ≠ depth) :
    levelAt infos depth = ⟨0, 0⟩ := by
  rw [levelAt, filter_eq_nil_iff.mpr fun info mem => by simpa using none info mem]
  rfl

/-- The levels that the loop settles, by their depths: the present one and those above it. -/
theorem nearest_levelsOf (sorted : DepthSorted infos) {tmp : Level} {tmpDepth bit : Nat}
    (within : ∀ info ∈ infos, 1 ≤ getPathDepth info.docId ∧ getPathDepth info.docId ≤ tmpDepth) :
    nearest speaks (levelsOf tmp tmpDepth infos) bit =
      (((infos.filter fun info => getPathDepth info.docId = tmpDepth).foldl Level.add tmp).speaks bit).or
        (nearest (fun k => (levelAt infos k).speaks) (depthsDown (tmpDepth - 1)) bit) := by
  induction infos generalizing tmp tmpDepth with
  | nil =>
    rw [levelsOf, nearest_cons]
    exact congrArg _ (nearest_eq_none_iff.mpr fun k _ => speaks_zero bit).symm
  | cons info rest ih =>
    obtain ⟨deepest, sortedRest⟩ := pairwise_cons.mp sorted
    obtain ⟨⟨positive, upTo⟩, withinRest⟩ := forall_mem_cons.mp within
    rw [levelsOf]
    by_cases same : getPathDepth info.docId = tmpDepth
    · rw [if_pos same, ih sortedRest withinRest, filter_cons_of_pos (by simpa using same)]
      congr 1
      refine nearest_congr fun k isDepth => ?_
      rw [levelAt_cons_of_ne]
      have := (mem_depthsDown.mp isDepth).2
      omega
    · have none : (info :: rest).filter (fun other => getPathDepth other.docId = tmpDepth) = [] := by
        refine filter_eq_nil_iff.mpr (forall_mem_cons.mpr ⟨by simpa using same, fun other mem => ?_⟩)
        have := deepest other mem
        simp only [decide_eq_true_eq]
        omega
      have skipped : nearest (fun k => (levelAt (info :: rest) k).speaks) (depthsDown (tmpDepth - 1)) bit =
          nearest (fun k => (levelAt (info :: rest) k).speaks) (depthsDown (getPathDepth info.docId)) bit := by
        refine nearest_depthsDown (by omega) fun k above _ => ?_
        rw [levelAt_eq_zero (forall_mem_cons.mpr ⟨by omega, fun other mem => ?_⟩), speaks_zero]
        have := deepest other mem
        omega
      have here : levelAt (info :: rest) (getPathDepth info.docId) =
          (rest.filter fun other => getPathDepth other.docId = getPathDepth info.docId).foldl Level.add info.level := by
        rw [levelAt]
        simp [Level.add, DbPermConfig.level]
      rw [if_neg same, nearest_cons, ih sortedRest fun other mem =>
        ⟨(withinRest other mem).1, deepest other mem⟩, none, skipped]
      congr 1
      obtain ⟨above, isAbove⟩ := Nat.exists_eq_add_of_le' positive
      rw [isAbove, depthsDown, nearest_cons, ← isAbove, here, isAbove]
      congr 1
      refine nearest_congr fun k isDepth => ?_
      rw [levelAt_cons_of_ne]
      have := (mem_depthsDown.mp isDepth).2
      omega

private theorem nearest_levelsOf_zero (sorted : DepthSorted infos)
    (within : ∀ info ∈ infos, 1 ≤ getPathDepth info.docId ∧ getPathDepth info.docId ≤ most) :
    nearest speaks (levelsOf ⟨0, 0⟩ 0 infos) bit = nearest (fun k => (levelAt infos k).speaks)
    (depthsDown most) bit := by
  -- no group has the depth at which the loop begins, be it zero or one too many
  have begins : levelsOf ⟨0, 0⟩ 0 infos = levelsOf ⟨0, 0⟩ (most + 1) infos := by
    cases infos with
    | nil => rfl
    | cons info rest =>
      have bounds := within info mem_cons_self
      rw [levelsOf, levelsOf, if_neg (by omega), if_neg (by omega)]
  have none : infos.filter (fun info => getPathDepth info.docId = most + 1) = [] := by
    refine filter_eq_nil_iff.mpr fun info mem => ?_
    have bounds := within info mem
    simp only [decide_eq_true_eq]
    omega
  have settled := @nearest_levelsOf size infos sorted ⟨0, 0⟩ (most + 1) bit fun info mem =>
    ⟨(within info mem).1, Nat.le_succ_of_le (within info mem).2⟩
  rw [begins, settled, none, foldl_nil, speaks_zero, Option.none_or, Nat.add_sub_cancel]

end

/-! # What the queries return

The groups of a query, in terms of the rows of the table. A group that stops inheriting comes last at its level, so that
the loop which ends there has seen the other groups of the level and none of those above it.
-/

open List

variable {size : Nat}

private theorem length_intercalate {α : Type} {sep : α} {names : List (List α)} {length : Nat}
    (all : ∀ name ∈ names, name.length = length)
    (nonempty : names ≠ []) : (intercalate [sep] names).length + 1 = names.length * (length + 1) := by
  induction names with
  | nil => exact absurd rfl nonempty
  | cons name rest ih =>
    obtain ⟨here, later⟩ := forall_mem_cons.mp all
    cases rest with
    | nil => simp [here]
    | cons next more =>
      have rest := ih later (by simp)
      have joined : intercalate [sep] (name :: next :: more) = name ++ sep :: intercalate [sep] (next :: more) := by
        simp
      rw [joined, length_append, length_cons, length_cons, Nat.add_mul]
      omega

variable {path : GnsPath size}

theorem length_text (nonempty : path ≠ []) : path.text.length + 1 = 6 + path.length * (size + 2) := by
  have names := @length_intercalate Char '/' (path.map (·.letters)) (size + 1) (fun name mem => by
    obtain ⟨part, -, rfl⟩ := mem_map.mp mem
    exact part.length_letters) (by simpa using nonempty)
  rw [length_map] at names
  change _ = path.length * (size + 2) at names
  rw [GnsPath.text, length_append]
  change 6 + _ + 1 = _
  omega

private theorem length_text_lt_iff {other : GnsPath size} (nonempty : path ≠ []) (otherNonempty : other ≠ []) :
    path.text.length < other.text.length ↔ path.length < other.length := by
  have first := length_text nonempty
  have second := length_text otherNonempty
  constructor
  · intro longer
    exact Nat.lt_of_mul_lt_mul_right (show path.length * (size + 2) < other.length * (size + 2) by omega)
  · intro deeper
    have := Nat.mul_lt_mul_of_pos_right deeper (show 0 < size + 2 by omega)
    omega

variable {k : Nat}

variable {docId : GnsPath size}

private theorem take_ne_nil (positive : 1 ≤ k) (upTo : k ≤ docId.length) : docId.take k ≠ [] := by
  intro none
  have := congrArg List.length none
  rw [length_take, length_nil] at this
  omega

private theorem mem_docIds (nonempty : getPathDepth docId ≠ 0) :
    path ∈ docIds docId true ↔ ∃ k, 1 ≤ k ∧ k ≤ docId.length ∧ path = docId.take k := by
  change docId.length ≠ 0 at nonempty
  simp only [docIds, ↓reduceIte, mem_cons, mem_map, mem_reverse, mem_range'_1, getPathDepth]
  constructor
  · rintro (rfl | ⟨k, bounds, rfl⟩)
    · exact ⟨path.length, by omega, le_refl _, (take_length).symm⟩
    · exact ⟨k, bounds.1, by omega, rfl⟩
  · rintro ⟨k, positive, upTo, rfl⟩
    rcases Nat.lt_or_eq_of_le upTo with less | rfl
    · exact .inr ⟨k, by omega, rfl⟩
    · exact .inl take_length

private theorem getLsbD_bitOr (type : PermType) (rows : List (PermRow size)) (bit : Nat) :
    (bitOr type rows).getLsbD bit = true ↔ ∃ row ∈ rows, row.type = type ∧ row.permValue.getLsbD bit = true := by
  induction rows with
  | nil => simp [bitOr]
  | cons row rest ih =>
    rw [bitOr, foldr_cons, ← bitOr, BitVec.getLsbD_or, Bool.or_eq_true, ih]
    split_ifs with isType <;> simp [isType]

section Rows

variable (perms : List (PermRow size)) (accessToken : List String) (path : GnsPath size) (type : PermType) (bit : Nat)

/-- An accessor of the token has a row on a path that allows or denies a permission. -/
def Mentions : Prop :=
  ∃ row ∈ perms, row.docId = path ∧ row.accessorId ∈ accessToken ∧ row.type = type ∧ row.permValue.getLsbD bit = true

instance : Decidable (Mentions perms accessToken path type bit) := inferInstanceAs (Decidable (∃ row ∈ perms, _))

/-- A path does not inherit. -/
def disabled : Bool := perms.any fun row => row.docId = path ∧ row.type = .disableInherit

/-- The levels that are looked at: up to the first that does not inherit. -/
def reached (docId : GnsPath size) (k : Nat) : Bool :=
  (depthsDown docId.length).all fun j => j ≤ k || !disabled perms (docId.take j)

variable {perms} in
theorem reached_iff :
    reached perms docId k = true ↔ ∀ j, 1 ≤ j → k < j → j ≤ docId.length → disabled perms (docId.take j) = false := by
  rw [reached, all_eq_true]
  constructor
  · intro all j positive above upTo
    have := all j (mem_depthsDown.mpr ⟨positive, upTo⟩)
    simpa [not_le.mpr above] using this
  · intro none j isDepth
    obtain ⟨positive, upTo⟩ := mem_depthsDown.mp isDepth
    by_cases small : j ≤ k
    · simp [small]
    · simp [none j positive (by omega) upTo]

/-- What the rows of the token on a path come to. -/
def rowsLevel : Level :=
  let rows := perms.filter fun row => row.docId = path ∧ row.accessorId ∈ accessToken
  ⟨bitOr .deny rows, bitOr .allow rows⟩

theorem rowsLevel_bits :
    ((rowsLevel perms accessToken path).denyValue.getLsbD bit = true ↔ Mentions perms accessToken path .deny bit) ∧
    ((rowsLevel perms accessToken path).allowValue.getLsbD bit = true ↔
      Mentions perms accessToken path .allow bit) := by
  simp [rowsLevel, getLsbD_bitOr, Mentions, and_assoc]

variable {info : DbPermConfig size} {rows : List (PermRow size)}

private theorem mem_groupByAccessor : info ∈ groupByAccessor rows ↔ ∃ row ∈ rows,
      let group := rows.filter fun other => other.docId = row.docId ∧ other.accessorId = row.accessorId
      info = ⟨row.docId, row.accessorId, bitOr .deny group, bitOr .allow group, disablesInherit group⟩ := by
  simp only [groupByAccessor, mem_map, mem_dedup]
  constructor
  · rintro ⟨_, ⟨row, mem, rfl⟩, rfl⟩
    exact ⟨row, mem, rfl⟩
  · rintro ⟨row, mem, rfl⟩
    exact ⟨_, ⟨row, mem, rfl⟩, rfl⟩

/-- Rows that stop inheriting are not those of an accessor. -/
def DisableApart : Prop := ∀ row ∈ perms, row.type = .disableInherit → row.accessorId ∉ accessToken

instance : Decidable (DisableApart perms accessToken) := inferInstanceAs (Decidable (∀ row ∈ perms, _))

end Rows

variable {row : PermRow size}

section Configs

variable {perms : List (PermRow size)} {accessToken : List String} {docId : GnsPath size}
  (order : OrderBy (@deepestFirst size))

private theorem mem_rowsFor (nonempty : getPathDepth docId ≠ 0) :
    row ∈ rowsFor perms accessToken docId true false ↔
    row ∈ perms ∧ (row.type = .disableInherit ∨ row.accessorId ∈ accessToken) ∧
      ∃ k, 1 ≤ k ∧ k ≤ docId.length ∧ row.docId = docId.take k := by
  rw [rowsFor, mem_filter, Bool.and_eq_true, decide_eq_true_eq, mem_docIds nonempty]
  simp [selected]

private theorem depth_take (upTo : k ≤ docId.length) : getPathDepth (docId.take k) = k := by
  rw [getPathDepth, length_take, Nat.min_eq_left upTo]

private theorem text_lt_iff {j : Nat} (positive : 1 ≤ j) (upTo : j ≤ docId.length) (positive' : 1 ≤ k)
    (upTo' : k ≤ docId.length) :
    (GnsPath.text (docId.take j)).length < (GnsPath.text (docId.take k)).length ↔ j < k := by
  rw [length_text_lt_iff (take_ne_nil positive upTo) (take_ne_nil positive' upTo'), length_take, length_take,
    Nat.min_eq_left upTo, Nat.min_eq_left upTo']

/-- What the loop over the configurations sees: groups that inherit, with none above them that does not. -/
theorem mem_getPermConfigs (nonempty : getPathDepth docId ≠ 0) (some : accessToken ≠ []) :
    info ∈ getPermConfigsByAccessToken order perms docId accessToken true false ↔
      info ∈ groupByAccessor (rowsFor perms accessToken docId true false) ∧ info.disableInherit = false ∧
        ∀ other ∈ groupByAccessor (rowsFor perms accessToken docId true false), other.disableInherit = true →
          ¬ other.docId.text.length > info.docId.text.length := by
  rw [getPermConfigsByAccessToken, if_neg (by simp [nonempty, some])]
  rw [@mem_takeWhile_of_sorted _ deepestFirst (fun other info =>
    other.docId.text.length > info.docId.text.length) _ ?_ ?_ _
    (order.sorted _)]
  · simp
  · rintro x y (longer | ⟨-, last⟩) dropped kept
    · exact longer
    · have := last (by simpa using dropped)
      simp [this] at kept
  · rintro x y (longer | ⟨same, -⟩) before
    · omega
    · omega

private theorem disablesInherit_iff : disablesInherit rows = true ↔ ∃ row ∈ rows, row.type = .disableInherit := by
  simp [disablesInherit]

theorem disabled_iff : disabled perms path = true ↔ ∃ row ∈ perms, row.docId = path ∧ row.type = .disableInherit := by
  simp [disabled]

section Filled

variable (nonempty : getPathDepth docId ≠ 0) (some : accessToken ≠ [])

include nonempty some

/-- The configurations of a level say what its rows do, if the level is looked at at all. -/
theorem exists_config_iff (apart : DisableApart perms accessToken) {type : PermType} (rightful : type ≠ .disableInherit)
    {value : DbPermConfig size → PermValue} (isValue : ∀ docId accessorId (group : List (PermRow size)),
      value ⟨docId, accessorId, bitOr .deny group, bitOr .allow group, disablesInherit group⟩ = bitOr type group)
    {k : Nat} (positive : 1 ≤ k) (upTo : k ≤ docId.length) (bit : Nat) :
    (∃ info ∈ getPermConfigsByAccessToken order perms docId accessToken true false,
      getPathDepth info.docId = k ∧ (value info).getLsbD bit = true) ↔
      reached perms docId k = true ∧ Mentions perms accessToken (docId.take k) type bit := by
  simp only [mem_getPermConfigs order nonempty some]
  constructor
  · rintro ⟨info, ⟨isGroup, -, last⟩, depth, set⟩
    obtain ⟨first, isFirst, rfl⟩ := mem_groupByAccessor.mp isGroup
    rw [isValue, getLsbD_bitOr] at set
    obtain ⟨row, inGroup, isType, set⟩ := set
    obtain ⟨isRow, sameGroup⟩ := mem_filter.mp inGroup
    obtain ⟨sameDoc, -⟩ := of_decide_eq_true sameGroup
    obtain ⟨stored, chosen, level, positiveLevel, upToLevel, isLevel⟩ := (mem_rowsFor nonempty).mp isRow
    have here : level = k := by
      rw [← depth, ← sameDoc, isLevel, depth_take upToLevel]
    subst here
    refine ⟨reached_iff.mpr fun j positiveJ above upToJ =>
      ?_, row, stored, isLevel, chosen.resolve_left (isType ▸ rightful), isType, set⟩
    by_contra stops
    obtain ⟨other, isOther, otherDoc, disables⟩ := disabled_iff.mp ((Bool.not_eq_false _).mp stops)
    have otherRow : other ∈ rowsFor perms accessToken docId true false :=
      (mem_rowsFor nonempty).mpr ⟨isOther, .inl disables, j, positiveJ, upToJ, otherDoc⟩
    refine last _ (mem_groupByAccessor.mpr ⟨other, otherRow, rfl⟩) ?_ ?_
    · exact disablesInherit_iff.mpr ⟨other, mem_filter.mpr ⟨otherRow, by simp⟩, disables⟩
    · rw [otherDoc, ← sameDoc, isLevel]
      exact (text_lt_iff positive upTo positiveJ upToJ).mpr above
  · rintro ⟨isReached, row, stored, isLevel, inToken, isType, set⟩
    have isRow : row ∈ rowsFor perms accessToken docId true false :=
      (mem_rowsFor nonempty).mpr ⟨stored, .inr inToken, k, positive, upTo, isLevel⟩
    refine ⟨_, ⟨mem_groupByAccessor.mpr ⟨row, isRow, rfl⟩, ?_, fun other isOther disables => ?_⟩, ?_, ?_⟩
    · rw [← Bool.not_eq_true, disablesInherit_iff]
      rintro ⟨other, inGroup, disables⟩
      obtain ⟨isOther, sameGroup⟩ := mem_filter.mp inGroup
      refine apart other ((mem_rowsFor nonempty).mp isOther).1 disables ?_
      rw [(of_decide_eq_true sameGroup).2]
      exact inToken
    · obtain ⟨first, isFirst, rfl⟩ := mem_groupByAccessor.mp isOther
      obtain ⟨disabling, inGroup, isDisabling⟩ := disablesInherit_iff.mp disables
      obtain ⟨disablingRow, sameGroup⟩ := mem_filter.mp inGroup
      obtain ⟨disablingStored, -, j, positiveJ, upToJ, isJ⟩ := (mem_rowsFor nonempty).mp disablingRow
      change ¬ row.docId.text.length < first.docId.text.length
      rw [← (of_decide_eq_true sameGroup).1, isJ, isLevel, text_lt_iff positive upTo positiveJ upToJ]
      intro above
      have stops := reached_iff.mp isReached j positiveJ above upToJ
      rw [disabled_iff.mpr ⟨disabling, disablingStored, isJ, isDisabling⟩] at stops
      cases stops
    · rw [isLevel, depth_take upTo]
    · rw [isValue, getLsbD_bitOr]
      exact ⟨row, mem_filter.mpr ⟨isRow, by simp⟩, isType, set⟩

/-- What a level says of a permission, if it is looked at. -/
def wordAt (perms : List (PermRow size)) (accessToken : List String) (docId : GnsPath size) (k : Nat) (bit : Nat) :
    Option Bool :=
  if reached perms docId k then (rowsLevel perms accessToken (docId.take k)).speaks bit else none

private theorem speaks_levelAt (apart : DisableApart perms accessToken) (positive : 1 ≤ k)
    (upTo : k ≤ docId.length) (bit : Nat) :
    (levelAt (getPermConfigsByAccessToken order perms docId accessToken true false) k).speaks bit =
      wordAt perms accessToken docId k bit := by
  have isWord := @exists_config_iff size perms accessToken docId order nonempty some apart
  generalize getPermConfigsByAccessToken order perms docId accessToken true false = configs at isWord ⊢
  have inLevel (value : DbPermConfig size → PermValue) :
      (∃ info ∈ configs.filter (fun info => getPathDepth info.docId = k), (value info).getLsbD bit = true) ↔
      ∃ info ∈ configs, getPathDepth info.docId = k ∧ (value info).getLsbD bit = true := by
    simp [and_assoc]
  obtain ⟨deny, allow⟩ := getLsbD_foldl_add (configs.filter fun info => getPathDepth info.docId = k) ⟨0, 0⟩ bit
  rw [inLevel (·.denyValue), @isWord .deny (by decide) (·.denyValue) (fun _ _ _ => rfl) k positive upTo bit] at deny
  rw [inLevel (·.allowValue), @isWord .allow (by decide) (·.allowValue) (fun _ _ _ => rfl) k positive upTo bit] at allow
  obtain ⟨denyRows, allowRows⟩ := rowsLevel_bits perms accessToken (docId.take k) bit
  rw [← levelAt, or_iff_right (by simp)] at deny allow
  rw [wordAt]
  split_ifs with isReached
  · refine speaks_congr ?_ ?_
    · rw [Bool.eq_iff_iff, denyRows, deny, and_iff_right isReached]
    · rw [Bool.eq_iff_iff, allowRows, allow, and_iff_right isReached]
  · have denyNone : (levelAt configs k).denyValue.getLsbD bit = false := by
      rw [← Bool.not_eq_true, deny]
      exact fun both => isReached both.1
    have allowNone : (levelAt configs k).allowValue.getLsbD bit = false := by
      rw [← Bool.not_eq_true, allow]
      exact fun both => isReached both.1
    rw [Level.speaks, denyNone, allowNone]
    rfl

private theorem depth_of_mem_configs : ∀ info ∈ getPermConfigsByAccessToken order perms docId accessToken true false,
    1 ≤ getPathDepth info.docId ∧ getPathDepth info.docId ≤ docId.length := by
  intro info mem
  obtain ⟨row, isRow, rfl⟩ := mem_groupByAccessor.mp ((mem_getPermConfigs order nonempty some).mp mem).1
  obtain ⟨k, positive, upTo, isLevel⟩ := ((mem_rowsFor nonempty).mp isRow).2.2
  rw [isLevel, depth_take upTo]
  exact ⟨positive, upTo⟩

private theorem depthSorted_configs :
    DepthSorted (getPermConfigsByAccessToken order perms docId accessToken true false) := by
  have within := @depth_of_mem_configs size perms accessToken docId order nonempty some
  have sorted : (getPermConfigsByAccessToken order perms docId accessToken true false).Pairwise deepestFirst := by
    rw [getPermConfigsByAccessToken, if_neg (by simp [nonempty, some])]
    exact (order.sorted _).sublist (takeWhile_sublist _)
  refine sorted.imp_of_mem fun {first second} isFirst isSecond before => ?_
  have positive (info : DbPermConfig size) (bounds : 1 ≤ getPathDepth info.docId) : info.docId ≠ [] :=
    ne_nil_of_length_pos bounds
  have notLonger : ¬ first.docId.text.length < second.docId.text.length := by
    rcases before with longer | ⟨same, -⟩ <;> omega
  rw [length_text_lt_iff (positive _ (within _ isFirst).1) (positive _ (within _ isSecond).1)] at notLonger
  exact not_lt.mp notLonger

end Filled

private theorem wordAt_nil (k bit : Nat) : wordAt perms [] docId k bit = none := by
  simp [wordAt, rowsLevel, bitOr, Level.speaks]

/-- The configurations settle what the levels say. -/
theorem nearest_configs (apart : DisableApart perms accessToken) (bit : Nat) :
    nearest Level.speaks (levelsOf ⟨0, 0⟩ 0 (getPermConfigsByAccessToken order perms docId accessToken true false))
      bit = nearest (wordAt perms accessToken docId) (depthsDown docId.length) bit := by
  by_cases empty : accessToken = [] ∨ getPathDepth docId = 0
  · have nothing : nearest (wordAt perms accessToken docId) (depthsDown docId.length) bit = none := by
      rcases empty with rfl | none
      · exact nearest_eq_none_iff.mpr fun k _ => wordAt_nil k bit
      · rw [show docId.length = 0 from none]
        rfl
    rw [getPermConfigsByAccessToken, if_pos empty.symm, nothing, levelsOf, nearest_cons, speaks_zero]
    rfl
  · obtain ⟨some, nonempty⟩ := not_or.mp empty
    rw [nearest_levelsOf_zero (depthSorted_configs order nonempty some) (depth_of_mem_configs order nonempty some)]
    refine nearest_congr fun k isDepth => ?_
    obtain ⟨positive, upTo⟩ := mem_depthsDown.mp isDepth
    exact speaks_levelAt order nonempty some apart positive upTo bit

end Configs

section Documents

variable {perms : List (PermRow size)} {accessToken : List String} (order : OrderBy (@shallowFirst size))

/-- What the query for the documents below returns for one of them. -/
def docPerm (perms : List (PermRow size)) (accessToken : List String) (path : GnsPath size) : DbAccessPerm size :=
  let level := rowsLevel perms accessToken path
  ⟨path, level.denyValue, level.allowValue &&& ~~~level.denyValue, !disabled perms path⟩

private theorem selected_iff :
    selected false accessToken row = true ↔ row.type = .disableInherit ∨ row.accessorId ∈ accessToken := by
  simp [selected]

private theorem bitOr_group {keep : GnsPath size → Bool} {path : GnsPath size}
    (kept : keep path = true) {type : PermType}
    (rightful : type ≠ .disableInherit) :
    bitOr type ((perms.filter fun row => selected false accessToken row && keep row.docId).filter fun row =>
      row.docId = path) = bitOr type (perms.filter fun row => row.docId = path ∧ row.accessorId ∈ accessToken) := by
  refine BitVec.eq_of_getLsbD_eq fun bit _ => ?_
  rw [Bool.eq_iff_iff, getLsbD_bitOr, getLsbD_bitOr]
  refine exists_congr fun row => ?_
  simp only [mem_filter, Bool.and_eq_true, selected_iff, decide_eq_true_eq]
  constructor
  · rintro ⟨⟨⟨stored, chosen, -⟩, isPath⟩, rfl, set⟩
    exact ⟨⟨stored, isPath, chosen.resolve_left rightful⟩, rfl, set⟩
  · rintro ⟨⟨stored, rfl, inToken⟩, isType, set⟩
    exact ⟨⟨⟨stored, .inr inToken, kept⟩, rfl⟩, isType, set⟩

private theorem disablesInherit_group {keep : GnsPath size → Bool} {path : GnsPath size} (kept : keep path = true) :
    disablesInherit ((perms.filter fun row => selected false accessToken row && keep row.docId).filter fun row =>
      row.docId = path) = disabled perms path := by
  rw [Bool.eq_iff_iff, disablesInherit_iff, disabled_iff]
  refine exists_congr fun row => ?_
  simp only [mem_filter, Bool.and_eq_true, selected_iff, decide_eq_true_eq]
  constructor
  · rintro ⟨⟨⟨stored, -⟩, isPath⟩, disables⟩
    exact ⟨stored, isPath, disables⟩
  · rintro ⟨stored, rfl, disables⟩
    exact ⟨⟨⟨stored, .inl disables, kept⟩, rfl⟩, disables⟩

/-- What the query for the documents below returns. -/
theorem mem_getAccessPermsOfSubObjs (some : accessToken ≠ []) {perm : DbAccessPerm size} :
    perm ∈ getAccessPermsOfSubObjs order perms docId accessToken false ↔
      ∃ row ∈ perms, (row.type = .disableInherit ∨ row.accessorId ∈ accessToken) ∧
        (getPathDepth docId = 0 ∨ below docId row.docId = true) ∧ perm = docPerm perms accessToken row.docId := by
  have sameGroup (path : GnsPath size) (kept : (decide (getPathDepth docId = 0) || below docId path) = true) :
      (let group := (perms.filter fun row => selected false accessToken row &&
      (decide (getPathDepth docId = 0) || below docId row.docId)).filter
        fun row => row.docId = path
      (⟨path, bitOr .deny group, bitOr .allow group &&& ~~~bitOr .deny group,
        !disablesInherit group⟩ : DbAccessPerm size)) =
        docPerm perms accessToken path := by
    have values := @bitOr_group size perms accessToken (fun path => decide (getPathDepth docId = 0) ||
      below docId path) path kept
    have deny := @values .deny (by decide)
    have allow := @values .allow (by decide)
    have inherit := @disablesInherit_group size perms accessToken (fun path =>
      decide (getPathDepth docId = 0) || below docId path)
      path kept
    simp only [deny, allow, inherit]
    rfl
  rw [getAccessPermsOfSubObjs, if_neg some, order.mem_list]
  simp only [groupByDoc, mem_map, mem_dedup]
  constructor
  · rintro ⟨_, ⟨row, mem, rfl⟩, rfl⟩
    obtain ⟨stored, both⟩ := mem_filter.mp mem
    obtain ⟨chosen, kept⟩ := Bool.and_eq_true_iff.mp both
    refine ⟨row, stored, selected_iff.mp chosen, by simpa using kept, sameGroup _ kept⟩
  · rintro ⟨row, stored, chosen, inside, rfl⟩
    have kept : (decide (getPathDepth docId = 0) || below docId row.docId) = true := by simpa using inside
    exact ⟨row.docId, ⟨row, mem_filter.mpr ⟨stored, Bool.and_eq_true_iff.mpr ⟨selected_iff.mpr chosen, kept⟩⟩, rfl⟩,
      sameGroup _ kept⟩

end Documents

/-! # Permissions by the nearest level

The rule that the queries and the loops are meant to follow. A level allows a permission if a row of the token allows it
and none denies it. The nearest level that has a row for the permission decides, and no level is looked at above one
that does not inherit.
-/

variable {docId other : GnsPath size}

section Levels

variable (perms : List (PermRow size)) (accessToken : List String) (path : GnsPath size) (bit : Nat)

/-- The rows on a path allow a permission and do not deny it. -/
def OwnAllows : Prop :=
  Mentions perms accessToken path .allow bit ∧ ¬ Mentions perms accessToken path .deny bit

instance : Decidable (OwnAllows perms accessToken path bit) := inferInstanceAs (Decidable (_ ∧ _))

/-- A level on the way to a document is the one that allows a permission. -/
structure AllowedAt (docId : GnsPath size) (bit k : Nat) : Prop where
  positive : 1 ≤ k
  upTo : k ≤ docId.length
  allows : OwnAllows perms accessToken (docId.take k) bit
  nearest : ∀ j, k < j → j ≤ docId.length →
    ¬ Mentions perms accessToken (docId.take j) .allow bit ∧ ¬ Mentions perms accessToken (docId.take j) .deny bit
  inherits : ∀ j, k < j → j ≤ docId.length → disabled perms (docId.take j) = false

/-- The user owns the document or one above it. -/
def Owns (owners : List (OwnerRow size)) (userId : String) (docId : GnsPath size) : Prop :=
  ∃ row ∈ owners, row.ownerId = userId ∧ ∃ k, 1 ≤ k ∧ k ≤ docId.length ∧ row.gnsPath = docId.take k

theorem isOwner_iff {owners : List (OwnerRow size)} {userId : String} :
    isOwner owners docId userId = true ↔ Owns owners userId docId := by
  rw [isOwner, any_eq_true]
  refine exists_congr fun row => and_congr_right fun _ => ?_
  rw [decide_eq_true_iff, mem_map]
  refine and_congr_right fun _ => exists_congr fun k => ?_
  rw [mem_range'_1, and_assoc, Nat.lt_one_add_iff]
  exact and_congr_right fun _ => and_congr_right fun _ => eq_comm

variable {perms accessToken path bit}

private theorem speaks_rowsLevel_eq_some_true :
    (rowsLevel perms accessToken path).speaks bit = some true ↔ OwnAllows perms accessToken path bit := by
  obtain ⟨deny, allow⟩ := rowsLevel_bits perms accessToken path bit
  rw [OwnAllows, ← deny, ← allow, Level.speaks]
  cases (rowsLevel perms accessToken path).denyValue.getLsbD bit <;>
    cases (rowsLevel perms accessToken path).allowValue.getLsbD bit <;> simp

private theorem speaks_rowsLevel_eq_none : (rowsLevel perms accessToken path).speaks bit = none ↔
    ¬ Mentions perms accessToken path .allow bit ∧ ¬ Mentions perms accessToken path .deny bit := by
  obtain ⟨deny, allow⟩ := rowsLevel_bits perms accessToken path bit
  rw [← deny, ← allow, Level.speaks]
  cases (rowsLevel perms accessToken path).denyValue.getLsbD bit <;>
    cases (rowsLevel perms accessToken path).allowValue.getLsbD bit <;> simp

/-- The levels allow a permission if one of them is the one that does. -/
theorem nearest_wordAt_iff :
    nearest (wordAt perms accessToken docId) (depthsDown docId.length) bit = some true ↔
    ∃ k, AllowedAt perms accessToken docId bit k := by
  rw [nearest_depthsDown_eq_some_iff]
  refine exists_congr fun k => ?_
  constructor
  · rintro ⟨positive, upTo, spoken, silent⟩
    rw [wordAt] at spoken
    split_ifs at spoken with isReached
    have inherits := reached_iff.mp isReached
    refine ⟨positive, upTo, speaks_rowsLevel_eq_some_true.mp spoken, fun j above within => ?_,
      fun j above within => inherits j (by omega) above within⟩
    have none := silent j above within
    rwa [wordAt, if_pos (reached_iff.mpr fun i positiveI aboveJ => inherits i positiveI (by omega)),
      speaks_rowsLevel_eq_none] at none
  · rintro ⟨positive, upTo, allows, silent, inherits⟩
    refine ⟨positive, upTo, ?_, fun j above within => ?_⟩
    · rw [wordAt, if_pos (reached_iff.mpr fun j _ above within => inherits j above within)]
      exact speaks_rowsLevel_eq_some_true.mpr allows
    · rw [wordAt, if_pos (reached_iff.mpr fun i _ aboveJ withinI => inherits i (by omega) withinI)]
      exact speaks_rowsLevel_eq_none.mpr (silent j above within)

theorem AllowedAt.of_ownAllows (real : docId ≠ []) (allows : OwnAllows perms accessToken docId bit) :
    AllowedAt perms accessToken docId bit docId.length :=
  ⟨length_pos_iff.mpr real, le_refl _, by rwa [take_length], fun j above within => by omega,
    fun j above within => by omega⟩

end Levels

theorem below_iff : below docId other = true ↔ docId <+: other ∧ docId.length < other.length := by
  rw [below, Bool.and_eq_true, isPrefixOf_iff_prefix, decide_eq_true_eq]

theorem ne_nil_of_below (inside : below docId other = true) : other ≠ [] := by
  rintro rfl
  exact absurd (below_iff.mp inside).2 (Nat.not_lt_zero _)

theorem take_of_below (inside : below docId other = true) {k : Nat} (upTo : k ≤ docId.length) :
    other.take k = docId.take k := by
  obtain ⟨⟨rest, rfl⟩, -⟩ := below_iff.mp inside
  exact take_append_of_le_length upTo

theorem below_take (inside : below docId other = true) {k : Nat} (deeper : docId.length < k) (upTo : k ≤ other.length) :
    below docId (other.take k) = true := by
  obtain ⟨isPrefix, -⟩ := below_iff.mp inside
  refine below_iff.mpr ⟨prefix_take_iff.mpr ⟨isPrefix, le_of_lt deeper⟩, ?_⟩
  rw [length_take, Nat.min_eq_left upTo]
  exact deeper

theorem AllowedAt.of_below {perms : List (PermRow size)} {accessToken : List String} {bit k : Nat}
    (inside : below docId other = true)
    (allowed : AllowedAt perms accessToken other bit k) (upTo : k ≤ docId.length) :
    AllowedAt perms accessToken docId bit k := by
  obtain ⟨-, shorter⟩ := below_iff.mp inside
  refine ⟨allowed.positive, upTo, ?_, fun j above within => ?_, fun j above within => ?_⟩
  · rw [← take_of_below inside upTo]
    exact allowed.allows
  · rw [← take_of_below inside within]
    exact allowed.nearest j above (by omega)
  · rw [← take_of_below inside within]
    exact allowed.inherits j above (by omega)

end SecurityFabric.ShareServer
