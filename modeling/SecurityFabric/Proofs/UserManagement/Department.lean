import SecurityFabric.ToMathlib.BatchRead
import SecurityFabric.Proofs.UserManagement.DepartmentForest
import Mathlib.Data.List.Dedup

/-! # What is in a slice after the helpers

Removing duplicates keeps what is in a slice, and leaves a slice in strict order as it is. The batches of a
slice together are the slice.
-/

namespace SecurityFabric.UserManagement

section

open List

@[simp] theorem mem_removeAdjacent (s : List String) (v : String) : v ∈ removeAdjacent s ↔ v ∈ s := by
  induction s using removeAdjacent.induct with
  | case1 | case2 x => rfl
  | case3 x rest ih => simp [removeAdjacent, ih]
  | case4 x y rest different ih => simp [removeAdjacent, different, ih]

@[simp] theorem mem_removeDuplicatStrs (s : List String) (v : String) : v ∈ removeDuplicatStrs s ↔ v ∈ s := by
  rw [removeDuplicatStrs, mem_removeAdjacent, mem_mergeSort]

@[simp] theorem removeDuplicatStrs_nil : removeDuplicatStrs [] = [] := by
  rw [removeDuplicatStrs, mergeSort_nil, removeAdjacent]

private theorem removeAdjacent_of_pairwise {s : List String} (distinct : s.Pairwise (· ≠ ·)) :
    removeAdjacent s = s := by
  induction s using removeAdjacent.induct with
  | case1 | case2 x => rfl
  | case3 x rest ih => exact absurd rfl (rel_of_pairwise_cons distinct mem_cons_self)
  | case4 x y rest different ih => rw [removeAdjacent, if_neg different, ih distinct.of_cons]

theorem removeDuplicatStrs_of_sorted {s : List String} (sorted : s.Pairwise (· < ·)) : removeDuplicatStrs s = s := by
  have inOrder : s.Pairwise fun a b => decide (a ≤ b) = true := sorted.imp fun less => decide_eq_true (le_of_lt less)
  rw [removeDuplicatStrs, mergeSort_of_pairwise inOrder]
  exact removeAdjacent_of_pairwise (sorted.imp fun less => ne_of_lt less)

theorem flatten_splitArray (arr : List String) : (splitArray arr).flatten = arr := by
  rw [splitArray]
  generalize isCount : arr.length / 500 + (if arr.length % 500 ≠ 0 then 1 else 0) = count
  cases count with
  | zero =>
    have empty : arr.length = 0 := by
      split at isCount <;> omega
    simp [length_eq_zero_iff.mp empty]
  | succ count =>
    rw [range_succ, map_append, flatten_append, map_congr_left (g := fun i => page arr (i * 500) 500),
      ← flatMap_def, flatMap_page]
    · simp
    · intro i below
      rw [Nat.add_sub_cancel, if_pos (ne_of_lt (mem_range.mp below)), page, drop_take, Nat.succ_mul,
        Nat.add_sub_cancel_left]

theorem mem_batches {ρ : Type} (table : List ρ) (key : ρ → String) (ids : List String) (row : ρ) :
    (row ∈ (splitArray ids).flatMap fun batch => table.filter fun row => key row ∈ batch) ↔
    row ∈ table ∧ key row ∈ ids := by
  simp only [mem_flatMap, mem_filter, decide_eq_true_eq]
  constructor
  · rintro ⟨batch, isBatch, found, asked⟩
    rw [← flatten_splitArray ids]
    exact ⟨found, mem_flatten.mpr ⟨batch, isBatch, asked⟩⟩
  · rintro ⟨found, asked⟩
    rw [← flatten_splitArray ids] at asked
    obtain ⟨batch, isBatch, inBatch⟩ := mem_flatten.mp asked
    exact ⟨batch, isBatch, found, inBatch⟩

@[simp] theorem mem_intersection (a b : List String) (v : String) : v ∈ intersection a b ↔ v ∈ a ∧ v ∈ b := by
  rw [intersection, mem_filter, decide_eq_true_iff]

/-! # What a deletion reads and writes

What the queries and the transaction of `DeleteDepart` select, first by the paths of the rows alone and then, over rows
of users that agree with a forest of departments, by the subtree. The steps that read are listed with what they find.
-/

open GoMap

variable (org : Organisation)

section

variable (departIDs : List String) (userDeparts : List UserDepartment) (userID : String)

/-- The row of an unassigned user. -/
def unassigned : UserDepartment := ⟨userID, unDistribute, unDistribute⟩

/-- The user has a row. -/
def HasRow : Prop := ∃ row ∈ userDeparts, row.userID = userID

instance : Decidable (HasRow userDeparts userID) :=
  inferInstanceAs (Decidable (∃ row ∈ userDeparts, row.userID = userID))

/-- Every row of the user is of one of the departments. -/
def AllRowsIn : Prop :=
  ∀ row ∈ userDeparts, row.userID = userID → row.departmentID ∈ departIDs

end

namespace Organisation

variable {depart : DepartmentDBInfo}

theorem getAllSubDepartInfosByPath_eq {org : Organisation} (forest : DepartmentForest org.departments)
    (mem : depart ∈ org.departments) : org.getAllSubDepartInfosByPath depart.path = subtree org.departments depart := by
  refine filter_congr fun info existing => ?_
  rw [Bool.eq_iff_iff, decide_eq_true_iff]
  exact pathLike_iff (forest.pathOfIDs depart mem) (forest.pathOfIDs info existing)

theorem mem_getDepartmentInfo (deptIDs : List String) (info : DepartmentDBInfo) :
    info ∈ org.getDepartmentInfo deptIDs ↔ info ∈ org.departments ∧ info.id ∈ deptIDs := by
  rw [getDepartmentInfo, mem_filter, decide_eq_true_iff]

theorem mem_getOrgManagerDepartInfo {userID : String} (named : userID ≠ "") (id : String) :
    id ∈ org.getOrgManagerDepartInfo userID ↔ ⟨userID, id⟩ ∈ org.responsiblePersons := by
  rw [getOrgManagerDepartInfo, if_neg named, mem_map]
  constructor
  · rintro ⟨row, isOwn, rfl⟩
    obtain ⟨found, own⟩ := mem_filter.mp isOwn
    rwa [← of_decide_eq_true own]
  · intro assigned
    exact ⟨_, mem_filter.mpr ⟨assigned, decide_eq_true rfl⟩, rfl⟩

section

variable (path : String) (ids : List String) (other : String → Bool) (userID : String)

theorem lookup_getUsersPath (paths : List String) : (org.getUsersPath ids).lookup userID = some paths ↔
      userID ∈ ids ∧ HasRow org.userDeparts userID ∧ paths =
        (org.userDeparts.filter fun row => row.userID = userID).map (·.path) := by
  rw [getUsersPath, lookup_concat, filter_filter]
  generalize isRows : org.userDeparts.filter _ = rows
  by_cases asked : userID ∈ ids
  · obtain rfl : rows = org.userDeparts.filter fun row => row.userID = userID :=
      isRows.symm.trans (filter_congr fun row _ => by by_cases own : row.userID = userID <;> simp [own, asked])
    split_ifs with empty
    · have none : ¬ HasRow org.userDeparts userID := by simpa [HasRow] using empty
      simp [none]
    · have found : HasRow org.userDeparts userID := by simpa [HasRow] using empty
      simp [asked, found, map_eq_flatMap, eq_comm]
  · obtain rfl : rows = [] :=
      isRows.symm.trans (filter_eq_nil_iff.mpr fun row _ => by by_cases own : row.userID = userID <;> simp [own, asked])
    rw [if_pos rfl]
    simp [asked]

theorem getD_lookup_getUsersPath {ids : List String} {userID : String} (asked : userID ∈ ids) :
    ((org.getUsersPath ids).lookup userID).getD [] = (org.userDeparts.filter fun row =>
      row.userID = userID).map (·.path) := by
  cases found : (org.getUsersPath ids).lookup userID with
  | some paths => exact ((org.lookup_getUsersPath ids userID paths).mp found).2.2
  | none =>
    have none : ¬ HasRow org.userDeparts userID := fun has => by
      rw [(org.lookup_getUsersPath ids userID _).mpr ⟨asked, has, rfl⟩] at found
      cases found
    have empty : (org.userDeparts.filter fun row => row.userID = userID) = [] :=
      filter_eq_nil_iff.mpr fun row mem own => none ⟨row, mem, of_decide_eq_true own⟩
    rw [empty]
    rfl

private theorem mem_filter_getUsersPath :
    userID ∈ ((org.getUsersPath ids).entries.filter fun entry => !entry.2.any other).map (·.1) ↔
      userID ∈ ids ∧ HasRow org.userDeparts userID ∧ ∀ row ∈ org.userDeparts, row.userID = userID →
      other row.path = false := by
  have passes : (!((org.userDeparts.filter fun row => row.userID = userID).map (·.path)).any other) = true ↔
      ∀ row ∈ org.userDeparts, row.userID = userID → other row.path = false := by
    simp
  rw [← passes]
  refine (mem_filter_entries _ (!List.any · other) userID).trans ?_
  constructor
  · rintro ⟨paths, found, passes⟩
    obtain ⟨asked, has, rfl⟩ := (org.lookup_getUsersPath ids userID paths).mp found
    exact ⟨asked, has, passes⟩
  · rintro ⟨asked, has, passes⟩
    exact ⟨_, (org.lookup_getUsersPath ids userID _).mpr ⟨asked, has, rfl⟩, passes⟩

theorem mem_getAllSubUserIDsByDepartPath (path userID : String) :
    userID ∈ org.getAllSubUserIDsByDepartPath path ↔ ∃ row ∈ org.userDeparts, row.userID = userID ∧
    pathLike path row.path = true := by
  simp only [getAllSubUserIDsByDepartPath, mem_map, mem_filter]
  exact ⟨fun ⟨row, ⟨found, below⟩, own⟩ => ⟨row, found, own, below⟩, fun ⟨row, found, own, below⟩ =>
    ⟨row, ⟨found, below⟩, own⟩⟩

theorem mem_listed_iff (forest : DepartmentForest org.departments) (rows : RowsMatch org.departments org.userDeparts)
    (mem : depart ∈ org.departments) (userID : String) : userID ∈ org.getAllSubUserIDsByDepartPath depart.path ↔
      ∃ row ∈ org.userDeparts, row.userID = userID ∧ row.departmentID ∈ subtreeIDs org.departments depart := by
  rw [org.mem_getAllSubUserIDsByDepartPath]
  refine exists_congr fun row => and_congr_right fun found => and_congr_right fun _ => ?_
  exact forest.row_pathLike_iff rows mem found

theorem mem_needAddToUnDistributeIDs :
    userID ∈ needAddToUnDistributeIDs path (org.getUsersPath ids) ↔ userID ∈ ids ∧ HasRow org.userDeparts userID ∧
        ∀ row ∈ org.userDeparts, row.userID = userID → GoStrings.contains row.path path = true := by
  refine (org.mem_filter_getUsersPath ids (fun v => !GoStrings.contains v path) userID).trans ?_
  simp

/-- The users who lose their organisation have no other path under the same root. -/
theorem mem_needDeleteOUIDs : userID ∈ needDeleteOUIDs path (org.getUsersPath ids) ↔
    userID ∈ ids ∧ HasRow org.userDeparts userID ∧
      ∀ row ∈ org.userDeparts, row.userID = userID → getRootByPath row.path = getRootByPath path →
        GoStrings.contains row.path path = true := by
  refine (org.mem_filter_getUsersPath ids (fun v => !GoStrings.contains v path &&
    getRootByPath v == getRootByPath path) userID).trans ?_
  simp only [Bool.and_eq_false_iff, Bool.not_eq_false', beq_eq_false_iff_ne, or_iff_not_imp_right, not_not]

end

theorem mem_userDeparts_writeDeletion (visitor : Option Visitor) (plan : DeletePlan) (row : UserDepartment) :
    row ∈ (org.writeDeletion visitor plan).userDeparts ↔
    row ∈ org.userDeparts ∧ pathLike plan.depart.path row.path = false ∨
        row.userID ∈ plan.needAddToUnDistributeIDs ∧ row = unassigned row.userID := by
  change row ∈ filter _ _ ++ map unassigned _ ↔ _
  rw [mem_append, mem_filter, mem_map, decide_eq_true_iff, Bool.not_eq_true]
  refine or_congr_right ⟨?_, fun ⟨moved, same⟩ => ⟨row.userID, moved, same.symm⟩⟩
  rintro ⟨userID, moved, rfl⟩
  exact ⟨moved, rfl⟩

end Organisation

section Forest

variable {departments : List DepartmentDBInfo} (forest : DepartmentForest departments) {org : Organisation}
  (rows : RowsMatch departments org.userDeparts) {depart : DepartmentDBInfo} (mem : depart ∈ departments)

include forest rows mem

theorem userDeparts_writeDeletion {plan : DeletePlan} (planned : plan.depart = depart) (visitor : Option Visitor) :
    (org.writeDeletion visitor plan).userDeparts = (org.userDeparts.filter fun row =>
      row.departmentID ∉ subtreeIDs departments depart) ++
        plan.needAddToUnDistributeIDs.map unassigned := by
  subst planned
  refine congrArg (· ++ _) (filter_congr fun row found => ?_)
  simp [forest.row_pathLike_iff rows mem found]

end Forest

theorem findDepart_ok {org : Organisation} {id : String} (found : org.findDepart id = .ok depart) :
    depart ∈ org.departments ∧ depart.id = id := by
  unfold Organisation.findDepart at found
  split at found
  · next only =>
    cases found
    have mem : depart ∈ org.getDepartmentInfo [id] := by rw [only]; exact mem_singleton_self depart
    obtain ⟨existing, same⟩ := mem_filter.mp mem
    exact ⟨existing, by simpa using same⟩
  · cases found

/-- The department of a call that has not looked at the users yet. -/
def DeletePhase.preparing : DeletePhase → Option DepartmentDBInfo
  | .checkingVisitor _ depart | .checkingRange _ depart | .listingUsers depart => some depart
  | _ => none

/-- The steps that leave the tables alone. -/
inductive ReadMove (org : Organisation) : DeletePhase → DeletePhase → Prop
  | fails {phase : DeletePhase} (going : ∀ result, phase ≠ .finished result) (failure : HTTPError) :
      ReadMove org phase (.finished (.error failure))
  | starts {next : DeletePhase} {depart : DepartmentDBInfo} (found : depart ∈ org.departments)
      (prepares : next.preparing = some depart) : ReadMove org .waiting next
  | checks {phase next : DeletePhase} {depart : DepartmentDBInfo} (prepared : phase.preparing = some depart)
      (prepares : next.preparing = some depart) : ReadMove org phase next
  | lists (depart : DepartmentDBInfo) :
      ReadMove org (.listingUsers depart) (.readingPaths depart (org.getAllSubUserIDsByDepartPath depart.path))
  | reads (depart : DepartmentDBInfo) (allUserIDs : List String) :
      ReadMove org (.readingPaths depart allUserIDs) (.listingDeparts depart (org.getUsersPath allUserIDs))
  | plans (depart : DepartmentDBInfo) (allUserPaths : GoMap String (List String)) :
      ReadMove org (.listingDeparts depart allUserPaths) (.writing (org.planDeletion depart allUserPaths))

/-- A step reads, or it is the transaction of a plan. -/
theorem DeleteCall.advance_cases {call : DeleteCall} {choice : DeleteChoice} {org after : Organisation}
    {phase next : DeletePhase}
    (advanced : call.advance choice org phase = some (after, next)) : (after = org ∧ ReadMove org phase next) ∨
      ∃ plan, choice = .proceed ∧ phase = .writing plan ∧ after = org.writeDeletion call.visitor plan ∧
      next = .finished (.ok ()) := by
  have ended {α : Type} {result : Except HTTPError α} {goOn : α → DeletePhase} {phase : DeletePhase}
      (going : ∀ result, phase ≠ .finished result)
      (continues : ∀ value, result = .ok value → ReadMove org phase (goOn value)) :
      ReadMove org phase (.after result goOn) := by
    cases result with
    | error failure => exact .fails going failure
    | ok value => exact continues value rfl
  unfold DeleteCall.advance at advanced
  split at advanced
  · cases advanced
  · next going =>
    cases advanced
    exact .inl ⟨rfl, .fails (fun result finished => going result finished) _⟩
  · cases phase <;> cases advanced
    case waiting.refl =>
      refine .inl ⟨rfl, ended nofun fun depart found => ?_⟩
      obtain ⟨existing, -⟩ := findDepart_ok found
      cases publicVisitor call.visitor with
      | none | some visitor => exact .starts existing rfl
    case checkingVisitor.refl =>
      refine .inl ⟨rfl, ended nofun fun ranged _ => ?_⟩
      cases ranged with
      | true | false => exact .checks rfl rfl
    case checkingRange.refl => exact .inl ⟨rfl, ended nofun fun _ _ => .checks rfl rfl⟩
    case listingUsers.refl => exact .inl ⟨rfl, .lists _⟩
    case readingPaths.refl => exact .inl ⟨rfl, .reads _ _⟩
    case listingDeparts.refl => exact .inl ⟨rfl, .plans _ _⟩
    case writing.refl => exact .inr ⟨_, rfl, rfl, rfl, rfl⟩

end

/-! # What is below the departments of a manager

The loop over levels with a memory ends on every table of parents. In a forest both loops end, and with the departments
they start from they find what the paths put into their subtrees.
-/

open LevelClosure Relation List

variable {info : DepartmentDBInfo} {id : String}

/-- At or below one of the departments. -/
def InScope (departments : List DepartmentDBInfo) (deptIDs : List String) (id : String) : Prop :=
  ∃ depart ∈ departments, depart.id ∈ deptIDs ∧ id ∈ subtreeIDs departments depart

/-- The second department is right below the first in the table of parents. -/
def RightBelow (relations : List DepartmentRelation) (above id : String) : Prop := ⟨id, above⟩ ∈ relations

private theorem Organisation.mem_getChildDepartmentIDs (org : Organisation) (deptIDs : List String) (id : String) :
    id ∈ org.getChildDepartmentIDs deptIDs ↔ ∃ above ∈ deptIDs, RightBelow org.relations above id := by
  simp only [Organisation.getChildDepartmentIDs, mem_map, mem_filter, decide_eq_true_iff]
  constructor
  · rintro ⟨row, ⟨found, isAbove⟩, rfl⟩
    exact ⟨row.parentDepartmentID, isAbove, found⟩
  · rintro ⟨above, isAbove, edge⟩
    exact ⟨⟨id, above⟩, ⟨edge, isAbove⟩, rfl⟩

/-- The departments with a parent. -/
def Organisation.childIDs (org : Organisation) : List String := (org.relations.map (·.departmentID)).dedup

theorem Organisation.answers_getChildDepartmentIDs (org : Organisation) :
    Answers org.getChildDepartmentIDs (RightBelow org.relations) org.childIDs :=
  ⟨org.mem_getChildDepartmentIDs, fun edge => mem_dedup.mpr (mem_map_of_mem edge)⟩

variable {fuel : Nat}

/-- On every table the loop with a memory ends, with one query more than there are departments at most. -/
theorem Organisation.exists_getAllChildDeparmentIDs (org : Organisation) (deptIDs : List String)
    (enough : org.childIDs.length + 2 ≤ fuel) :
    ∃ children, org.getAllChildDeparmentIDs fuel deptIDs = some children ∧
      ∀ id, id ∈ children ↔ ∃ above ∈ deptIDs, TransGen (RightBelow org.relations) above id := by
  have nothingSeen : ClosedExcept (RightBelow org.relations) deptIDs ∅ :=
    fun _ known => absurd known (AList.notMem_empty _)
  have unseen := length_filter_le (fun id => decide (id ∉ (∅ : GoSet String))) org.childIDs
  obtain ⟨seen, ended⟩ := @Answers.exists_collectFresh _ _ _ _ deptIDs fuel ∅
    _ org.answers_getChildDepartmentIDs (by omega)
  refine ⟨seen.keys, by rw [getAllChildDeparmentIDs, ended, Option.map_some], fun id => ?_⟩
  rw [← AList.mem_keys, org.answers_getChildDepartmentIDs.mem_of_collectFresh nothingSeen ended]
  simp

section Tables

variable {departments : List DepartmentDBInfo} {relations : List DepartmentRelation}
  (forest : DepartmentForest departments)
  (parents : ColumnMatch DepartmentRelation.departmentID DepartmentRelation.parentDepartmentID parentID departments
    relations)

include forest

private theorem id_of_path (mem : info ∈ departments) {init : List String} (path : pathIDs info.path = init ++ [id]) :
    info.id = id := by
  have last := forest.last info mem
  rw [path, getLast?_concat] at last
  exact (Option.some.inj last).symm

private theorem path_of_parentID (mem : info ∈ departments) {above : String} :
    parentID info = some above ↔ ∃ init, pathIDs info.path = init ++ [above, info.id] := by
  have whole : pathIDs info.path = (pathIDs info.path).dropLast ++ [info.id] :=
    (dropLast_append_getLast? _ (forest.last info mem)).symm
  constructor
  · intro isParent
    refine ⟨(pathIDs info.path).dropLast.dropLast, ?_⟩
    rw [append_cons, dropLast_append_getLast? _ isParent]
    exact whole
  · rintro ⟨init, path⟩
    rw [parentID, path, append_cons, dropLast_concat, getLast?_concat]

include parents

private theorem rightBelow_iff (above id : String) :
    RightBelow relations above id ↔ PathForest.Parent (departmentPaths departments) above id := by
  constructor
  · intro edge
    obtain ⟨info, mem, same, isParent⟩ := parents.sound _ edge
    obtain ⟨init, path⟩ := (path_of_parentID forest mem).mp isParent
    exact ⟨init, info, mem, path.trans (by rw [← same])⟩
  · rintro ⟨init, info, mem, path⟩
    obtain rfl : info.id = id := id_of_path forest mem (path.trans (append_cons init above [id]))
    obtain ⟨row, found, isChild, isParent⟩ := parents.complete info mem above
      ((path_of_parentID forest mem).mpr ⟨init, path⟩)
    rw [← isChild, ← isParent]
    exact found

variable {depart : DepartmentDBInfo}

omit forest in
private theorem exists_of_reaches (mem : depart ∈ departments)
    (reached : ReflTransGen (RightBelow relations) depart.id id) : ∃ info ∈ departments, info.id = id := by
  cases reached with
  | refl => exact ⟨depart, mem, rfl⟩
  | tail _ edge =>
    obtain ⟨info, infoMem, same, _⟩ := parents.sound _ edge
    exact ⟨info, infoMem, same.symm⟩

private theorem reaches_iff_subtree (mem : depart ∈ departments) (id : String) :
    ReflTransGen (RightBelow relations) depart.id id ↔ id ∈ subtreeIDs departments depart := by
  have edges : RightBelow relations = PathForest.Parent (departmentPaths departments) := by
    funext above id
    exact propext (rightBelow_iff forest parents above id)
  have below {info : DepartmentDBInfo} (infoMem : info ∈ departments) :
      ReflTransGen (RightBelow relations) depart.id info.id ↔ info.id ∈ subtreeIDs departments depart := by
    rw [forest.mem_subtreeIDs infoMem, forest.begins_iff_mem mem infoMem, edges]
    exact forest.pathForest.reaches_iff_mem ⟨info, infoMem, rfl⟩ (forest.last info infoMem) depart.id
  constructor
  · intro reached
    obtain ⟨info, infoMem, rfl⟩ := exists_of_reaches parents mem reached
    exact (below infoMem).mp reached
  · intro inside
    obtain ⟨info, within, rfl⟩ := mem_map.mp inside
    exact (below (mem_of_mem_filter within)).mpr inside

/-- The departments with what is below them are what is at or below them. -/
theorem inScope_iff {deptIDs : List String}
    (existing : ∀ id ∈ deptIDs, ∃ info ∈ departments, info.id = id) (id : String) :
    InScope departments deptIDs id ↔ id ∈ deptIDs ∨ ∃ above ∈ deptIDs, TransGen (RightBelow relations) above id := by
  constructor
  · rintro ⟨depart, mem, asked, inside⟩
    rcases reflTransGen_iff_eq_or_transGen.mp ((reaches_iff_subtree forest parents mem id).mpr inside) with
      rfl | below
    · exact .inl asked
    · exact .inr ⟨depart.id, asked, below⟩
  · have scope {above : String} (asked : above ∈ deptIDs) (reached : ReflTransGen (RightBelow relations) above id) :
        InScope departments deptIDs id := by
      obtain ⟨depart, mem, rfl⟩ := existing above asked
      exact ⟨depart, mem, asked, (reaches_iff_subtree forest parents mem id).mp reached⟩
    rintro (asked | ⟨above, asked, below⟩)
    · exact scope asked .refl
    · exact scope asked below.to_reflTransGen

private theorem not_cyclic (deptIDs : List String) : ¬ Cyclic (RightBelow relations) deptIDs := by
  rintro ⟨-, -, id, -, cycle⟩
  exact forest.pathForest.acyclic id (TransGen.mono (fun above id =>
    (rightBelow_iff forest parents above id).mp) _ _ cycle)

end Tables

namespace Organisation

variable {org : Organisation} (forest : DepartmentForest org.departments)
  (parents : ColumnMatch DepartmentRelation.departmentID DepartmentRelation.parentDepartmentID parentID
    org.departments org.relations)
  {deptIDs : List String} (existing : ∀ id ∈ deptIDs, ∃ info ∈ org.departments, info.id = id)

include forest

theorem mem_getAllChildDeparmentIDsByIDs (id : String) :
    id ∈ org.getAllChildDeparmentIDsByIDs deptIDs ↔ InScope org.departments deptIDs id := by
  rw [getAllChildDeparmentIDsByIDs, ← AList.mem_keys, GoMap.mem_collect, mem_flatMap]
  constructor
  · rintro ⟨depart, found, inside⟩
    obtain ⟨mem, asked⟩ := (org.mem_getDepartmentInfo deptIDs depart).mp found
    rw [getAllSubDepartInfosByPath_eq forest mem] at inside
    exact ⟨depart, mem, asked, inside⟩
  · rintro ⟨depart, mem, asked, inside⟩
    refine ⟨depart, (org.mem_getDepartmentInfo deptIDs depart).mpr ⟨mem, asked⟩, ?_⟩
    rwa [getAllSubDepartInfosByPath_eq forest mem]

include parents existing

theorem collect_getChildDepartmentIDs (enough : org.childIDs.length + 2 ≤ fuel) :
    ∃ allDepIDs, collect org.getChildDepartmentIDs fuel deptIDs deptIDs = some allDepIDs ∧
      ∀ id, id ∈ allDepIDs ↔ InScope org.departments deptIDs id := by
  obtain ⟨allDepIDs, found⟩ := org.answers_getChildDepartmentIDs.exists_collect
    (not_cyclic forest parents deptIDs) enough
  refine ⟨allDepIDs, found, fun id => ?_⟩
  rw [org.answers_getChildDepartmentIDs.mem_of_collect found, inScope_iff forest parents existing]

theorem getAllChildDeparmentIDs_spec (enough : org.childIDs.length + 2 ≤ fuel) :
    ∃ children, org.getAllChildDeparmentIDs fuel deptIDs = some children ∧
      ∀ id, (id ∈ deptIDs ∨ id ∈ children) ↔ InScope org.departments deptIDs id := by
  obtain ⟨children, found, isBelow⟩ := org.exists_getAllChildDeparmentIDs deptIDs enough
  exact ⟨children, found, fun id => by rw [inScope_iff forest parents existing, isBelow]⟩

end Organisation

end SecurityFabric.UserManagement
