import SecurityFabric.Proofs.ShareMgnt.RoleManage

/-! # Names of departments

A new name is stored as it was accepted. It is compared with the old one, and published, in the form that the driver has
not seen yet.
-/

namespace SecurityFabric.ShareMgnt

section

open List UserManagement

variable {sql : SqlEquality} {name : List Char}

private theorem formatPercents_doublePercents (name : List Char) : formatPercents (doublePercents name) = name := by
  induction name with
  | nil => rfl
  | cons letter name ih =>
    rw [doublePercents, flatMap_cons]
    split_ifs with percent
    · subst percent
      exact congrArg ('%' :: ·) ih
    · rw [singleton_append, formatPercents.eq_2 _ _ fun _ same => absurd same percent]
      exact congrArg (letter :: ·) ih

private theorem length_doublePercents (name : List Char) :
    (doublePercents name).length = name.length + name.count '%' := by
  induction name with
  | nil => rfl
  | cons letter name ih =>
    rw [doublePercents, flatMap_cons, length_append, show (name.flatMap _).length = _ from ih]
    by_cases percent : letter = '%'
    · simp [percent]
      omega
    · simp [percent]
      omega

private theorem doublePercents_eq_iff : doublePercents name = name ↔ '%' ∉ name := by
  constructor
  · intro same
    have length := length_doublePercents name
    rw [same] at length
    exact count_eq_zero.mp (by omega)
  · intro free
    have single : ∀ s ∈ name, (if s = '%' then ['%', s] else [s]) = [s] := fun s mem =>
      if_neg (ne_of_mem_of_not_mem mem free)
    rw [doublePercents, flatMap_congr single, flatMap_singleton']

/-- A message tells the stored name, and there is one exactly if the name is another one. -/
def RenameTold (oldName name : String) (message : Option String) : Prop :=
  (message.isSome ↔ name ≠ oldName) ∧ ∀ newName ∈ message, newName = name

/-- An accepted name is stored, and its message is right exactly if it has no percent sign. -/
theorem rename_told_iff {departments after : List DepartmentDBInfo} {departId departName name : String}
    {old : DepartmentDBInfo}
    {message : Option String} (found : departments.find? (fun info => sql.text info.id = sql.text departId) = some old)
    (valid : isDepartNameValid (some departName) = .ok name)
    (edited : editDepartment sql departments departId departName = .ok (after, message)) :
    (∀ info ∈ after, sql.text info.id = sql.text departId → info.name = name) ∧
      (RenameTold old.name name message ↔ '%' ∉ name.toList) := by
  obtain ⟨_, -, rest⟩ := bind_ok edited
  obtain ⟨stripedName, isName, rest⟩ := bind_ok rest
  obtain rfl : name = stripedName := by
    rw [valid] at isName
    exact Except.ok.inj isName
  have written : updateDepart sql departments departId name = (after, message) := by
    dsimp only at rest
    split_ifs at rest
    · cases rest
    · exact Except.ok.inj rest
  simp only [updateDepart, formatPercents_doublePercents, found, Option.any_some] at written
  obtain ⟨rfl, rfl⟩ := Prod.mk.inj written
  constructor
  · intro info mem same
    obtain ⟨row, -, rfl⟩ := mem_map.mp mem
    split_ifs at same ⊢ with here
    · exact String.ofList_toList
    · exact absurd same here
  · rw [← doublePercents_eq_iff]
    unfold RenameTold
    constructor
    · rintro ⟨published, told⟩
      suffices same : String.ofList (doublePercents name.toList) = name from
        String.toList_ofList.symm.trans (congrArg String.toList same)
      by_cases unseen : old.name = String.ofList (doublePercents name.toList)
      · simpa [unseen, eq_comm] using published
      · exact told _ (by simp [unseen])
    · intro same
      rw [same, String.ofList_toList]
      by_cases new : old.name = name
      · simp [new]
      · simp [new, Ne.symm new]

theorem rename_told_sales :
    editDepartment ⟨id, id⟩ [⟨"a", "sales", 0, "o/a"⟩] "a" " trade." = .ok ([⟨"a", "trade", 0, "o/a"⟩], some "trade") ∧
      RenameTold "sales" "trade" (some "trade") := by
  have edited : editDepartment ⟨id, id⟩ [⟨"a", "sales", 0, "o/a"⟩] "a" " trade." =
      .ok ([⟨"a", "trade", 0, "o/a"⟩], some "trade") := by
    decide +kernel
  exact ⟨edited, (rename_told_iff rfl (by decide +kernel) edited).2.mpr (by decide)⟩

/-- The department keeps its name, and another one is published. -/
theorem percent_doubled : editDepartment ⟨id, id⟩ [⟨"a", "100%", 0, "o/a"⟩] "a" "100%" =
    .ok ([⟨"a", "100%", 0, "o/a"⟩], some "100%%") := by
  decide +kernel

end

/-! # What managers and auditors can pass on

Managers and auditors may make others managers and auditors, of departments in their own range. Over any sequence of
calls by users without a role of an administrator, every assignment is an old one or lies in the subtree of an old one
of its kind.

The checks compare the id of the role with those of the administrators letter by letter, and the statements compare it
as the database does. If it is given as the database would not tell it apart from one of them, anybody who may give
roles of no meaning gives that role. In calls that spell ids of roles as they are, the roles of administrators do not
change, except that of the super administrator: the built-in account may give it away and take it away.
-/

open Machine UserManagement List

variable {sql : SqlEquality} {isHex : String → Bool} {start tables after final : RoleTables} {calls : List RoleCall}

/-- Each of the new assignments is an old one or lies below an old one, whoever has that. -/
def Confined (sql : SqlEquality) (departments : List DepartmentDBInfo) (old new : List ResponsiblePerson) : Prop :=
  ∀ row ∈ new, row ∈ old ∨ ∃ source ∈ old, Below sql departments row.departmentID source.departmentID

private theorem Confined.trans {departments : List DepartmentDBInfo} {old between new : List ResponsiblePerson}
    (forest : DepartmentForest departments) (distinct : DistinctIDs sql departments)
    (first : Confined sql departments old between) (second : Confined sql departments between new) :
    Confined sql departments old new := by
  intro row mem
  rcases second row mem with kept | ⟨source, isSource, under⟩
  · exact first row kept
  · rcases first source isSource with original | ⟨top, isTop, higher⟩
    · exact .inr ⟨source, original, under⟩
    · exact .inr ⟨top, isTop, (below_trans forest distinct).trans _ _ _ under higher⟩

namespace RoleCall

/-- The caller holds none of the roles of administrators. -/
def Unprivileged (sql : SqlEquality) (tables : RoleTables) (call : RoleCall) : Prop :=
  ShareMgnt.Unprivileged sql tables call.call.userId

/-- If the database takes the id of the role for that of administrators, then it is that one. -/
def Spelled (sql : SqlEquality) (call : RoleCall) : Prop :=
  ∀ role ∈ adminRoles, sql.role call.call.roleId = sql.role role → call.call.roleId = role

instance (tables : RoleTables) (call : RoleCall) : Decidable (call.Unprivileged sql tables ∧ call.Spelled sql) :=
  inferInstanceAs (Decidable (ShareMgnt.Unprivileged sql tables call.call.userId ∧
    ∀ role ∈ adminRoles, sql.role call.call.roleId = sql.role role → call.call.roleId = role))

/-- The call is one by which the built-in account changes the super administrators. -/
def ChangesSuper (call : RoleCall) : Prop := call.call.roleId = .superAdmin ∧ call.call.userId = userAdmin

end RoleCall

section Step

variable {call : RoleCall} (unprivileged : call.Unprivileged sql tables)
  (stepped : roleStep sql isHex tables call = some after)

include unprivileged stepped

private theorem mem_getUserRoleId_of_step (spelled : call.Spelled sql) {role : Role} (isAdmin : role ∈ adminRoles)
    (unchanged : role = .superAdmin → ¬ call.ChangesSuper) (user : String) :
    role ∈ getUserRoleId sql after user ↔ role ∈ getUserRoleId sql tables user := by
  have delegated := delegated_of_roleStep unprivileged stepped
  have same : ∀ row, isRowOf sql user role row = true → (row ∈ after.userRoles ↔ row ∈ tables.userRoles) := by
    intro row isRow
    refine (delegated.userRoles row).resolve_right ?_
    rintro ⟨changed, permitted⟩
    obtain rfl := spelled role isAdmin (changed.symm.trans (of_decide_eq_true isRow).2)
    obtain ⟨isSuper, isBuiltIn⟩ := permitted.userId_eq isAdmin
    exact unchanged isSuper ⟨isSuper, isBuiltIn⟩
  unfold getUserRoleId
  rw [delegated.roles, mem_filter, mem_filter, any_eq_true, any_eq_true]
  exact and_congr_right fun _ => exists_congr fun row => and_congr_left fun isRow => same row isRow

private theorem responsible_confined (forest : DepartmentForest tables.departments) :
    Confined sql tables.departments tables.responsiblePersons after.responsiblePersons := fun row mem =>
  ((delegated_of_roleStep unprivileged stepped).responsiblePersons row mem).imp_right fun within =>
    responsible_supervises forest unprivileged _ within

private theorem audit_confined (forest : DepartmentForest tables.departments) :
    Confined sql tables.departments tables.auditPersons after.auditPersons := by
  intro row mem
  rcases (delegated_of_roleStep unprivileged stepped).auditPersons row mem with kept | ⟨⟨audits, permitted⟩, within⟩
  · exact .inl kept
  · exact .inr (audit_supervises forest unprivileged (permitted.isAudit unprivileged audits) _ within)

end Step

section Run

variable (meets : Meets (roleStep sql isHex) (fun tables call => call.Unprivileged sql tables ∧ call.Spelled sql)
    start calls) (reached : run (roleStep sql isHex) start calls = some final)

include meets reached

private theorem mem_getUserRoleId_of_run {role : Role} (isAdmin : role ∈ adminRoles)
    (unchanged : role = .superAdmin → ∀ call ∈ calls, ¬ call.ChangesSuper) (user : String) :
    role ∈ getUserRoleId sql final user ↔ role ∈ getUserRoleId sql start user := by
  induction calls generalizing start with
  | nil =>
    cases reached
    rfl
  | cons call rest ih =>
    obtain ⟨next, stepped, later⟩ := run_cons.mp reached
    obtain ⟨⟨unprivileged, spelled⟩, meets⟩ := meets
    have first := mem_getUserRoleId_of_step unprivileged stepped spelled isAdmin
      (fun isSuper => unchanged isSuper call mem_cons_self) user
    exact (ih (meets next stepped) later fun isSuper other listed =>
      unchanged isSuper other (mem_cons_of_mem call listed)).trans first

/-- The departments stay, and both kinds of assignments stay below those of the beginning. -/
theorem confined_of_run (forest : DepartmentForest start.departments) (distinct : DistinctIDs sql start.departments) :
    final.departments = start.departments ∧
      Confined sql start.departments start.responsiblePersons final.responsiblePersons ∧
      Confined sql start.departments start.auditPersons final.auditPersons := by
  refine invariant_of_meets (fun tables => tables.departments = start.departments ∧
    Confined sql start.departments start.responsiblePersons tables.responsiblePersons ∧
    Confined sql start.departments start.auditPersons tables.auditPersons) ?_
    ⟨rfl, fun _ => .inl, fun _ => .inl⟩ meets reached
  rintro tables next call ⟨fixed, responsible, audit⟩ ⟨unprivileged, -⟩ stepped
  rw [← fixed] at forest distinct responsible audit ⊢
  exact ⟨(delegated_of_roleStep unprivileged stepped).departments,
    responsible.trans forest distinct (responsible_confined unprivileged stepped forest),
    audit.trans forest distinct (audit_confined unprivileged stepped forest)⟩

/-- However managers and auditors pass on what they have, nobody gets a department that is not below one assigned at the
beginning in the same capacity. Nor do the roles of administrators change, if calls spell the ids of roles as they are,
but for that of the super administrator, which the built-in account may change. -/
theorem delegation_keeps_scope (forest : DepartmentForest start.departments)
    (distinct : DistinctIDs sql start.departments) :
    (∀ user, ∀ role ∈ adminRoles, (role = .superAdmin → ∀ call ∈ calls, ¬ call.ChangesSuper) →
      (role ∈ getUserRoleId sql final user ↔ role ∈ getUserRoleId sql start user)) ∧
    Confined sql start.departments start.responsiblePersons final.responsiblePersons ∧
    Confined sql start.departments start.auditPersons final.auditPersons :=
  ⟨fun user _ isAdmin unchanged => mem_getUserRoleId_of_run meets reached isAdmin unchanged user,
    (confined_of_run meets reached forest distinct).2⟩

end Run

namespace Sample

open UserManagement.Sample (root sales pathIDs_root pathIDs_sales)

/-- A chief and the built-in account manage an organisation with one department; a deputy and a clerk work there. -/
def roleTables : RoleTables where
  users := [userAdmin, chief, deputy, clerk]
  roles := [.superAdmin, .orgManager]
  userRoles := [⟨userAdmin, .orgManager⟩, ⟨chief, .orgManager⟩]
  roleAttributes := []
  departments := [root, sales]
  userDeparts := [⟨deputy, root.id, root.path⟩, ⟨clerk, sales.id, sales.path⟩]
  responsiblePersons := [⟨userAdmin, root.id⟩, ⟨chief, root.id⟩]
  auditPersons := []

private theorem roleTables_forest : DepartmentForest roleTables.departments := by
  have ids : IsID root.id ∧ IsID sales.id := by decide
  unfold IsID at ids
  refine ⟨⟨by decide, ?_, ?_, ?_⟩, ?_⟩ <;> simp [roleTables, pathIDs_root, pathIDs_sales, ids]

/-- The id of the super administrators in capitals. -/
def superCapitals : Role := .other "7DCFCC9C-AD02-11E8-AA06-000C29358AD6"

/-- A comparison that does not see capitals in the id of the super administrators. -/
def withoutCase : SqlEquality := ⟨id, fun role => if role = superCapitals then .superAdmin else role⟩

/-- The chief makes the deputy a manager of the department, and the deputy makes the clerk one. -/
def passedOn : List RoleCall :=
  [.set ⟨chief, .orgManager, deputy, some [sales.id], true⟩, .set ⟨deputy, .orgManager, clerk, some [sales.id], true⟩]

end Sample

open ShareMgnt.Sample UserManagement.Sample in
/-- What the clerk gets through the deputy is below what the chief has. -/
theorem delegation_keeps_scope_passed_on :
    ∃ final, run (roleStep withoutCase isHexDigits) roleTables passedOn = some final ∧
    final.responsiblePersons = roleTables.responsiblePersons ++ [⟨deputy, sales.id⟩, ⟨clerk, sales.id⟩] ∧
    Confined withoutCase roleTables.departments roleTables.responsiblePersons final.responsiblePersons ∧
    .superAdmin ∉ getUserRoleId withoutCase final clerk := by
  refine ⟨_, rfl, by decide +kernel, ?_⟩
  have meets : Meets (roleStep withoutCase isHexDigits)
      (fun tables call => call.Unprivileged withoutCase tables ∧ call.Spelled withoutCase) roleTables passedOn := by
    decide +kernel
  have distinct : DistinctIDs withoutCase roleTables.departments := by
    unfold DistinctIDs
    decide
  obtain ⟨roles, confined, -⟩ := delegation_keeps_scope meets rfl roleTables_forest distinct
  refine ⟨confined, fun held => ?_⟩
  have notBuiltIn : ∀ call ∈ passedOn, ¬ call.ChangesSuper := by simp [passedOn, RoleCall.ChangesSuper, RoleCall.call]
  exact absurd ((roles clerk .superAdmin (by decide) fun _ => notBuiltIn).mp held) (by decide +kernel)

open ShareMgnt.Sample in
/-- The chief, an organisation manager, makes the deputy a super administrator by the id in capitals. The built-in
account, which is a manager here too, does so by the id itself. -/
theorem capitals_give_super_role :
    DepartmentForest roleTables.departments ∧ DistinctIDs withoutCase roleTables.departments ∧
    .superAdmin ∉ getUserRoleId withoutCase roleTables deputy ∧
    ∀ call ∈ [MemberCall.mk chief superCapitals deputy none true, ⟨userAdmin, .superAdmin, deputy, none, true⟩],
      (RoleCall.set call).Unprivileged withoutCase roleTables ∧
      ∃ final, run (roleStep withoutCase isHexDigits) roleTables [.set call] = some final ∧
        .superAdmin ∈ getUserRoleId withoutCase final deputy := by
  refine ⟨roleTables_forest, by unfold DistinctIDs; decide, by decide +kernel, ?_⟩
  simp only [forall_mem_cons, not_mem_nil, false_imp_iff, implies_true, and_true]
  refine ⟨⟨?_, _, rfl, by decide +kernel⟩, ?_, _, rfl, by decide +kernel⟩ <;>
    unfold RoleCall.Unprivileged <;> decide +kernel

end SecurityFabric.ShareMgnt
