import SecurityFabric.Proofs.UserManagement.Department

/-! # Two deletions at once

A deletion decides which users to move to the unassigned group from paths it reads before its transaction. When two
deletions have both read before either writes, each counts the rows that the other is about to delete, and a user all of
whose rows go with one or the other, but not with one alone, is moved by neither. Only so a user is left without a row.
-/

namespace SecurityFabric.UserManagement

open Machine Function List GoStrings

variable {org : Organisation} {schedule : List (Bool × DeleteChoice)} {visitor : Option Visitor}
  {userID : String} {i : Bool}

/-- The path is made of ids. -/
def PathOfIDs (path : String) : Prop := ∀ id ∈ pathIDs path, IsID id

/-- The department of a call that has read the users' paths and has not written. -/
def DeletePhase.hasRead : DeletePhase → Option DepartmentDBInfo
  | .listingDeparts depart _ => some depart
  | .writing plan => some plan.depart
  | _ => none

section

variable (org : Organisation) (depart : DepartmentDBInfo) (first second : DepartmentDBInfo)
  (userDeparts : List UserDepartment) (userID : String)

/-- Every row of the user goes with one of the departments, and for each of the departments there is a row
whose path does not contain its path. -/
structure Straddles : Prop where
  allGo : ∀ row ∈ userDeparts, row.userID = userID → pathLike first.path row.path = true ∨
    pathLike second.path row.path = true
  outsideFirst : ∃ row ∈ userDeparts, row.userID = userID ∧ GoStrings.contains row.path first.path = false
  outsideSecond : ∃ row ∈ userDeparts, row.userID = userID ∧ GoStrings.contains row.path second.path = false

/-- If the step is a transaction while the other call stands between its reading of the paths and its own
transaction, no user straddles the two departments. -/
def Careful (state : Shared Bool Organisation DeletePhase) (label : Bool × DeleteChoice) : Prop :=
  ∀ plan other, label.2 = .proceed → state.phase label.1 = .writing plan →
    (state.phase (!label.1)).hasRead = some other →
    ∀ user ∈ state.store.users, ¬ Straddles plan.depart other state.store.userDeparts user.id

private theorem contains_of_pathLike {path other : String} (ofIDs : PathOfIDs path)
    (below : pathLike path other = true) :
    contains other path = true :=
  decide_eq_true ((pathLike_iff_begins ofIDs).mp below).isInfix

/-- The users a deletion moves that runs by itself. -/
def Organisation.movedUsers : List String :=
  needAddToUnDistributeIDs depart.path (org.getUsersPath (org.getAllSubUserIDsByDepartPath depart.path))

private theorem mem_movedUsers : userID ∈ org.movedUsers depart ↔
    (∃ row ∈ org.userDeparts, row.userID = userID ∧ pathLike depart.path row.path = true) ∧
      ∀ row ∈ org.userDeparts, row.userID = userID → contains row.path depart.path = true := by
  rw [Organisation.movedUsers, org.mem_needAddToUnDistributeIDs, org.mem_getAllSubUserIDsByDepartPath]
  refine and_congr_right fun ⟨row, found, own, _⟩ => ?_
  exact ⟨And.right, fun contained => ⟨⟨row, found, own⟩, contained⟩⟩

/-- Everyone all of whose rows go is among the users to move. -/
def MovesAll (moved : List String) : Prop :=
  ∀ user ∈ org.users, HasRow org.userDeparts user.id →
    (∀ row ∈ org.userDeparts, row.userID = user.id → pathLike depart.path row.path = true) → user.id ∈ moved

/-- What a call has read is enough for the rows there are now. -/
def EnoughFor : DeletePhase → Prop
  | .checkingVisitor _ depart | .checkingRange _ depart | .listingUsers depart => PathOfIDs depart.path
  | .readingPaths depart allUserIDs => PathOfIDs depart.path ∧
    ∀ row ∈ org.userDeparts, pathLike depart.path row.path = true → row.userID ∈ allUserIDs
  | .listingDeparts depart allUserPaths => PathOfIDs depart.path ∧
      MovesAll org depart (needAddToUnDistributeIDs depart.path allUserPaths)
  | .writing plan => PathOfIDs plan.depart.path ∧ MovesAll org plan.depart plan.needAddToUnDistributeIDs
  | .waiting | .finished _ => True

/-- A call knows the tables as they were when no call had written, and has not written either. -/
def FromStart : DeletePhase → Prop
  | .waiting => True
  | .checkingVisitor _ depart | .checkingRange _ depart | .listingUsers depart => depart ∈ org.departments
  | .readingPaths depart allUserIDs => depart ∈ org.departments ∧
      allUserIDs = org.getAllSubUserIDsByDepartPath depart.path
  | .listingDeparts depart allUserPaths => depart ∈ org.departments ∧
    allUserPaths = org.getUsersPath (org.getAllSubUserIDsByDepartPath depart.path)
  | .writing plan => plan.depart ∈ org.departments ∧ plan.needAddToUnDistributeIDs = org.movedUsers plan.depart
  | .finished result => result ≠ .ok ()

end

variable {depart : DepartmentDBInfo} (paths : ∀ info ∈ org.departments, PathOfIDs info.path)

private theorem fromStart_writing (existing : depart ∈ org.departments) :
    FromStart org (.writing (org.handleDeletedDepartInfo depart)) := ⟨existing, rfl⟩

variable {phase : DeletePhase}

private theorem FromStart.read {next : DeletePhase} (fresh : FromStart org phase) (move : ReadMove org phase next) :
    FromStart org next := by
  cases move with
  | fails going failure => exact nofun
  | @starts next depart found prepares =>
    cases next <;> cases prepares <;> exact found
  | @checks phase next depart prepared prepares =>
    cases phase <;> cases prepared <;> cases next <;> cases prepares <;> exact fresh
  | lists depart => exact ⟨fresh, rfl⟩
  | reads depart allUserIDs => exact ⟨fresh.1, congrArg org.getUsersPath fresh.2⟩
  | plans depart allUserPaths => exact ⟨fresh.1, congrArg (needAddToUnDistributeIDs depart.path) fresh.2⟩

private theorem movesAll_getUsersPath {allUserIDs : List String} (ofIDs : PathOfIDs depart.path)
    (listed : ∀ row ∈ org.userDeparts, pathLike depart.path row.path = true → row.userID ∈ allUserIDs) :
    MovesAll org depart (needAddToUnDistributeIDs depart.path (org.getUsersPath allUserIDs)) := by
  rintro user _ ⟨row, found, own⟩ allGo
  rw [org.mem_needAddToUnDistributeIDs]
  exact ⟨own ▸ listed row found (allGo row found own), ⟨row, found, own⟩,
    fun row found own => contains_of_pathLike ofIDs (allGo row found own)⟩

include paths in
private theorem EnoughFor.read {next : DeletePhase} (enough : EnoughFor org phase) (move : ReadMove org phase next) :
    EnoughFor org next := by
  cases move with
  | fails going failure => exact trivial
  | @starts next depart found prepares =>
    cases next <;> cases prepares <;> exact paths depart found
  | @checks phase next depart prepared prepares =>
    cases phase <;> cases prepared <;> cases next <;> cases prepares <;> exact enough
  | lists depart =>
    exact ⟨enough, fun row found below => (org.mem_getAllSubUserIDsByDepartPath _ _).mpr ⟨row, found, rfl, below⟩⟩
  | reads depart allUserIDs => exact ⟨enough.1, movesAll_getUsersPath enough.1 enough.2⟩
  | plans depart allUserPaths => exact enough

variable {plan : DeletePlan}

/-- A user all of whose rows go is moved, so nobody is left without a row. -/
theorem hasRow_writeDeletion (visitor : Option Visitor) {user : UserDBInfo} (mem : user ∈ org.users)
    (before : HasRow org.userDeparts user.id) (movesAll : MovesAll org plan.depart plan.needAddToUnDistributeIDs) :
    HasRow (org.writeDeletion visitor plan).userDeparts user.id := by
  by_cases stays : ∃ row ∈ org.userDeparts, row.userID = user.id ∧ pathLike plan.depart.path row.path = false
  · obtain ⟨row, found, own, outside⟩ := stays
    exact ⟨row, (org.mem_userDeparts_writeDeletion visitor plan row).mpr (.inl ⟨found, outside⟩), own⟩
  · have moved := movesAll user mem before fun row found own => by
      by_contra outside
      exact stays ⟨row, found, own, by simpa using outside⟩
    exact ⟨unassigned user.id, (org.mem_userDeparts_writeDeletion visitor plan _).mpr (.inr ⟨moved, rfl⟩), rfl⟩

private theorem mem_of_mem_writeDeletion (ofIDs : PathOfIDs depart.path) {row : UserDepartment}
    (mem : row ∈ (org.writeDeletion visitor plan).userDeparts) (below : pathLike depart.path row.path = true) :
    row ∈ org.userDeparts := by
  rcases (org.mem_userDeparts_writeDeletion visitor plan row).mp mem with ⟨found, -⟩ | ⟨-, same⟩
  · exact found
  · rw [same] at below
    exact absurd below (Bool.not_eq_true _ ▸ pathLike_unDistribute ofIDs)

/-- Of two calls that both know the tables of the start, one writes, and what the other knows is still
enough, unless a user straddles the departments. -/
theorem movesAll_writeDeletion (planned : plan.needAddToUnDistributeIDs = org.movedUsers plan.depart)
    (ofIDs : PathOfIDs depart.path)
    (apart : ∀ user ∈ org.users, ¬ Straddles plan.depart depart org.userDeparts user.id) :
    MovesAll (org.writeDeletion visitor plan) depart (org.movedUsers depart) := by
  rintro user mem ⟨row, stays, own⟩ allGo
  have below : pathLike depart.path row.path = true := allGo row stays own
  have found : row ∈ org.userDeparts := mem_of_mem_writeDeletion ofIDs stays below
  have notMoved : user.id ∉ org.movedUsers plan.depart := by
    intro moved
    have added := (org.mem_userDeparts_writeDeletion visitor plan (unassigned user.id)).mpr
      (.inr ⟨planned ▸ moved, rfl⟩)
    exact absurd (allGo _ added rfl) (Bool.not_eq_true _ ▸ pathLike_unDistribute ofIDs)
  have goesWithOne : ∀ row ∈ org.userDeparts, row.userID = user.id →
      pathLike plan.depart.path row.path = true ∨ pathLike depart.path row.path = true := by
    intro row found own
    cases gone : pathLike plan.depart.path row.path with
    | true => exact .inl rfl
    | false => exact .inr (allGo row ((org.mem_userDeparts_writeDeletion visitor plan row).mpr (.inl ⟨found, gone⟩))
        own)
  rw [mem_movedUsers] at notMoved ⊢
  refine ⟨⟨row, found, own, below⟩, fun other otherFound otherOwn => ?_⟩
  -- If some path does not contain that of the department, all contain that of the plan, and the plan would
  -- move the user if any of their rows went with it.
  by_contra outside
  have insidePlan : ∀ row ∈ org.userDeparts, row.userID = user.id → contains row.path plan.depart.path = true := by
    intro row found own
    by_contra outsidePlan
    exact apart user mem ⟨goesWithOne, ⟨row, found, own, by simpa using outsidePlan⟩,
      ⟨other, otherFound, otherOwn, by simpa using outside⟩⟩
  rcases goesWithOne other otherFound otherOwn with gone | gone
  · exact notMoved ⟨⟨other, otherFound, otherOwn, gone⟩, insidePlan⟩
  · exact outside (contains_of_pathLike ofIDs gone)

include paths in
private theorem EnoughFor.write (planned : plan.needAddToUnDistributeIDs = org.movedUsers plan.depart)
    (fresh : FromStart org phase)
    (apart : ∀ other, phase.hasRead = some other → ∀ user ∈ org.users,
      ¬ Straddles plan.depart other org.userDeparts user.id) :
    EnoughFor (org.writeDeletion visitor plan) phase := by
  cases phase with
  | waiting | finished result => exact trivial
  | checkingVisitor visitor depart | checkingRange visitor depart | listingUsers depart => exact paths depart fresh
  | readingPaths depart allUserIDs =>
    refine ⟨paths depart fresh.1, fun row stays below => ?_⟩
    rw [fresh.2, org.mem_getAllSubUserIDsByDepartPath]
    exact ⟨row, mem_of_mem_writeDeletion (paths depart fresh.1) stays below, rfl, below⟩
  | listingDeparts depart allUserPaths =>
    refine ⟨paths depart fresh.1, ?_⟩
    rw [fresh.2]
    exact movesAll_writeDeletion planned (paths depart fresh.1) (apart depart rfl)
  | writing other =>
    refine ⟨paths other.depart fresh.1, ?_⟩
    rw [fresh.2]
    exact movesAll_writeDeletion planned (paths other.depart fresh.1) (apart other.depart rfl)

section Runs

variable {calls : Bool → DeleteCall} {state next : Shared Bool Organisation DeletePhase} {label : Bool × DeleteChoice}

/-- No call has written. -/
structure Unwritten (org : Organisation) (state : Shared Bool Organisation DeletePhase) : Prop where
  store : state.store = org
  fresh : ∀ i, FromStart org (state.phase i)

/-- One call has written, and the other knows enough. -/
structure WrittenOnce (org : Organisation) (i : Bool) (state : Shared Bool Organisation DeletePhase) : Prop where
  finished : state.phase i = .finished (.ok ())
  users : state.store.users = org.users
  paths : ∀ info ∈ state.store.departments, PathOfIDs info.path
  everyUser : ∀ user ∈ state.store.users, HasRow state.store.userDeparts user.id
  enough : EnoughFor state.store (state.phase !i)

private theorem Unwritten.step (unwritten : Unwritten org state) (stepped : deleteStep calls state label = some next) :
    Unwritten org next ∨ ∃ plan, label.2 = .proceed ∧ state.phase label.1 = .writing plan ∧
      next = ⟨org.writeDeletion (calls label.1).visitor plan,
        Function.update state.phase label.1 (.finished (.ok ()))⟩ := by
  obtain ⟨store, phase, advanced, rfl⟩ := Shared.step_eq_some.mp stepped
  rw [unwritten.store] at advanced
  rcases DeleteCall.advance_cases advanced with ⟨same, move⟩ | ⟨plan, proceeds, writing, rfl, rfl⟩
  · exact .inl ⟨same, Shared.forall_update (fun _ => FromStart org) unwritten.fresh ((unwritten.fresh _).read move)⟩
  · exact .inr ⟨plan, proceeds, writing, rfl⟩

variable (everyUser : ∀ user ∈ org.users, HasRow org.userDeparts user.id)

include paths everyUser in
/-- A careful first transaction leaves every user a row and the other call with enough. -/
theorem Unwritten.write (unwritten : Unwritten org state) (writing : state.phase i = .writing plan)
    (apart : ∀ other, (state.phase !i).hasRead = some other →
      ∀ user ∈ org.users, ¬ Straddles plan.depart other org.userDeparts user.id) :
    WrittenOnce org i ⟨org.writeDeletion (calls i).visitor plan,
      Function.update state.phase i (.finished (.ok ()))⟩ := by
  obtain ⟨existing, planned⟩ : plan.depart ∈ org.departments ∧
    plan.needAddToUnDistributeIDs = org.movedUsers plan.depart := by
    have fresh := unwritten.fresh i
    rwa [writing] at fresh
  have movesAll : MovesAll org plan.depart plan.needAddToUnDistributeIDs := by
    rw [planned]
    exact movesAll_getUsersPath (paths plan.depart existing)
      fun row found below => (org.mem_getAllSubUserIDsByDepartPath _ _).mpr ⟨row, found, rfl, below⟩
  constructor
  case finished => exact update_self i _ state.phase
  case users => rfl
  case paths => exact fun info mem => paths info (mem_of_mem_filter mem)
  case everyUser => exact fun user mem => hasRow_writeDeletion _ mem (everyUser user mem) movesAll
  case enough =>
    change EnoughFor _ (Function.update state.phase i _ (!i))
    rw [update_of_ne (Bool.not_ne_self i)]
    exact .write paths planned (unwritten.fresh _) apart

private theorem finished_stays {result : Except HTTPError Unit} (finished : state.phase i = .finished result)
    (stepped : deleteStep calls state label = some next) : label.1 = (!i) ∧ next.phase i = .finished result := by
  obtain ⟨store, phase, advanced, rfl⟩ := Shared.step_eq_some.mp stepped
  have other : label.1 ≠ i := by
    intro same
    rw [same, finished] at advanced
    cases advanced
  refine ⟨Bool.eq_not.mpr other, ?_⟩
  change Function.update state.phase label.1 phase i = _
  rw [update_of_ne other.symm, finished]

private theorem WrittenOnce.step (written : WrittenOnce org i state)
    (stepped : deleteStep calls state label = some next) :
    WrittenOnce org i next := by
  obtain ⟨other, finished⟩ := finished_stays written.finished stepped
  obtain ⟨store, phase, advanced, rfl⟩ := Shared.step_eq_some.mp stepped
  rw [other] at advanced finished ⊢
  have own : Function.update state.phase (!i) phase (!i) = phase := update_self _ _ _
  rcases DeleteCall.advance_cases advanced with ⟨rfl, move⟩ | ⟨plan, -, writing, rfl, rfl⟩
  · refine ⟨finished, written.users, written.paths, written.everyUser, ?_⟩
    change EnoughFor state.store (Function.update state.phase (!i) phase (!i))
    rw [own]
    exact written.enough.read written.paths move
  · have enough := written.enough
    rw [writing] at enough
    refine ⟨finished, written.users, fun info mem => written.paths info (mem_of_mem_filter mem), fun user mem => ?_, ?_⟩
    · exact hasRow_writeDeletion _ mem (written.everyUser user mem) enough.2
    · change EnoughFor _ (Function.update state.phase (!i) (.finished (.ok ())) (!i))
      rw [own]
      exact trivial

private theorem unwritten_start (org : Organisation) : Unwritten org (deleteStart org) := ⟨rfl, fun _ => trivial⟩

include paths everyUser in
/-- After a careful run nobody has written, or everyone has a row. -/
theorem unwritten_or_writtenOnce (careful : Meets (deleteStep calls) Careful (deleteStart org) schedule)
    (reached : run (deleteStep calls) (deleteStart org) schedule = some state) :
    Unwritten org state ∨ ∃ i, WrittenOnce org i state := by
  refine invariant_of_meets (fun state => Unwritten org state ∨ ∃ i, WrittenOnce org i state) ?_
    (.inl (unwritten_start org)) careful reached
  rintro state next label (unwritten | ⟨i, written⟩) met stepped
  · rcases unwritten.step stepped with still | ⟨plan, proceeds, writing, rfl⟩
    · exact .inl still
    · refine .inr ⟨label.1, unwritten.write paths everyUser writing fun other hasRead => ?_⟩
      have apart := met plan other proceeds writing hasRead
      rwa [unwritten.store] at apart
  · exact .inr ⟨i, written.step stepped⟩

private theorem unwritten_or_finished (reached : run (deleteStep calls) (deleteStart org) schedule = some state) :
    Unwritten org state ∨ ∃ i, state.phase i = .finished (.ok ()) := by
  refine invariant_of_run (fun state => Unwritten org state ∨ ∃ i, state.phase i = .finished (.ok ())) ?_
    (.inl (unwritten_start org)) reached
  rintro state next label (unwritten | ⟨i, finished⟩) stepped
  · rcases unwritten.step stepped with still | ⟨plan, -, -, rfl⟩
    · exact .inl still
    · exact .inr ⟨label.1, update_self _ _ _⟩
  · exact .inr ⟨i, (finished_stays finished stepped).2⟩

/-- The user has rows only where the call is going to delete them, and it is not going to move the user;
once it has written they have none. -/
def LosesAll (userID : String) (org : Organisation) : DeletePhase → Prop
  | .listingDeparts depart allUserPaths => userID ∉ needAddToUnDistributeIDs depart.path allUserPaths ∧
    ∀ row ∈ org.userDeparts, row.userID = userID → pathLike depart.path row.path = true
  | .writing plan => userID ∉ plan.needAddToUnDistributeIDs ∧
    ∀ row ∈ org.userDeparts, row.userID = userID → pathLike plan.depart.path row.path = true
  | .finished (.ok ()) => ¬ HasRow org.userDeparts userID
  | .finished (.error _) => True
  | _ => False

private theorem LosesAll.read {after : DeletePhase} (loses : LosesAll userID org phase)
    (move : ReadMove org phase after) :
    LosesAll userID org after := by
  cases move with
  | fails going failure => exact trivial
  | starts found prepares | lists depart | reads depart allUserIDs => cases loses
  | @checks phase after depart prepared prepares => cases phase <;> cases prepared <;> cases loses
  | plans depart allUserPaths => exact loses

private theorem LosesAll.write (visitor : Option Visitor) (loses : LosesAll userID org (.writing plan)) :
    ¬ HasRow (org.writeDeletion visitor plan).userDeparts userID := by
  rintro ⟨row, mem, own⟩
  rcases (org.mem_userDeparts_writeDeletion visitor plan row).mp mem with ⟨found, stays⟩ | ⟨moved, -⟩
  · rw [loses.2 row found own] at stays
    cases stays
  · exact loses.1 (own ▸ moved)

/-- Straddled by two calls that know the tables of the start, a user loses all rows after the first of them
has written. -/
theorem Straddles.loses {other : DepartmentDBInfo} (straddles : Straddles plan.depart other org.userDeparts userID)
    (visitor : Option Visitor) (planned : plan.needAddToUnDistributeIDs = org.movedUsers plan.depart)
    (fresh : FromStart org phase)
    (hasRead : phase.hasRead = some other) : LosesAll userID (org.writeDeletion visitor plan) phase := by
  have notMoved {depart : DepartmentDBInfo}
      (outside : ∃ row ∈ org.userDeparts, row.userID = userID ∧ contains row.path depart.path = false) :
      userID ∉ org.movedUsers depart := by
    obtain ⟨row, found, own, outside⟩ := outside
    rw [mem_movedUsers]
    rintro ⟨-, inside⟩
    rw [inside row found own] at outside
    cases outside
  cases phase with
  | listingDeparts depart allUserPaths | writing plan =>
    cases hasRead
    refine ⟨fresh.2 ▸ notMoved straddles.outsideSecond, fun row mem own => ?_⟩
    rcases (org.mem_userDeparts_writeDeletion visitor _ row).mp mem with ⟨found, stays⟩ | ⟨moved, -⟩
    · refine (straddles.allGo row found own).resolve_left fun gone => ?_
      rw [gone] at stays
      cases stays
    · rw [planned, own] at moved
      exact absurd moved (notMoved straddles.outsideFirst)
  | _ => cases hasRead

/-- Once the first call has written, such a user stays so until they have no row. -/
theorem losesAll_of_run {final : Shared Bool Organisation DeletePhase} (finished : state.phase i = .finished (.ok ()))
    (loses : LosesAll userID state.store (state.phase !i))
    (reached : run (deleteStep calls) state schedule = some final) :
    LosesAll userID final.store (final.phase !i) := by
  refine (invariant_of_run (fun state => state.phase i = .finished (.ok ()) ∧
    LosesAll userID state.store (state.phase !i)) ?_ ⟨finished, loses⟩ reached).2
  rintro state next label ⟨finished, loses⟩ stepped
  obtain ⟨other, stays⟩ := finished_stays finished stepped
  refine ⟨stays, ?_⟩
  obtain ⟨store, phase, advanced, rfl⟩ := Shared.step_eq_some.mp stepped
  rw [other] at advanced ⊢
  change LosesAll userID store (Function.update state.phase (!i) phase (!i))
  rw [update_self]
  rcases DeleteCall.advance_cases advanced with ⟨rfl, move⟩ | ⟨plan, -, writing, rfl, rfl⟩
  · exact loses.read move
  · exact (writing ▸ loses : LosesAll userID state.store (.writing plan)).write _

end Runs

/-- After two deletions that both succeed, every user has a row exactly if each transaction was careful. -/
theorem everyone_has_row_iff {org : Organisation} {calls : Bool → DeleteCall} {schedule : List (Bool × DeleteChoice)}
    {final : Shared Bool Organisation DeletePhase} (paths : ∀ info ∈ org.departments, PathOfIDs info.path)
    (everyUser : ∀ user ∈ org.users, HasRow org.userDeparts user.id)
    (reached : run (deleteStep calls) (deleteStart org) schedule = some final)
    (succeeded : ∀ i, final.phase i = .finished (.ok ())) :
    (∀ user ∈ org.users, HasRow final.store.userDeparts user.id) ↔
    Meets (deleteStep calls) Careful (deleteStart org) schedule := by
  constructor
  · intro everyoneHas
    by_contra careless
    obtain ⟨before, label, after, state, _, upTo, onwards, unmet⟩ := exists_of_not_meets reached careless
    obtain ⟨next, stepped, later⟩ := run_cons.mp onwards
    unfold Careful at unmet
    push Not at unmet
    obtain ⟨plan, other, proceeds, writing, hasRead, user, mem, straddles⟩ := unmet
    -- Neither call has ended, so both know the tables of the start.
    have unwritten : Unwritten org state := by
      refine (unwritten_or_finished upTo).resolve_right fun ⟨i, finished⟩ => ?_
      rcases Bool.eq_or_eq_not i label.1 with rfl | rfl
      · rw [writing] at finished
        cases finished
      · rw [finished] at hasRead
        cases hasRead
    obtain ⟨store, phase, advanced, rfl⟩ := Shared.step_eq_some.mp stepped
    rw [proceeds, writing, unwritten.store] at advanced
    obtain ⟨rfl, rfl⟩ : org.writeDeletion (calls label.1).visitor plan = store ∧ .finished (.ok ()) = phase := by
      simpa [DeleteCall.advance, DeleteCall.proceed] using advanced
    rw [unwritten.store] at mem straddles
    have planned := (writing ▸ unwritten.fresh label.1 : FromStart org (.writing plan)).2
    have loses := losesAll_of_run (update_self label.1 _ state.phase) (by
      change LosesAll user.id _ (Function.update state.phase label.1 _ (!label.1))
      rw [update_of_ne (Bool.not_ne_self label.1)]
      exact straddles.loses _ planned (unwritten.fresh _) hasRead) later
    rw [succeeded] at loses
    exact loses (everyoneHas user mem)
  · intro careful user mem
    rcases unwritten_or_writtenOnce paths everyUser careful reached with unwritten | ⟨i, written⟩
    · exact absurd rfl (succeeded true ▸ unwritten.fresh true : FromStart org (.finished (.ok ())))
    · exact written.everyUser user (written.users ▸ mem)

namespace Sample

/-- One call deletes sales, the other law. -/
def deletions : Bool → DeleteCall
  | false => ⟨none, sales.id⟩
  | true => ⟨none, law.id⟩

/-- Both calls find their department; then one deletes, and then the other. -/
def oneByOne : List (Bool × DeleteChoice) :=
  [(false, .proceed), (true, .proceed)] ++ replicate 4 (false, .proceed) ++ replicate 4 (true, .proceed)

/-- Both calls read everything before either writes. -/
def overlapping : List (Bool × DeleteChoice) :=
  replicate 4 (false, .proceed) ++ replicate 4 (true, .proceed) ++ [(false, .proceed), (true, .proceed)]

end Sample

open UserManagement.Sample

private theorem company_everyUser :
    ∀ user ∈ company.users, HasRow company.userDeparts user.id := by simp [company, HasRow]

theorem everyone_has_row_iff_sample : Meets (deleteStep deletions) Careful (deleteStart company) oneByOne ∧
    ∃ final, run (deleteStep deletions) (deleteStart company) oneByOne = some final ∧
    (∀ i, final.phase i = .finished (.ok ())) ∧
      ∀ user ∈ company.users, HasRow final.store.userDeparts user.id := by
  have alone {state : Shared Bool Organisation DeletePhase} {label : Bool × DeleteChoice}
      (idle : (state.phase !label.1).hasRead = none) : Careful state label := by
    intro plan other _ _ hasRead
    rw [idle] at hasRead
    cases hasRead
  have careful : Meets (deleteStep deletions) Careful (deleteStart company) oneByOne := by
    repeat refine .cons (alone rfl) rfl ?_
    exact trivial
  obtain ⟨final, reached, both⟩ : ∃ final, run (deleteStep deletions) (deleteStart company) oneByOne = some final ∧
      ∀ i, final.phase i = .finished (.ok ()) := ⟨_, rfl, fun i => by cases i <;> rfl⟩
  exact ⟨careful, final, reached, both, (everyone_has_row_iff company_forest.pathOfIDs company_everyUser
    reached both).mpr careful⟩

private theorem straddles_second : Straddles sales law company.userDeparts "second" := by
  have inSales : sales ∈ company.departments := by simp [company]
  have inLaw : law ∈ company.departments := by simp [company]
  have notLaw : contains sales.path law.path = false := by
    rw [← Bool.not_eq_true, company_forest.contains_iff_mem inLaw inSales,
      company_forest.mem_subtreeIDs inSales, pathIDs_law]
    decide
  have notSales : contains law.path sales.path = false := by
    rw [← Bool.not_eq_true, company_forest.contains_iff_mem inSales inLaw,
      company_forest.mem_subtreeIDs inLaw, pathIDs_law]
    decide
  have self {info : DepartmentDBInfo} (mem : info ∈ company.departments) : pathLike info.path info.path = true :=
    (pathLike_iff (company_forest.pathOfIDs info mem) (company_forest.pathOfIDs info mem)).mpr prefix_rfl
  constructor
  case allGo => simp [company, self inSales, self inLaw]
  case outsideFirst => exact ⟨⟨"second", law.id, law.path⟩, by simp [company], rfl, notSales⟩
  case outsideSecond => exact ⟨⟨"second", sales.id, sales.path⟩, by simp [company], rfl, notLaw⟩

/-- The second user is in sales and in law, so each call leaves them to what the other one deletes. -/
theorem overlapping_deletions_orphan_user :
    (∀ user ∈ company.users, HasRow company.userDeparts user.id) ∧ (deletions false).id ≠ (deletions true).id ∧
      ∃ final, run (deleteStep deletions) (deleteStart company) overlapping = some final ∧
      (∀ i, final.phase i = .finished (.ok ())) ∧
        ¬ ∀ user ∈ company.users, HasRow final.store.userDeparts user.id := by
  obtain ⟨final, reached, both, store⟩ : ∃ final, run (deleteStep deletions) (deleteStart company) overlapping =
      some final ∧ (∀ i, final.phase i = .finished (.ok ())) ∧
      final.store = (company.writeDeletion none (company.handleDeletedDepartInfo sales)).writeDeletion none
        (company.handleDeletedDepartInfo law) := ⟨_, rfl, fun i => by cases i <;> rfl, rfl⟩
  refine ⟨company_everyUser, by decide, final, reached, both, fun everyoneHas => ?_⟩
  have inSales : sales ∈ company.departments := by simp [company]
  have inLaw : law ∈ company.departments := by simp [company]
  have loses :=
    straddles_second.loses none (fromStart_writing inSales).2 (fromStart_writing inLaw) rfl
  rw [store] at everyoneHas
  exact loses.write none (everyoneHas ⟨"second", "Second"⟩ (by simp [company]))

end SecurityFabric.UserManagement
