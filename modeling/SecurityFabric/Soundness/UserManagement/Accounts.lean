import SecurityFabric.Proofs.UserManagement.Account
import Mathlib.Data.List.Nodup
import Mathlib.Data.List.Perm.Subperm

/-! # Domain users by the name in their domain

A domain user may leave out the part of the login name from its last `@`. The search takes the first login name that
begins with what was typed in and an `@`, and gives up if this name has a further `@`. So it misses a user exactly if
such a name sorts before the login names of all users who could be meant, or if nothing was typed in.
-/

namespace SecurityFabric.UserManagement

section

open List GoStrings CaseFolding

variable (collation : Collation) (account : String)

/-- A domain user whose login name up to its last `@` is the account, ignoring case. -/
def DomainNamed (row : UserAccount) : Prop :=
  row.authType = .domain ∧ ∃ front back, row.account.toList = front ++ '@' :: back ∧ '@' ∉ back ∧
    collation.folded front = collation.folded account.toList

/-- A domain user whose login name begins with the account and an `@`, and has a further `@`. -/
def Rival (row : UserAccount) : Prop :=
  row.authType = .domain ∧ ∃ rest, collation.folded row.account.toList = collation.folded account.toList ++
    '@' :: rest ∧ '@' ∈ rest

/-- The answer is a user of this name in a domain if there is one, and no user otherwise; nothing is written. -/
def MatchesDomainUsers (users : List UserAccount)
    (answer : Except AccountFailure (Option AccountInfo × List UserAccount)) : Prop :=
  ∃ found, answer = .ok (found, users) ∧ (found.isSome = true ↔ ∃ row ∈ users, DomainNamed collation account row) ∧
    ∀ info ∈ found, ∃ row ∈ users, DomainNamed collation account row ∧ info = handleUserBaseInfo row

variable {collation account}

variable {row : UserAccount}

/-- The name of a domain user, in the letters the collation compares. -/
theorem domainNamed_iff : DomainNamed collation account row ↔ row.authType = .domain ∧
    ∃ rest, collation.folded row.account.toList = collation.folded account.toList ++ '@' :: rest ∧ '@' ∉ rest := by
  refine and_congr_right fun _ => ?_
  constructor
  · rintro ⟨front, back, split, last, same⟩
    exact ⟨collation.folded back, by rw [split, folded_append, folded_at_cons, same],
      fun within => last (at_mem_folded.mp within)⟩
  · rintro ⟨rest, split, last⟩
    obtain ⟨front, behind, parts, same, behindSame⟩ := map_eq_append_iff.mp split
    obtain ⟨separator, back, rfl, isAt, backSame⟩ := map_eq_cons_iff.mp behindSame
    obtain rfl : separator = '@' := fold_at_iff.mp isAt
    refine ⟨front, back, parts, fun within => last ?_, same⟩
    rw [← backSame]
    exact at_mem_folded.mpr within

private theorem begins_iff :
    (row.authType = .domain ∧ collation.folded account.toList ++ ['@'] <+: collation.folded row.account.toList) ↔
    DomainNamed collation account row ∨ Rival collation account row := by
  rw [domainNamed_iff, Rival, ← and_or_left, and_congr_right_iff]
  intro _
  constructor
  · rintro ⟨rest, split⟩
    rw [append_assoc] at split
    by_cases further : '@' ∈ rest
    · exact .inr ⟨rest, split.symm, further⟩
    · exact .inl ⟨rest, split.symm, further⟩
  · rintro (⟨rest, split, _⟩ | ⟨rest, split, _⟩)
    all_goals exact ⟨rest, by rw [split, append_assoc, singleton_append]⟩

private theorem not_domainNamed_of_rival (rival : Rival collation account row) :
    ¬ DomainNamed collation account row := by
  intro named
  obtain ⟨_, rest, split, further⟩ := rival
  obtain ⟨_, other, otherSplit, last⟩ := domainNamed_iff.mp named
  obtain rfl : rest = other := (List.cons.inj (append_cancel_left (split.symm.trans otherSplit))).2
  exact last further

variable {users : List UserAccount} {rows : List UserAccount}

private theorem orderByLoginName_eq_some (first : UserDB.orderByLoginName collation rows = some row) :
    row ∈ rows ∧ ∀ other ∈ rows, collation.le row.account other.account = true := by
  have before := find?_some first
  rw [all_eq_true] at before
  exact ⟨mem_of_find?_eq_some first, before⟩

private theorem orderByLoginName_eq_none (nobody : UserDB.orderByLoginName collation rows = none) : rows = [] := by
  by_contra nonempty
  obtain ⟨first, mem, before⟩ := collation.exists_first UserAccount.account nonempty
  refine find?_eq_none.mp nobody first mem ?_
  rw [all_eq_true]
  exact before

private theorem mem_candidates (plain : Plain account.toList) : (row ∈ users.filter fun row =>
      collation.likeFold (account.toList ++ ['@', '%', '%']) row.account.toList ∧ row.authType = .domain) ↔
      row ∈ users ∧ (DomainNamed collation account row ∨ Rival collation account row) := by
  rw [mem_filter, decide_eq_true_iff, likeFold_begins plain, and_comm (b := row.authType = .domain), begins_iff]

/-- The test of a row with an `@` finds out whether it is a user of this name. -/
theorem exists_lastIndex (domain : row.authType = .domain) (within : '@' ∈ row.account.toList) :
    ∃ index, lastIndex '@' row.account.toList = some index ∧
      (collation.equalFold account (String.ofList (row.account.toList.take index)) = true ↔
        DomainNamed collation account row) := by
  obtain ⟨front, back, split, last⟩ := exists_of_mem_last within
  refine ⟨front.length, by rw [split, lastIndex_append last], ?_⟩
  have before : row.account.toList.take front.length = front := by rw [split, take_left]
  rw [before, equalFold_iff, String.toList_ofList]
  constructor
  · intro same
    exact ⟨domain, front, back, split, last, same.symm⟩
  · rintro ⟨_, otherFront, otherBack, otherSplit, otherLast, same⟩
    have oneName : front ++ '@' :: back = otherFront ++ '@' :: otherBack := split.symm.trans otherSplit
    have oneIndex : some front.length = some otherFront.length := by
      rw [← lastIndex_append last, oneName, lastIndex_append otherLast]
    rw [(append_inj oneName (Option.some.inj oneIndex)).1, same]

/-- The row that is taken is reported if it is a user of this name. -/
theorem prefixMatchAccount_eq (plain : Plain account.toList)
    (first : UserDB.getDomainUserInfoByAccount collation users account = some row) :
    (DomainNamed collation account row → prefixMatchAccount collation users account = .ok (some row)) ∧
      (¬ DomainNamed collation account row → prefixMatchAccount collation users account = .ok none) := by
  have candidate : DomainNamed collation account row ∨ Rival collation account row := by
    rw [UserDB.getDomainUserInfoByAccount] at first
    split at first
    · cases first
    · exact ((mem_candidates plain).mp (orderByLoginName_eq_some first).1).2
  obtain ⟨domain, rest, split⟩ := begins_iff.mpr candidate
  have foldedWithin : '@' ∈ collation.folded row.account.toList := by
    rw [← split]
    simp
  obtain ⟨index, isLast, tested⟩ := exists_lastIndex domain (at_mem_folded.mp foldedWithin)
  rw [prefixMatchAccount, first]
  simp only [isLast]
  refine ⟨fun named => if_pos (tested.mpr named), fun unnamed => if_neg (tested.not.mpr unnamed)⟩

section Answer

variable (plain : Plain account.toList) (free : ∀ row ∈ users, ¬ collation.equalFold row.account account = true)

include free

private theorem findAccount_eq (encodeDes : String → String) :
    findAccount collation encodeDes users account false true = prefixMatchAccount collation users account := by
  simp [findAccount, UserDB.getUserInfoByAccount_eq_none free]

include plain

/-- Either nobody is found, or the first of the names that begin this way. -/
theorem findAccount_cases (encodeDes : String → String) :
    (findAccount collation encodeDes users account false true = .ok none ∧
      ((∀ row ∈ users, ¬ DomainNamed collation account row) ∨ account = "" ∨
        ∃ rival ∈ users, Rival collation account rival ∧ ∀ row ∈ users, DomainNamed collation account row →
          collation.le rival.account row.account = true)) ∨
    ∃ row ∈ users, findAccount collation encodeDes users account false true = .ok (some row) ∧ account ≠ "" ∧
      DomainNamed collation account row ∧
      ∀ rival ∈ users, Rival collation account rival → collation.le row.account rival.account = true := by
  rw [findAccount_eq free]
  cases first : UserDB.getDomainUserInfoByAccount collation users account with
  | none =>
    refine .inl ⟨by rw [prefixMatchAccount, first]; rfl, ?_⟩
    rw [UserDB.getDomainUserInfoByAccount] at first
    split at first
    · rename_i isEmpty
      exact .inr (.inl isEmpty)
    · refine .inl fun row mem named => ?_
      have candidate := (mem_candidates plain).mpr ⟨mem, .inl named⟩
      rw [orderByLoginName_eq_none first] at candidate
      cases candidate
  | some row =>
    obtain ⟨reported, hidden⟩ := prefixMatchAccount_eq plain first
    rw [UserDB.getDomainUserInfoByAccount] at first
    split at first
    · cases first
    · rename_i nonempty
      obtain ⟨candidate, before⟩ := orderByLoginName_eq_some first
      obtain ⟨mem, named | rival⟩ := (mem_candidates plain).mp candidate
      · exact .inr ⟨row, mem, reported named, nonempty, named, fun rival isRow isRival =>
          before rival ((mem_candidates plain).mpr ⟨isRow, .inr isRival⟩)⟩
      · exact .inl ⟨hidden (not_domainNamed_of_rival rival), .inr (.inr ⟨row, mem, rival, fun other isRow named =>
          before other ((mem_candidates plain).mpr ⟨isRow, .inl named⟩)⟩)⟩

/-- The answer is right exactly if nobody has this name in a domain, or somebody has it whose login name sorts
before all that begin with it and an `@` and have a further `@`. -/
theorem prefix_match_complete_iff {config : PwdLockConfig} (noLock : config.enablePwdLock = false)
    (encodeDes : String → String) (curTimeStamp : Int) : MatchesDomainUsers collation account users
        (getUserInfoByAccount collation encodeDes config curTimeStamp users account false true) ↔
      (∀ row ∈ users, ¬ DomainNamed collation account row) ∨ account ≠ "" ∧
      ∃ row ∈ users, DomainNamed collation account row ∧
          ∀ rival ∈ users, Rival collation account rival → ¬ collation.le rival.account row.account = true := by
  rcases findAccount_cases plain free encodeDes with ⟨missed, reason⟩ | ⟨row, mem, taken, nonempty, named, before⟩
  · -- nobody is reported: right if nobody has the name, and then nothing else is asked
    rw [getUserInfoByAccount_of_not_find missed]
    constructor
    · rintro ⟨found, same, complete, _⟩
      cases same
      exact .inl fun row mem named => absurd (complete.mpr ⟨row, mem, named⟩) Bool.false_ne_true
    · intro condition
      have absent : ∀ row ∈ users, ¬ DomainNamed collation account row := by
        rcases condition with absent | ⟨nonempty, row, mem, named, before⟩
        · exact absent
        · rcases reason with absent | isEmpty | ⟨rival, isRow, isRival, first⟩
          · exact absent
          · exact absurd isEmpty nonempty
          · exact absurd (first row mem named) (before rival isRow isRival)
      exact ⟨none, rfl, ⟨nofun, fun ⟨row, mem, named⟩ => absurd named (absent row mem)⟩, nofun⟩
  · rw [getUserInfoByAccount_of_find taken, checkAccountLocked_of_disabled noLock]
    constructor
    · intro _
      refine .inr ⟨nonempty, row, mem, named, fun rival isRow isRival after => ?_⟩
      -- tied names are variants of one name, so one of them cannot be a rival and the other not
      have tied := collation.antisymm after (before rival isRow isRival)
      obtain ⟨_, rest, split, further⟩ := isRival
      exact not_domainNamed_of_rival ⟨named.1, rest, tied.symm.trans split, further⟩ named
    · intro _
      refine ⟨some (handleUserBaseInfo row), rfl, ⟨fun _ => ⟨row, mem, named⟩, fun _ => rfl⟩, fun info isInfo => ?_⟩
      exact ⟨row, mem, named, (Option.some.inj isInfo).symm⟩

end Answer

namespace Sample

/-- A domain user with this login name. -/
def domainUser (id account : String) (id_ne_empty : id ≠ "") : UserAccount :=
  ⟨id, account, "", .domain, .enabled, .enabled, "", "", false, 0, 0, 0, .windowAD, "dc=test", id_ne_empty⟩

theorem zhang_id_ne_empty : "user-1" ≠ "" := by decide

def zhang : UserAccount := domainUser "user-1" "zhang@test.cn" zhang_id_ne_empty

/-- The login name the source gives as an example, in another domain. -/
def zhangOfMail : UserAccount := domainUser "user-2" "zhang@qq.com@test.cn" (by decide)

def noLock : PwdLockConfig := ⟨false, false, 3, 10⟩

end Sample

open UserManagement.Sample

private theorem domainNamed_zhang : DomainNamed .ascii "zhang" zhang :=
  ⟨rfl, "zhang".toList, "test.cn".toList, by decide, by decide, rfl⟩

/-- A user alone is found. -/
theorem prefix_match_complete_iff_zhang :
    getUserInfoByAccount .ascii id noLock 0 [zhang] "zhang" false true =
      .ok (some (handleUserBaseInfo zhang), [zhang]) ∧
      MatchesDomainUsers .ascii "zhang" [zhang]
      (getUserInfoByAccount .ascii id noLock 0 [zhang] "zhang" false true) := by
  refine ⟨by decide, (prefix_match_complete_iff (by decide) (by decide) rfl id 0).mpr (.inr ⟨by decide, zhang, ?_, ?_⟩)⟩
  · exact mem_singleton.mpr rfl
  refine ⟨domainNamed_zhang, fun rival isRow isRival => ?_⟩
  rw [mem_singleton.mp isRow] at isRival
  exact absurd domainNamed_zhang (not_domainNamed_of_rival isRival)

/-- Another user whose name sorts before and has two `@` makes the user of this name unknown. -/
theorem further_at_hides_domain_user :
    getUserInfoByAccount .ascii id noLock 0 [zhang, zhangOfMail] "zhang" false true = .ok (none, [zhang, zhangOfMail]) ∧
      DomainNamed .ascii "zhang" zhang ∧ ¬ MatchesDomainUsers .ascii "zhang" [zhang, zhangOfMail]
        (getUserInfoByAccount .ascii id noLock 0 [zhang, zhangOfMail] "zhang" false true) := by
  have answer : getUserInfoByAccount .ascii id noLock 0 [zhang, zhangOfMail] "zhang" false true =
      .ok (none, [zhang, zhangOfMail]) := by decide
  refine ⟨answer, domainNamed_zhang, ?_⟩
  rintro ⟨found, same, complete, _⟩
  cases answer.symm.trans same
  exact absurd (complete.mpr ⟨zhang, mem_cons_self, domainNamed_zhang⟩) Bool.false_ne_true

end

/-! # What a call of `Authentication` can do

A call ends with an error, passes its check on an account it has read, or writes. Writing counts the visit
on every row with the id and leaves the other rows alone.
-/

open List AuthenticationCall

variable {choice : AuthenticationChoice} {accounts : List AnonymousInfo}

/-- The numbers of visits published for an account. -/
def published (store : AnonymityStore) (id : String) : List Int :=
  (store.outbox.filter fun msg => msg.id = id).map (·.accessedTimes)

/-- A step of a call. -/
inductive AuthenticationMove (call : AuthenticationCall) (store : AnonymityStore) :
    AuthenticationChoice → AuthenticationPhase → AnonymityStore → AuthenticationPhase → Prop
  | ended {choice phase} (failure : AnonymityError)
    (notWriting : ∀ time info, choice = .proceed time → phase ≠ .writing info) :
      AuthenticationMove call store choice phase store (.finished (.error failure))
  | passed {time} (ok : call.check (getAccount store.accounts call.id time) = .ok ()) :
      AuthenticationMove call store (.proceed time) .waiting store (.writing (getAccount store.accounts call.id time))
  | visited {time} (info : AnonymousInfo) :
      AuthenticationMove call store (.proceed time) (.writing info) (call.write info store) (.finished (.ok ()))

variable {call : AuthenticationCall} {store after : AnonymityStore} {phase next : AuthenticationPhase}

private theorem AuthenticationCall.advance_cases (advanced : call.advance choice store phase = some (after, next)) :
    (∀ result, phase ≠ .finished result) ∧ AuthenticationMove call store choice phase after next := by
  unfold advance at advanced
  split at advanced
  · cases advanced
  · rename_i notFinished
    cases advanced
    exact ⟨fun result same => notFinished result same, .ended _ nofun⟩
  · refine ⟨nofun, ?_⟩
    dsimp only at advanced
    split at advanced
    · rename_i ok
      cases advanced
      exact .passed ok
    · cases advanced
      exact .ended _ nofun
  · cases advanced
    exact ⟨nofun, .visited _⟩

private theorem AuthenticationCall.check_ok {info : AnonymousInfo} (ok : call.check info = .ok ()) :
    info.id = call.id ∧ (info.limitedTimes = -1 ∨ info.accessedTimes < info.limitedTimes) := by
  unfold AuthenticationCall.check at ok
  split at ok
  · cases ok
  · split at ok
    · cases ok
    · split at ok
      · cases ok
      · rename_i same _ left
        exact ⟨not_not.mp same, by omega⟩

private theorem mem_of_check_ok {time : Int} (ok : call.check (getAccount accounts call.id time) = .ok ()) :
    getAccount accounts call.id time ∈ accounts ∧ (getAccount accounts call.id time).id = call.id := by
  obtain ⟨same, left⟩ := check_ok ok
  refine ⟨?_, same⟩
  unfold getAccount at left ⊢
  cases found : (accounts.filter fun info =>
      info.id = call.id ∧ (time < info.expiresAtStamp ∨ info.expiresAtStamp = 0)).getLast? with
  | none =>
    rw [found] at left
    exact absurd left (by decide)
  | some info => exact mem_of_mem_filter (mem_of_getLast? found)

private theorem mem_addAccessTimes {id : String} {row : AnonymousInfo} : row ∈ addAccessTimes accounts id ↔
    ∃ before ∈ accounts, row = if before.id = id then { before with accessedTimes := before.accessedTimes + 1 }
      else before := by
  simp [addAccessTimes, eq_comm]

private theorem published_write (call : AuthenticationCall) (info : AnonymousInfo)
    (store : AnonymityStore) (id : String) :
    published (call.write info store) id =
      published store id ++ if call.id = id ∧ info.type ≠ "" then [info.accessedTimes + 1] else [] := by
  by_cases typed : info.type = ""
  · simp [published, write, typed]
  · by_cases own : call.id = id
    · simp [published, write, typed, own]
    · simp [published, write, own]

private theorem AuthenticationMove.published_append (move : AuthenticationMove call store choice phase after next)
    (id : String) : ∃ more, published after id = published store id ++ more := by
  cases move with
  | ended | passed => exact ⟨[], (append_nil _).symm⟩
  | visited info => exact ⟨_, published_write call info store id⟩

/-! # The limit of an anonymous account

A visit is counted in a transaction that does not look again at the number of visits it was checked against. As many
calls have succeeded as visits are counted, whatever the schedule. The limit holds and the published numbers differ
exactly if each transaction finds a count below the limit and, where a number is published, the count that its call has
read.
-/

open Machine

variable {ι : Type} [DecidableEq ι] (calls : ι → AuthenticationCall) (account : AnonymousInfo)
variable {state : Shared ι AnonymityStore AuthenticationPhase} {times : Nat} {i : ι}

section

variable (id : String) (state : Shared ι AnonymityStore AuthenticationPhase) (label : ι × AuthenticationChoice)
  (times : Nat) (i : ι)

/-- A successful call on the account. -/
def Won : Prop :=
  (calls i).id = id ∧ state.phase i = .finished (.ok ())

/-- At most as many calls have succeeded as the account allows. -/
def WithinLimit : Prop :=
  ∀ winners : List ι, winners.Nodup → (∀ i ∈ winners, Won calls account.id state i) →
    (winners.length : Int) ≤ account.limitedTimes

/-- If the step is a transaction on the account, the count is below the limit, and it is the one the call
has read if a message will tell it. -/
def CountsCurrent : Prop :=
  ∀ info time, (calls label.1).id = id → label.2 = .proceed time → state.phase label.1 = .writing info →
    ∀ row ∈ state.store.accounts, row.id = id →
      row.accessedTimes < row.limitedTimes ∧ (row.type ≠ "" → row.accessedTimes = info.accessedTimes)

/-- A call on the account that is about to write has read a count below the limit, and none that is yet to come. -/
def ReadBefore (phase : AuthenticationPhase) : Prop := ∀ info, (calls i).id = account.id → phase = .writing info →
    ∃ read : Nat, read ≤ times ∧ (read : Int) < account.limitedTimes ∧ info = { account with accessedTimes := read }

/-- So many visits are counted, by as many calls; a call that is about to write has read no more. -/
structure Tally : Prop where
  row : ∃ row ∈ state.store.accounts, row.id = account.id
  rows : ∀ row ∈ state.store.accounts, row.id = account.id → row = { account with accessedTimes := times }
  winners : ∃ winners : List ι, winners.Nodup ∧ (∀ i, i ∈ winners ↔ Won calls account.id state i) ∧
    winners.length = times
  reads : ∀ i, ReadBefore calls account times i (state.phase i)

end

variable {calls account}

private theorem won_update (id : String) (state : Shared ι AnonymityStore AuthenticationPhase)
    (store : AnonymityStore) (i j : ι)
    (phase : AuthenticationPhase) : Won calls id ⟨store, Function.update state.phase i phase⟩ j ↔
      if j = i then (calls i).id = id ∧ phase = .finished (.ok ()) else Won calls id state j := by
  unfold Won
  by_cases same : j = i
  · subst same
    simp
  · simp [same]

private theorem won_update_of_not {id : String} {store : AnonymityStore} {phase : AuthenticationPhase}
    (unfinished : ∀ result, state.phase i ≠ .finished result)
    (notWon : ¬ ((calls i).id = id ∧ phase = .finished (.ok ()))) (j : ι) :
    Won calls id ⟨store, Function.update state.phase i phase⟩ j ↔ Won calls id state j := by
  rw [won_update]
  split_ifs with same
  · subst same
    exact ⟨fun won => absurd won notWon, fun won => absurd won.2 (unfinished _)⟩
  · rfl

omit [DecidableEq ι] in
private theorem ReadBefore.succ {phase : AuthenticationPhase} (before : ReadBefore calls account times i phase) :
    ReadBefore calls account (times + 1) i phase := by
  intro info own writes
  obtain ⟨read, older, below, same⟩ := before info own writes
  exact ⟨read, Nat.le_succ_of_le older, below, same⟩

omit [DecidableEq ι] in
private theorem readBefore_finished {result : Except AnonymityError Unit} :
    ReadBefore calls account times i (.finished result) := by
  intro info _ writes
  cases writes

/-- What a step does to the account: nothing that counts, or one visit by a call that was about to write. -/
inductive Counted (calls : ι → AuthenticationCall) (account : AnonymousInfo)
    (state : Shared ι AnonymityStore AuthenticationPhase) (label : ι × AuthenticationChoice) (times : Nat)
    (next : Shared ι AnonymityStore AuthenticationPhase) : Prop
  | same (tally : Tally calls account next times)
    (silent : published next.store account.id = published state.store account.id)
      (noVisit : ∀ info time, (calls label.1).id = account.id → label.2 = .proceed time →
        state.phase label.1 ≠ .writing info)
  | visit (tally : Tally calls account next (times + 1)) (read : Nat) (time : Int)
    (own : (calls label.1).id = account.id)
      (chosen : label.2 = .proceed time)
        (writes : state.phase label.1 = .writing { account with accessedTimes := read })
      (older : read ≤ times)
      (told : published next.store account.id = published state.store account.id ++
        if account.type ≠ "" then [(read : Int) + 1] else [])

section Step

variable (tally : Tally calls account state times) (unfinished : ∀ result, state.phase i ≠ .finished result)

include tally unfinished

private theorem Tally.update_phase (notWon : phase ≠ .finished (.ok ()))
    (reads : ReadBefore calls account times i phase) :
    Tally calls account ⟨state.store, Function.update state.phase i phase⟩ times where
  row := tally.row
  rows := tally.rows
  winners := by
    obtain ⟨winners, distinct, won, count⟩ := tally.winners
    refine ⟨winners, distinct, fun j => (won j).trans ?_, count⟩
    exact (won_update_of_not unfinished (fun new => notWon new.2) j).symm
  reads := Shared.forall_update _ tally.reads reads

/-- A visit of another account. -/
theorem Tally.visit_other (other : (calls i).id ≠ account.id) (info : AnonymousInfo) :
    Tally calls account ⟨(calls i).write info state.store,
      Function.update state.phase i (.finished (.ok ()))⟩ times where
  row := by
    obtain ⟨row, found, same⟩ := tally.row
    exact ⟨row, mem_addAccessTimes.mpr ⟨row, found, (if_neg fun own => other (own.symm.trans same)).symm⟩, same⟩
  rows := by
    intro row found same
    obtain ⟨before, wasRow, rfl⟩ := mem_addAccessTimes.mp found
    split_ifs at same ⊢ with own
    · exact absurd (own.symm.trans same) other
    · exact tally.rows before wasRow same
  winners := by
    obtain ⟨winners, distinct, won, count⟩ := tally.winners
    refine ⟨winners, distinct, fun j => (won j).trans ?_, count⟩
    exact (won_update_of_not unfinished (fun new => other new.1) j).symm
  reads := Shared.forall_update _ tally.reads readBefore_finished

/-- A visit of the account. -/
theorem Tally.visit_own (own : (calls i).id = account.id) (info : AnonymousInfo) :
    Tally calls account ⟨(calls i).write info state.store,
      Function.update state.phase i (.finished (.ok ()))⟩ (times + 1) where
  row := by
    obtain ⟨row, found, same⟩ := tally.row
    refine ⟨_, mem_addAccessTimes.mpr ⟨row, found, rfl⟩, ?_⟩
    rw [if_pos (same.trans own.symm)]
    exact same
  rows := by
    intro row found same
    obtain ⟨before, wasRow, rfl⟩ := mem_addAccessTimes.mp found
    split_ifs at same ⊢ with isOwn
    · rw [tally.rows before wasRow same]
      simp
    · exact absurd (same.trans own.symm) isOwn
  winners := by
    obtain ⟨winners, distinct, won, count⟩ := tally.winners
    have new : i ∉ winners := fun old => unfinished _ ((won i).mp old).2
    refine ⟨i :: winners, nodup_cons.mpr ⟨new, distinct⟩, fun j => ?_, by rw [length_cons, count]⟩
    rw [won_update, mem_cons]
    split_ifs with same
    · exact ⟨fun _ => ⟨own, rfl⟩, fun _ => .inl same⟩
    · exact (or_iff_right same).trans (won j)
  reads := Shared.forall_update _ (fun j => (tally.reads j).succ) readBefore_finished

end Step

/-- As many visits as calls have succeeded, no more than the limit, and each of the numbers up to there told once. -/
def Kept (calls : ι → AuthenticationCall) (account : AnonymousInfo)
    (state : Shared ι AnonymityStore AuthenticationPhase) : Prop :=
  ∃ times : Nat, Tally calls account state times ∧ (times : Int) ≤ account.limitedTimes ∧
    published state.store account.id = if account.type ≠ "" then (List.range times).map fun earlier : Nat =>
    (earlier : Int) + 1 else []

omit [DecidableEq ι] in
private theorem kept_start (existing : account ∈ accounts)
    (key : ∀ row ∈ accounts, row.id = account.id → row = account) (limited : 0 ≤ account.limitedTimes)
    (fresh : account.accessedTimes = 0) : Kept calls account (authenticationStart accounts) := by
  refine ⟨0, ⟨⟨account, existing, rfl⟩, fun row found same => ?_, ⟨[], nodup_nil, fun i => ?_, rfl⟩, fun i => ?_⟩,
    limited, by simp [published, authenticationStart]⟩
  · rw [key row found same, Int.ofNat_zero, ← fresh]
  · simp [Won, authenticationStart]
  · intro info _ writes
    cases writes

omit [DecidableEq ι] in
private theorem Kept.withinLimit (kept : Kept calls account state) : WithinLimit calls account state := by
  obtain ⟨times, tally, within, _⟩ := kept
  obtain ⟨all, _, won, count⟩ := tally.winners
  intro winners distinct areWinners
  have fewer : winners.length ≤ all.length := (distinct.subperm fun i mem => (won i).mpr (areWinners i mem)).length_le
  omega

omit [DecidableEq ι] in
private theorem Kept.nodup_published (kept : Kept calls account state) : (published state.store account.id).Nodup := by
  obtain ⟨times, _, _, told⟩ := kept
  rw [told]
  split_ifs
  · exact nodup_range.map fun first second same => by omega
  · exact nodup_nil

section Steps

variable {next : Shared ι AnonymityStore AuthenticationPhase} {label : ι × AuthenticationChoice}
  (stepped : authenticationStep calls state label = some next) (limited : 0 ≤ account.limitedTimes)

include stepped

/-- Successes and published numbers stay. -/
theorem limit_of_later (after : WithinLimit calls account next ∧ (published next.store account.id).Nodup) :
    WithinLimit calls account state ∧ (published state.store account.id).Nodup := by
  obtain ⟨store, phase, advanced, rfl⟩ := Shared.step_eq_some.mp stepped
  obtain ⟨unfinished, move⟩ := advance_cases advanced
  obtain ⟨within, distinct⟩ := after
  constructor
  · intro winners isDistinct areWinners
    refine within winners isDistinct fun j mem => (won_update _ _ _ _ _ _).mpr ?_
    have won := areWinners j mem
    rw [if_neg]
    · exact won
    · rintro rfl
      exact unfinished _ won.2
  · obtain ⟨more, appended⟩ := move.published_append account.id
    rw [appended] at distinct
    exact distinct.of_append_left

include limited

private theorem Tally.step (tally : Tally calls account state times) :
    Counted calls account state label times next := by
  obtain ⟨i, choice⟩ := label
  obtain ⟨store, phase, advanced, rfl⟩ := Shared.step_eq_some.mp stepped
  obtain ⟨unfinished, move⟩ := advance_cases advanced
  generalize old : state.phase i = before at move
  cases move with
  | ended failure notWriting =>
    refine .same (tally.update_phase unfinished nofun readBefore_finished) rfl fun info time _ chosen => ?_
    rw [old]
    exact notWriting time info chosen
  | @passed time ok =>
    refine .same (tally.update_phase unfinished nofun fun info own isInfo => ?_) rfl fun info _ _ _ writes => ?_
    swap
    · rw [old] at writes
      cases writes
    cases isInfo
    obtain ⟨mem, same⟩ := mem_of_check_ok ok
    have left := (check_ok ok).2
    rw [tally.rows _ mem (same.trans own)] at left ⊢
    exact ⟨times, Nat.le_refl times, by simpa using left.resolve_left (by simp; omega), rfl⟩
  | @visited time info =>
    by_cases own : (calls i).id = account.id
    · obtain ⟨read, older, below, rfl⟩ := tally.reads i info own old
      refine .visit (tally.visit_own unfinished own _) read time own rfl old older ?_
      rw [published_write]
      simp [own]
    · refine .same (tally.visit_other unfinished own info) ?_ fun _ _ isOwn => absurd isOwn own
      rw [published_write]
      simp [own]

/-- A visit in which the count is the one that was read, or in which nothing is told. -/
theorem Kept.step (kept : Kept calls account state) (current : CountsCurrent calls account.id state label) :
    Kept calls account next := by
  obtain ⟨times, tally, within, told⟩ := kept
  cases tally.step stepped limited with
  | same after silent _ => exact ⟨times, after, within, silent.trans told⟩
  | visit after read time own chosen writes older tells =>
    obtain ⟨row, found, same⟩ := tally.row
    obtain ⟨below, upToDate⟩ := current _ time own chosen writes row found same
    rw [tally.rows row found same] at below upToDate
    refine ⟨times + 1, after, by push_cast; exact below, ?_⟩
    rw [tells, told]
    split_ifs with typed
    · have same : (times : Int) = read := upToDate typed
      rw [range_succ, map_append, map_singleton, same]
    · rfl

/-- Otherwise it is one visit too many, or a number is told twice. -/
theorem Kept.current_of_step (kept : Kept calls account state) (within : WithinLimit calls account next)
    (distinct : (published next.store account.id).Nodup) : CountsCurrent calls account.id state label := by
  obtain ⟨times, tally, _, told⟩ := kept
  intro info time own chosen writes row found same
  rw [tally.rows row found same]
  cases tally.step stepped limited with
  | same _ _ noVisit => exact absurd writes (noVisit info time own chosen)
  | visit after read _ _ _ isWriting older tells =>
    obtain rfl := AuthenticationPhase.writing.inj (writes.symm.trans isWriting)
    constructor
    · obtain ⟨all, allDistinct, won, count⟩ := after.winners
      have bounded := within all allDistinct fun i mem => (won i).mp mem
      rw [count] at bounded
      exact bounded
    · intro typed
      rw [tells, told, if_pos typed, if_pos typed] at distinct
      by_contra stale
      have earlier : read < times := Nat.lt_of_le_of_ne older fun same => stale (by rw [same])
      have again : (read : Int) + 1 ∈ (List.range times).map fun earlier : Nat => (earlier : Int) + 1 :=
        mem_map.mpr ⟨read, mem_range.mpr earlier, rfl⟩
      exact (nodup_append.mp distinct).2.2 _ again _ (mem_singleton.mpr rfl) rfl

end Steps

/-- At most as many calls succeed as the account allows, and they publish different numbers, exactly if every
transaction finds a count below the limit and, if it publishes one, the count its call has read. -/
theorem access_limit_kept_iff {accounts : List AnonymousInfo} (existing : account ∈ accounts)
    (key : ∀ row ∈ accounts, row.id = account.id → row = account) (limited : 0 ≤ account.limitedTimes)
    (fresh : account.accessedTimes = 0) {schedule : List (ι × AuthenticationChoice)}
    {final : Shared ι AnonymityStore AuthenticationPhase}
    (reached : run (authenticationStep calls) (authenticationStart accounts) schedule = some final) :
    (WithinLimit calls account final ∧ (published final.store account.id).Nodup) ↔
      Meets (authenticationStep calls) (CountsCurrent calls account.id) (authenticationStart accounts) schedule := by
  have start : Kept calls account (authenticationStart accounts) := kept_start existing key limited fresh
  constructor
  · intro fine
    by_contra stale
    obtain ⟨before, label, after, state, current, upTo, onwards, unmet⟩ := exists_of_not_meets reached stale
    obtain ⟨next, stepped, later⟩ := run_cons.mp onwards
    have kept := invariant_of_meets (Kept calls account) (fun kept current stepped =>
      kept.step stepped limited current) start current upTo
    have fineNext : WithinLimit calls account next ∧ (published next.store account.id).Nodup := by
      by_contra broken
      exact invariant_of_run (fun state => ¬ (WithinLimit calls account state ∧
        (published state.store account.id).Nodup))
        (fun broken stepped fine => broken (limit_of_later stepped fine)) broken later fine
    exact unmet (kept.current_of_step stepped limited fineNext.1 fineNext.2)
  · intro current
    have kept := invariant_of_meets (Kept calls account) (fun kept current stepped => kept.step stepped limited current)
      start current reached
    exact ⟨kept.withinLimit, kept.nodup_published⟩

/-- However calls overlap, the row of an account counts the calls that have succeeded, each of them once. -/
theorem every_visit_counted (calls : ι → AuthenticationCall) (accounts : List AnonymousInfo) :
    Always (authenticationStep calls) (authenticationStart accounts) fun state => ∀ account ∈ accounts,
      (∀ row ∈ accounts, row.id = account.id → row = account) → 0 ≤ account.limitedTimes → account.accessedTimes = 0 →
      ∃ winners : List ι, winners.Nodup ∧ (∀ i, i ∈ winners ↔ Won calls account.id state i) ∧
        { account with accessedTimes := (winners.length : Int) } ∈ state.store.accounts ∧
        ∀ row ∈ state.store.accounts, row.id = account.id → row = { account with accessedTimes := winners.length } := by
  intro schedule state reached account existing key limited fresh
  obtain ⟨times, tally⟩ : ∃ times, Tally calls account state times := by
    refine invariant_of_run (fun state => ∃ times, Tally calls account state times) ?_
      ((kept_start existing key limited fresh).imp fun _ kept => kept.1) reached
    rintro state next label ⟨times, tally⟩ stepped
    cases tally.step stepped limited with
    | same after => exact ⟨times, after⟩
    | visit after => exact ⟨times + 1, after⟩
  obtain ⟨winners, distinct, won, rfl⟩ := tally.winners
  obtain ⟨row, found, same⟩ := tally.row
  exact ⟨winners, distinct, won, tally.rows row found same ▸ found, tally.rows⟩

namespace Sample

/-- An account for one visit. -/
def link : AnonymousInfo := ⟨"link", "secret", 0, 1, 0, "document"⟩

/-- Two calls with the right password. -/
def visits : Bool → AuthenticationCall := fun _ => ⟨"link", "secret", ""⟩

end Sample

open UserManagement.Sample

/-- One call after the other: the second one is refused. -/
theorem access_limit_kept_iff_sample : ∃ final, run (authenticationStep visits) (authenticationStart [link])
      [(true, .proceed 0), (true, .proceed 0), (false, .proceed 0)] = some final ∧
    final.phase true = .finished (.ok ()) ∧ (∃ failure, final.phase false = .finished (.error failure)) ∧
    WithinLimit visits link final ∧ (published final.store link.id).Nodup := by
  have current : Meets (authenticationStep visits) (CountsCurrent visits link.id) (authenticationStart [link])
      [(true, .proceed 0), (true, .proceed 0), (false, .proceed 0)] := by
    refine .cons nofun rfl (.cons ?_ rfl (.cons nofun rfl trivial))
    intro info time _ _ writes row found _
    cases writes
    rw [mem_singleton.mp found]
    decide
  refine ⟨_, rfl, rfl, ⟨_, rfl⟩, (access_limit_kept_iff (mem_singleton.mpr rfl) ?_ (by decide) rfl rfl).mpr current⟩
  intro row found _
  exact mem_singleton.mp found

/-- Both calls read before either writes: both succeed on an account for one visit and publish the same number. -/
theorem overlapping_visits_exceed_limit : ∃ final, run (authenticationStep visits) (authenticationStart [link])
      [(true, .proceed 0), (false, .proceed 0), (true, .proceed 0), (false, .proceed 0)] = some final ∧
    ¬ WithinLimit visits link final ∧ published final.store link.id = [1, 1] := by
  refine ⟨_, rfl, fun within => ?_, rfl⟩
  have bounded := within [true, false] (by decide) fun i _ => ⟨rfl, by cases i <;> rfl⟩
  exact absurd bounded (by decide)

end SecurityFabric.UserManagement
