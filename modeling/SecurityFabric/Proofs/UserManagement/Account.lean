import SecurityFabric.Model.UserManagement.Account

/-! # What the search for an account does

The row that is found decides the answer. Setting the count of wrong passwords back changes neither the id nor
anything the search looks at.
-/

namespace SecurityFabric.UserManagement

open Function List

variable {collation : Collation} {encodeDes : String → String} {config : PwdLockConfig} {curTimeStamp : Int}
  {users : List UserAccount} {account : String} {enableIDCardLogin enablePrefixMatch : Bool}

theorem UserDB.getUserInfoByAccount_eq_none (free : ∀ row ∈ users, ¬ collation.equalFold row.account account = true) :
    UserDB.getUserInfoByAccount collation users account = none := by
  rw [UserDB.getUserInfoByAccount, filter_eq_nil_iff.mpr free]
  split
  · rfl
  · rfl

theorem getUserInfoByAccount_of_find {row : UserAccount}
    (found : findAccount collation encodeDes users account enableIDCardLogin enablePrefixMatch = .ok (some row)) :
    getUserInfoByAccount collation encodeDes config curTimeStamp users account enableIDCardLogin enablePrefixMatch =
      .ok (some (handleUserBaseInfo (checkAccountLocked config curTimeStamp users row).2),
        (checkAccountLocked config curTimeStamp users row).1) := by
  rw [getUserInfoByAccount, found]
  rfl

theorem getUserInfoByAccount_of_not_find
    (missed : findAccount collation encodeDes users account enableIDCardLogin enablePrefixMatch = .ok none) :
    getUserInfoByAccount collation encodeDes config curTimeStamp users account enableIDCardLogin enablePrefixMatch =
      .ok (none, users) := by
  rw [getUserInfoByAccount, missed]
  rfl

@[simp]
theorem checkAccountLocked_id (row : UserAccount) :
    (checkAccountLocked config curTimeStamp users row).2.id = row.id := by
  rw [checkAccountLocked]
  split
  · rfl
  · rfl

theorem checkAccountLocked_of_disabled (noLock : config.enablePwdLock = false) (row : UserAccount) :
    checkAccountLocked config curTimeStamp users row = (users, row) := by
  simp [checkAccountLocked, PwdLockConfig.unlocks, PwdLockConfig.locks, noLock]

section Unseen

variable {change : UserAccount → UserAccount}

/-- The change leaves alone what the search looks at. -/
structure Unseen (change : UserAccount → UserAccount) : Prop where
  account : ∀ row, (change row).account = row.account
  idCardNumber : ∀ row, (change row).idCardNumber = row.idCardNumber
  authType : ∀ row, (change row).authType = row.authType

private theorem getLast?_filter_map {keep : UserAccount → Bool} (same : ∀ row, keep (change row) = keep row) :
    ((users.map change).filter keep).getLast? = (users.filter keep).getLast?.map change := by
  rw [filter_map, getLast?_map]
  congr 3
  exact funext same

private theorem UserDB.getUserInfoByAccount_map (unseen : Unseen change) :
    UserDB.getUserInfoByAccount collation (users.map change) account =
    (UserDB.getUserInfoByAccount collation users account).map change := by
  unfold UserDB.getUserInfoByAccount
  split
  · rfl
  · exact getLast?_filter_map fun row => by rw [unseen.account]

private theorem UserDB.getDomainUserInfoByAccount_map (unseen : Unseen change) :
    UserDB.getDomainUserInfoByAccount collation (users.map change) account =
      (UserDB.getDomainUserInfoByAccount collation users account).map change := by
  unfold UserDB.getDomainUserInfoByAccount UserDB.orderByLoginName
  split
  · rfl
  · rw [filter_map]
    simp [Function.comp_def, unseen.account, unseen.authType]

variable {found : Option UserAccount}

private theorem prefixMatchAccount_map (unseen : Unseen change)
    (finds : prefixMatchAccount collation users account = .ok found) :
    prefixMatchAccount collation (users.map change) account = .ok (found.map change) := by
  unfold prefixMatchAccount at finds ⊢
  rw [UserDB.getDomainUserInfoByAccount_map unseen]
  cases domain : UserDB.getDomainUserInfoByAccount collation users account with
  | none =>
    rw [domain] at finds
    cases finds
    rfl
  | some row =>
    rw [domain] at finds
    dsimp only [Option.map_some] at finds ⊢
    rw [unseen.account]
    split at finds
    · cases finds
    · split at finds
      · rename_i same
        cases finds
        exact if_pos same
      · rename_i different
        cases finds
        exact if_neg different

/-- The search finds the changed row of the same user. -/
theorem findAccount_map (unseen : Unseen change)
    (finds : findAccount collation encodeDes users account enableIDCardLogin enablePrefixMatch = .ok found) :
    findAccount collation encodeDes (users.map change) account enableIDCardLogin enablePrefixMatch =
      .ok (found.map change) := by
  unfold findAccount at finds ⊢
  rw [UserDB.getUserInfoByAccount_map unseen]
  cases byName : UserDB.getUserInfoByAccount collation users account with
  | some row =>
    rw [byName] at finds
    cases finds
    rfl
  | none =>
    rw [byName] at finds
    have byCard : (if enableIDCardLogin then UserDB.getUserInfoByIDCard collation (users.map change) (encodeDes account)
          else none) =
        (if enableIDCardLogin then UserDB.getUserInfoByIDCard collation users (encodeDes account)
          else none).map change := by
      split
      · unfold UserDB.getUserInfoByIDCard
        split
        · rfl
        · exact getLast?_filter_map fun row => by rw [unseen.idCardNumber]
      · rfl
    rw [byCard]
    cases card : (if enableIDCardLogin then UserDB.getUserInfoByIDCard collation users (encodeDes account)
      else none) with
    | some row =>
      rw [card] at finds
      cases finds
      rfl
    | none =>
      rw [card] at finds
      cases enablePrefixMatch with
      | false =>
        cases finds
        rfl
      | true => exact prefixMatchAccount_map unseen finds

end Unseen

end SecurityFabric.UserManagement
