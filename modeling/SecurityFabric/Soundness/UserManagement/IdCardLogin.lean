import SecurityFabric.Model.ShareMgnt.Common
import SecurityFabric.Proofs.UserManagement.Account

/-! # Logging in by identity number

The service that stores an identity number and the service that looks for it encrypt the same text. One pads it only if
the last block is not full, the other always. The results are equal exactly for lengths other than 8 and 16.
-/

namespace SecurityFabric

open ShareMgnt UserManagement List

variable {library : DesLibrary}

variable {data : List UInt8}

private theorem desEncryptWithPadzero_eq_iff (text : String) :
    desEncryptWithPadzero library text = encodeDes library text .padNormal ↔ (utf8 text).length % 8 ≠ 0 := by
  constructor
  · intro same full
    have sameBytes := congrArg List.length (library.base64_injective same)
    rw [BlockChaining.length_encrypt, BlockChaining.length_encrypt, padNormal, padData, if_pos full, length_append,
      length_replicate] at sameBytes
    omega
  · intro partly
    rw [desEncryptWithPadzero, encodeDes, padNormal, padData, if_neg partly]

private theorem length_utf8EncodeChar_of_isIdcardLetter {letter : Char} (isLetter : isIdcardLetter letter = true) :
    (String.utf8EncodeChar letter).length = 1 := by
  rw [String.length_utf8EncodeChar, Char.utf8Size_eq_one_iff]
  rw [isIdcardLetter, decide_eq_true_iff] at isLetter
  have below {bound : Char} (ascii : bound ≤ '\x7f') (within : letter ≤ bound) : letter.val ≤ 127 :=
    Char.le_def.mp (Char.le_trans within ascii)
  rcases isLetter with ⟨_, within⟩ | ⟨_, within⟩ | ⟨_, within⟩ | within
  · exact below (by decide) within
  · exact below (by decide) within
  · exact below (by decide) within
  · fin_cases within
    all_goals decide

private theorem length_utf8_of_matches {number : String} (accepted : matchesIdcardNumber number = true) :
    (utf8 number).length = number.length := by
  rw [matchesIdcardNumber, decide_eq_true_iff, all_eq_true] at accepted
  have each :=
    map_congr_left fun letter mem => length_utf8EncodeChar_of_isIdcardLetter (accepted.2.2 letter mem)
  rw [utf8, length_flatMap, each, map_const', sum_replicate_nat, String.length_toList, Nat.mul_one]

private theorem addIsIdcardNumberValid_eq {idcardNumber : String}
    (accepted : matchesIdcardNumber (strip idcardNumber) = true) (raiseExcep : Bool) :
    addIsIdcardNumberValid library idcardNumber raiseExcep =
      .ok (desEncryptWithPadzero library (strip idcardNumber)) := by
  have nonempty : idcardNumber ≠ "" := by
    rintro rfl
    exact absurd accepted (by decide)
  rw [addIsIdcardNumberValid, if_neg nonempty]
  exact if_pos accepted

private theorem desEncryptWithPadzero_ne_empty {number : String} (accepted : matchesIdcardNumber number = true) :
    desEncryptWithPadzero library number ≠ "" := by
  intro isEmpty
  have noBytes := library.base64_injective (isEmpty.trans library.base64_nil.symm)
  have bytes := congrArg List.length noBytes
  have long : 8 ≤ (padData (utf8 number) 0 8).length := by
    have atLeast : 8 ≤ (utf8 number).length := by
      rw [length_utf8_of_matches accepted]
      exact (decide_eq_true_iff.mp accepted).1
    rw [padData]
    split
    · exact atLeast
    · rw [length_append]
      omega
  rw [BlockChaining.length_encrypt, length_nil] at bytes
  omega

/-- The one row with a stored number is found, for a text that is nobody's login name. -/
theorem findAccount_of_idCard {collation : Collation} {encode : String → String} {users : List UserAccount}
    {owner : UserAccount}
    {account : String} (mem : owner ∈ users) (stored : owner.idCardNumber = encode account)
    (nonempty : encode account ≠ "")
    (single : ∀ row ∈ users, collation.equalFold row.idCardNumber owner.idCardNumber = true → row = owner)
    (free : ∀ row ∈ users, ¬ collation.equalFold row.account account = true) (enablePrefixMatch : Bool) :
    findAccount collation encode users account true enablePrefixMatch = .ok (some owner) := by
  have nobody := UserDB.getUserInfoByAccount_eq_none free
  have found : UserDB.getUserInfoByIDCard collation users (encode account) = some owner := by
    rw [UserDB.getUserInfoByIDCard, if_neg nonempty]
    have isCandidate : owner ∈ users.filter fun row => collation.equalFold row.idCardNumber (encode account) := by
      rw [mem_filter, stored]
      exact ⟨mem, CaseFolding.equalFold_iff.mpr rfl⟩
    cases last : (users.filter fun row => collation.equalFold row.idCardNumber (encode account)).getLast? with
    | none =>
      rw [getLast?_eq_none_iff.mp last] at isCandidate
      cases isCandidate
    | some row =>
      obtain ⟨isRow, same⟩ := mem_filter.mp (mem_of_getLast? last)
      rw [← stored] at same
      rw [single row isRow same]
  simp [findAccount, nobody, found]
  rfl

/-- Whoever owns the number is found under it, and nobody else. -/
def FindsOwner (collation : Collation) (library : DesLibrary) (idcardNumber account : String) : Prop :=
  ∀ (users : List UserAccount) (owner : UserAccount) (stored : String) (raiseExcep enablePrefixMatch : Bool)
    (config : PwdLockConfig) (curTimeStamp : Int), owner ∈ users →
    addIsIdcardNumberValid library idcardNumber raiseExcep = .ok stored → owner.idCardNumber = stored →
    (∀ row ∈ users, collation.equalFold row.idCardNumber owner.idCardNumber = true → row = owner) →
    (∀ row ∈ users, ¬ collation.equalFold row.account account = true) →
    ∃ info after, getUserInfoByAccount collation (encodeDes library · .padNormal) config curTimeStamp users account true
      enablePrefixMatch = .ok (some info, after) ∧ info.id = owner.id

/-- The stored form of an accepted number is the one that is looked for, and its owner is found, exactly if its
length is not a multiple of the block size. -/
theorem id_card_login_iff (collation : Collation) {idcardNumber : String}
    (accepted : matchesIdcardNumber (strip idcardNumber) = true)
    (raiseExcep : Bool) :
    (addIsIdcardNumberValid library idcardNumber raiseExcep = .ok (encodeDes library (strip idcardNumber) .padNormal) ∧
        FindsOwner collation library idcardNumber (strip idcardNumber)) ↔ (strip idcardNumber).length % 8 ≠ 0 := by
  have agree := @desEncryptWithPadzero_eq_iff library (strip idcardNumber)
  rw [length_utf8_of_matches accepted] at agree
  rw [← agree, addIsIdcardNumberValid_eq accepted, Except.ok.injEq]
  refine ⟨And.left, fun same => ⟨same, ?_⟩⟩
  intro users owner stored raises enablePrefixMatch config curTimeStamp mem isStored owns single free
  rw [addIsIdcardNumberValid_eq accepted, Except.ok.injEq, same] at isStored
  have nonempty : encodeDes library (strip idcardNumber) .padNormal ≠ "" := by
    rw [← same]
    exact desEncryptWithPadzero_ne_empty accepted
  have found : findAccount collation (encodeDes library · .padNormal) users (strip idcardNumber)
    true enablePrefixMatch =
      .ok (some owner) := findAccount_of_idCard mem (owns.trans isStored.symm) nonempty single free enablePrefixMatch
  exact ⟨_, _, getUserInfoByAccount_of_find found, checkAccountLocked_id owner⟩

namespace Sample

theorem citizen_id_ne_empty : "user-1" ≠ "" := by decide

/-- A user with this identity number. -/
def citizen (idCardNumber : String) : UserAccount :=
  ⟨"user-1", "li", idCardNumber, .localUser, .enabled, .enabled, "", "", false, 0, 0, 0, .windowAD,
    "", citizen_id_ne_empty⟩

end Sample

/-- A number of nine letters. -/
theorem id_card_login_iff_nine : addIsIdcardNumberValid ShareMgnt.Sample.plainLibrary "123456789" true =
      .ok (encodeDes ShareMgnt.Sample.plainLibrary (strip "123456789") .padNormal) ∧
    FindsOwner .ascii ShareMgnt.Sample.plainLibrary "123456789" (strip "123456789") :=
  (id_card_login_iff .ascii (by decide) true).mpr (by decide)

/-- The user with a number of eight letters is not found under it. -/
theorem eight_letter_id_card_not_found :
    ∃ stored, addIsIdcardNumberValid ShareMgnt.Sample.plainLibrary "12345678" true = .ok stored ∧
    stored ≠ encodeDes ShareMgnt.Sample.plainLibrary "12345678" .padNormal ∧
    getUserInfoByAccount .ascii (encodeDes ShareMgnt.Sample.plainLibrary · .padNormal)
      ⟨false, false, 3, 10⟩ 0 [Sample.citizen stored]
      "12345678" true false = .ok (none, [Sample.citizen stored]) :=
  ⟨desEncryptWithPadzero ShareMgnt.Sample.plainLibrary "12345678", by decide, by decide, by decide⟩

end SecurityFabric
