import Mathlib.Data.List.Basic
import SecurityFabric.Model.UserManagement.Crypto
import SecurityFabric.Model.UserManagement.Department

/-! # Users, codes and settings

The rows of `t_user` and `t_vcode` that changing a password and logging in read, and the settings they depend on.
An exception undoes nothing that has been written. Times are in seconds, stored and compared in whole ones.
-/

namespace SecurityFabric.ShareMgnt

/-! ## Exceptions

`raise_exception` raises an exception with a number, the key of a message, and details. Errors of the interpreter are no
such exceptions, so the handlers that add details do not see them.
-/

/-- Error numbers of `ncTShareMgntError`, those of plugins among them, and `pythonError` for an error of the interpreter
or the database. -/
inductive ErrorCode where
  | invalidIdcardNumber
  | passwordIsInitial
  | checkVcodeIsNull
  | checkVcodeIsWrong
  | checkVcodeMoreThanTheLimit
  | checkVcodeIsTimeout
  | checkPasswordFailed
  | cannotModifyNonlocalUserPassword
  | cannotModifyControlPassword
  | invalidPassword
  | invalidStrongPassword
  | accountLocked
  | pwdThirdFailed
  | invalidAccountOrPassword
  | invalidParamter
  | forbiddenLogin
  | otpWrong
  | passwordNotSafe
  | passwordExpire
  | controledPasswordExpire
  | accountCannotLoginInSecretNode
  | userDisabled
  | userNotActivate
  | userNotExist
  | userNotAdmin
  | roleNotExist
  | roleMemberNotExist
  | invalidMember
  | invalidOperator
  | orgOrDepartNotExist
  | departmentNotExist
  | departmentHasExist
  | invalidDepartName
  | cannotManagerDepartment
  | thirdParty (num : Nat)
  | pythonError
deriving DecidableEq, Repr

/-- The details of an exception. -/
structure Detail where
  remainlockTime : Option Int := none
  isShowStatus : Option Bool := none
deriving DecidableEq, Repr

structure Failure where
  expNum : ErrorCode
  expMsg : String
  errDetail : Detail := {}
deriving DecidableEq, Repr

def Failure.python : Failure := ⟨.pythonError, "", {}⟩

/-! ## Identity numbers

An identity number is stripped of space, checked against a pattern, and stored in encrypted form. The padding mode of
the cipher adds zero bytes only if the last block is not full.
-/

/-- The letters that `strip` removes. -/
def isSpace (letter : Char) : Bool :=
  letter.toNat ∈ [0x09, 0x0a, 0x0b, 0x0c, 0x0d, 0x1c, 0x1d, 0x1e, 0x1f, 0x20, 0x85, 0xa0, 0x1680,
    0x2028, 0x2029, 0x202f,
    0x205f, 0x3000] ∨ (0x2000 ≤ letter.toNat ∧ letter.toNat ≤ 0x200a)

def strip (text : String) : String := String.ofList ((text.toList.dropWhile isSpace).reverse.dropWhile isSpace).reverse

/-- The data with the padding of the mode `PAD_NORMAL`. -/
def padData (data : List UInt8) (pad : UInt8) (blockSize : Nat) : List UInt8 :=
  if data.length % blockSize = 0 then data
  else data ++ List.replicate (blockSize - data.length % blockSize) pad

/-- The value in encrypted form; the key is the initial block too. -/
def desEncryptWithPadzero (library : DesLibrary) (value : String) : String :=
  library.base64 (BlockChaining.encrypt library.cipher library.key (padData (utf8 value) 0 8))

/-- The letters of identity numbers. -/
def isIdcardLetter (letter : Char) : Bool :=
  ('A' ≤ letter ∧ letter ≤ 'Z') ∨ ('a' ≤ letter ∧ letter ≤ 'z') ∨ ('0' ≤ letter ∧ letter ≤ '9') ∨
    letter ∈ ['/', '(', ')', '-']

/-- The pattern of identity numbers. -/
def matchesIdcardNumber (text : String) : Bool := 8 ≤ text.length ∧ text.length ≤ 18 ∧ text.toList.all isIdcardLetter

/-- What is stored for an identity number. -/
def addIsIdcardNumberValid (library : DesLibrary) (idcardNumber : String) (raiseExcep : Bool) : Except Failure String :=
  if idcardNumber = "" then pure ""
  else
    let stripedIdcardNumber := strip idcardNumber
    if matchesIdcardNumber stripedIdcardNumber then pure (desEncryptWithPadzero library stripedIdcardNumber)
    else if raiseExcep then throw ⟨.invalidIdcardNumber, "IDS_INVALID_IDCARDNUMBER", {}⟩
    else pure ""

def userAdmin : String := "266c6a42-6131-4d62-8f39-853e7093701c"
def userAudit : String := "94752844-BDD0-4B9E-8927-1CA8D427E699"
def userSystem : String := "234562BE-88FF-4440-9BFF-447F139871A2"
def userSecurit : String := "4bb41612-a040-11e6-887d-005056920bea"

def builtInAccounts : List String := [userAdmin, userAudit, userSystem, userSecurit]

/-- `f_auth_type`. -/
inductive UserType where
  | localUser
  | domain
  | third
  | other
deriving DecidableEq, Repr

/-- A row of `t_user`. -/
structure DbUser where
  (userId loginName displayName : String)
  idcardNumber : Option String
  authType : UserType
  (password sha2Password desPassword ntlmPassword : String)
  pwdControl : Bool
  (pwdTimestamp pwdErrorCnt pwdErrorLatestTimestamp : Int)
  enabled : Bool
  autoDisableStatus : Nat
  isActivate : Bool
  ldapServerType : Nat
  domainPath : String
deriving DecidableEq, Repr

inductive VcodeType where
  | imageVcode
  | numVcode
  | daulAuthVcode
deriving DecidableEq, Repr

/-- A row of `t_vcode`. -/
structure VcodeInfo where
  (uuid vcode : String)
  vcodeType : VcodeType
  (vcodeErrorCnt createtime : Int)
deriving DecidableEq, Repr

/-- The tables. -/
structure Tables where
  users : List DbUser
  vcodes : List VcodeInfo
deriving DecidableEq, Repr

/-- `ncTUsrmPasswordConfig`. -/
structure PasswordConfig where
  expireTime : Int
  strongStatus : Bool
  strongPwdLength : Nat
  lockStatus : Bool
  (passwdErrCnt passwdLockTime : Int)
deriving DecidableEq, Repr

/-- `ncTVcodeConfig`. -/
structure VcodeConfig where
  isEnable : Bool
  passwdErrCnt : Int
deriving DecidableEq, Repr

/-- The password of new users, in the forms it is stored in. -/
structure UserDefaultPassword where
  (md5Pwd sha2Pwd : String)
deriving DecidableEq, Repr

/-- What the service is configured with, how the database compares names, and the functions of libraries on texts. -/
structure Settings where
  passwordConfig : PasswordConfig
  vcodeConfig : VcodeConfig
  (idCardLoginStatus enableDesPassword enableThirdPwdLock : Bool)
  userDefaultPassword : UserDefaultPassword
  adminDefaultPasswd : String
  collation : Collation
  library : DesLibrary
  (upper lower encryptPwd sha2Encrypt desEncrypt ntlmMd4 : String → String)

/-- A function of the service. -/
abbrev Service := EStateM Failure Tables

/-- Raises what a check raises. -/
def raised {α : Type} (check : Except Failure α) : Service α :=
  match check with
  | .ok value => pure value
  | .error failure => throw failure

variable (settings : Settings)

def userByLoginName (users : List DbUser) (account : String) : Option DbUser :=
  users.find? fun row => settings.collation.equalFold row.loginName account

/-- A user without an identity number is never found. -/
def userByIdcard (users : List DbUser) (account : String) : Option DbUser :=
  users.find? fun row => row.idcardNumber.any (settings.collation.equalFold · account)

def userById (users : List DbUser) (userId : String) : Option DbUser := users.find? fun row => row.userId = userId

/-! # Departments by their paths

The service works on the tables of the organisation that user management reads too. It finds the parent of a department
and the departments below it by its path. Two groups have ids like departments: the users in no department, and all
users.

Statements compare ids as the collation of the database does, which may ignore case and blanks at the end; the service
compares them letter by letter.
-/

open UserManagement (DepartmentDBInfo Role pathIDs pathLike unDistribute)

/-- What the database makes of texts, and of the ids of roles, before it compares them. -/
structure SqlEquality where
  text : String → String
  role : Role → Role

/-- The group of all users. -/
def allUserGroup : String := "-2"

/-- Five groups of hexadecimal digits; `isHex` tells which texts Python's `int` reads to the base 16. -/
def checkIsUuid (isHex : String → Bool) (value : String) : Bool :=
  let uuidSliced := GoStrings.split value '-'
  uuidSliced.map String.length = [8, 4, 4, 4, 12] ∧ uuidSliced.all isHex

variable (sql : SqlEquality) (departments : List DepartmentDBInfo)

/-- `check_depart_exists`, for organisations too if these are included. The two groups are not looked for. -/
def checkDepartExists (departId : String) (includeOrgan : Bool) : Except Failure Unit :=
  if departId = unDistribute ∨ departId = allUserGroup then pure ()
  else if (departments.filter fun info => sql.text info.id = sql.text departId ∧
    (includeOrgan ∨ info.isRoot ≠ 1)).length = 1 then pure ()
  else if includeOrgan then throw ⟨.orgOrDepartNotExist, "depart or organ not exists", {}⟩
  else throw ⟨.departmentNotExist, "depart not exists", {}⟩

def getDepartmentPathByDepId (departId : String) : String :=
  if departId = unDistribute then "-1"
  else ((departments.find? fun info => sql.text info.id = sql.text departId).map (·.path)).getD ""

/-- The last but one id of the path, or nothing for an organisation. -/
def getParentId (departId : String) : String :=
  let idList := pathIDs (getDepartmentPathByDepId sql departments departId)
  if 1 < idList.length then idList.getD (idList.length - 2) "" else ""

/-- Climb from parent to parent until one of the ids is met. -/
def climbs (ids : List String) : Nat → String → Bool
  | 0, _ => false
  | levels + 1, parentId =>
    if parentId = "" then false
    else if parentId ∈ ids then true
    else climbs ids levels (getParentId sql departments parentId)

/-- Whether one of the ids is that of a department above. There are fewer of these than ids on the path. -/
def isDescendantOfIds (departId : String) (ids : List String) : Bool :=
  climbs sql departments ids (pathIDs (getDepartmentPathByDepId sql departments departId)).length
    (getParentId sql departments departId)

/-- The department and all below it. -/
def getAllDepartids (departId : String) : List String :=
  if departId = unDistribute then []
  else
    let departPath := getDepartmentPathByDepId sql departments departId
    if departPath = "" then []
    else (departments.filter fun info => pathLike departPath info.path).map (·.id)

/-! # Users and a code for examples

A library whose cipher changes nothing, settings under which passwords are stored as they are, local users and a code.
-/

namespace Sample

/-- A library whose cipher changes nothing and whose text has a letter for each byte. -/
def plainLibrary : DesLibrary where
  cipher := id
  key := fun _ => 0
  base64 := fun bytes => String.ofList (bytes.map fun byte => Char.ofNat byte.toNat)
  base64_injective := by
    intro first second same
    have letters := String.ofList_inj.mp same
    refine List.map_injective_iff.mpr (fun one other equal => ?_) letters
    have letter (byte : UInt8) : (Char.ofNat byte.toNat).toNat = byte.toNat := by
      rw [Char.ofNat, dif_pos (.inl (lt_trans byte.toNat_lt (by decide)))]
      rfl
    have numbers := congrArg Char.toNat equal
    rw [letter, letter] at numbers
    exact UInt8.toNat_inj.mp numbers
  base64_nil := rfl

/-- Passwords of six letters, stored as they are. -/
def plainSettings (passwordConfig : PasswordConfig) : Settings where
  passwordConfig := passwordConfig
  vcodeConfig := ⟨false, 3⟩
  idCardLoginStatus := false
  enableDesPassword := false
  enableThirdPwdLock := false
  userDefaultPassword := ⟨"", ""⟩
  adminDefaultPasswd := ""
  collation := .ascii
  library := plainLibrary
  upper := id
  lower := id
  encryptPwd := id
  sha2Encrypt := id
  desEncrypt := id
  ntlmMd4 := id

/-- A local user with this name as id, login name and password. -/
def localUser (name : String) (pwdErrorCnt : Int) : DbUser where
  userId := name
  loginName := name
  displayName := name
  idcardNumber := none
  authType := .localUser
  password := ""
  sha2Password := name
  desPassword := ""
  ntlmPassword := ""
  pwdControl := false
  pwdTimestamp := 0
  pwdErrorCnt := pwdErrorCnt
  pwdErrorLatestTimestamp := 0
  enabled := true
  autoDisableStatus := 0
  isActivate := true
  ldapServerType := 0
  domainPath := ""

/-- Settings without locks. -/
def withoutLock : Settings := plainSettings ⟨-1, false, 8, false, 3, 10⟩

/-- The code that was sent to somebody. -/
def resetCode : VcodeInfo := ⟨"uuid-1", "123456", .numVcode, 0, 0⟩

def isHexDigits (text : String) : Bool := text.toList.all fun letter => letter.isDigit ∨ letter ∈ "abcdefABCDEF".toList

def chief : String := "00000000-0000-4000-8000-00000000000a"
def deputy : String := "00000000-0000-4000-8000-00000000000b"
def clerk : String := "00000000-0000-4000-8000-00000000000c"

end Sample

/-! # Net masks of `lib.py`

`check_net_mask` turns the number of a mask round: it writes the negated number in binary digits, flips the digits, adds
one and asks for a power of two.
-/

/-- `25[0-5]|2[0-4][0-9]|[01]?[0-9][0-9]?`, for a whole part. -/
def matchOctet : List Char → Bool
  | [a, b, c] => a = '2' && b = '5' && '0' ≤ c && c ≤ '5' || a = '2' && '0' ≤ b && b ≤ '4' && c.isDigit ||
    (a = '0' || a = '1') && b.isDigit && c.isDigit
  | [a, b] => a.isDigit && b.isDigit
  | [a] => a.isDigit
  | _ => false

/-- The parts between the dots; `$` also matches before a newline at the end, and `inet_aton` lets it stand. -/
def netParts (ip : List Char) : List (List Char) := (if ip.getLast? = some '\n' then ip.dropLast else ip).splitOn '.'

def checkNetIp (ipStr : List Char) : Bool := (netParts ipStr).length = 4 && (netParts ipStr).all matchOctet

/-- A part as `inet_aton` reads it: digits behind a zero are octal. -/
def readOctet (part : List Char) : Option Nat :=
  let num := match part with
    | '0' :: digits => if digits.all fun c => '0' ≤ c && c ≤ '7' then some (Nat.ofDigitChars 8 digits 0) else none
    | digits => some (Nat.ofDigitChars 10 digits 0)
  num.filter (· ≤ 255)

/-- The number of an address, none where `inet_aton` raises. -/
def inetAton (ip : List Char) : Option Nat :=
  match netParts ip with
  | [a, b, c, d] => do pure ((((← readOctet a) * 256 + (← readOctet b)) * 256 + (← readOctet c)) * 256 +
      (← readOctet d))
  | _ => none

/-- The binary digits of the number, flipped. -/
def flipDigits (maskNum : Nat) : List Char := (Nat.toDigits 2 maskNum).map fun b => if b = '0' then '1' else '0'

def checkNetMask (mask : List Char) : Bool :=
  if checkNetIp mask then
    (inetAton mask).any fun maskNum =>
      if maskNum = 0 then false
      else
        -- `bin` writes the number `~mask_num + 1` as a sign, a mark and the digits of `mask_num`
        let maskNum := Nat.ofDigitChars 2 (flipDigits maskNum) 0 + 1
        maskNum &&& (maskNum - 1) = 0
  else false

/-! # The database lock

`acquire_lock` inserts the row of a lock; if that fails, it takes the row over once its lease has run out.
`release_lock` deletes the row of its own holder. Each statement is executed at a time of the database's clock, which
does not go back, and an INSERT fails only because the row is there.
-/

/-- A row of `t_distributed_lock`. -/
structure LockRow (Holder : Type) where
  hoderId : Holder
  expireTime : Int
deriving DecidableEq, Repr

/-- The row of one `f_lock_key` and the time of the last statement on it. -/
structure LockTable (Holder : Type) where
  row : Option (LockRow Holder)
  now : Int

/-- A holder is outside of `acquire_lock`, with what it last returned, or behind its INSERT. -/
inductive LockPhase where
  | outside (bGetLock : Bool)
  | insertFailed (durationSec : Int)
deriving DecidableEq, Repr

inductive LockStatement where
  | insert (durationSec : Int)
  | update (durationSec : Int)
  | delete
deriving DecidableEq, Repr

variable {Holder : Type} [DecidableEq Holder]

/-- A statement of `acquire_lock` or `release_lock` at a time. -/
def lockAdvance (holderId : Holder) (choice : Int × LockStatement) (table : LockTable Holder) (phase : LockPhase) :
    Option (LockTable Holder × LockPhase) :=
  let (now, statement) := choice
  if now < table.now then none
  else match statement, phase with
    | .insert durationSec, .outside _ =>
      some (if table.row.isNone then (⟨some ⟨holderId, now + durationSec⟩, now⟩, .outside true)
        else (⟨table.row, now⟩, .insertFailed durationSec))
    | .update durationSec, .insertFailed duration =>
      if durationSec ≠ duration then none
      else some (if table.row.any (·.expireTime < now) then (⟨some ⟨holderId, now + durationSec⟩, now⟩, .outside true)
        else (⟨table.row, now⟩, .outside false))
    | .delete, .outside _ => some (⟨table.row.filter (·.hoderId ≠ holderId), now⟩, .outside false)
    | _, _ => none

end SecurityFabric.ShareMgnt
