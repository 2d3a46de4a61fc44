import SecurityFabric.Proofs.ShareServer.PermManager

/-! # The decision on a document

A user has every permission on a document they own or that lies below one they own, and otherwise the permissions that
the nearest level allows. `getPermission` returns just these. `checkPermission` compares a request with them too, and
for a request to see a folder, or to see and read it, it also looks for a document below whose own rows allow what is
asked for. Two permissions may come from two levels, and no row allows both.
-/

namespace SecurityFabric.ShareServer

section

open List

variable {size : Nat}
variable {other : GnsPath size}

section Rule

variable (server : PermServer size) (userId accessIp : String) (accessToken : List String) (docId : GnsPath size)
  (reqPerm : PermValue)

/-- What a real-name user may do with a document. -/
def Effective (bit : Nat) : Prop :=
  Owns server.owners userId docId ∨ ∃ k, AllowedAt server.perms accessToken docId bit k

/-- All that is requested may be done. -/
def Contained : Prop := ∀ bit, reqPerm.getLsbD bit = true → Effective server userId accessToken docId bit

/-- The limits by address let the user in. -/
def Admitted : Prop := server.getNetDocsLimitStatus = true → server.checkNetDocLimit (getCIDPath docId) accessIp = true

/-- The requests that a document below may satisfy. -/
def Descends (reqPerm : PermValue) : Prop := reqPerm = acsApDisplay ∨ reqPerm = acsApDisplay ||| acsApRead

/-- Both answers follow the rule. An owner is given all permissions that there are. -/
structure Decided : Prop where
  permission : ∀ bit, (Owns server.owners userId docId → acsCpMax.getLsbD bit = true) →
    ((server.getPermission userId accessToken docId).allowValue.getLsbD bit = true ↔
    Effective server userId accessToken docId bit)
  check : server.checkPermission userId accessIp false accessToken docId reqPerm = .checkOk ↔
    Admitted server accessIp docId ∧ (Contained server userId accessToken docId reqPerm ∨
      Descends reqPerm ∧ ∃ other, below docId other = true ∧ Contained server userId accessToken other reqPerm)

def displayBit : Nat := 0

def readBit : Nat := 2

/-- A document below is allowed the two permissions by two levels, not both of them above it. -/
def SplitBelow : Prop := ∃ other, below docId other = true ∧ ∃ j k, j ≠ k ∧ (docId.length < j ∨ docId.length < k) ∧
    AllowedAt server.perms accessToken other displayBit j ∧ AllowedAt server.perms accessToken other readBit k

def OwnsBelow : Prop := ∃ row ∈ server.owners, row.ownerId = userId ∧ below docId row.gnsPath = true

/-- If someone asks to see and read a folder, is let in and may not do both, and two levels together allow both on a
document below, then there is also a document below that they own, or on which the same rows allow both. -/
def OneLevelSuffices : Prop :=
  reqPerm = acsApDisplay ||| acsApRead → Admitted server accessIp docId →
    ¬ Contained server userId accessToken docId reqPerm →
    SplitBelow server accessToken docId → OwnsBelow server userId docId ∨
      ∃ other, below docId other = true ∧ OwnAllows server.perms accessToken other displayBit ∧
        OwnAllows server.perms accessToken other readBit

/-- What the check finds among the documents below. -/
def FoundBelow : Prop := OwnsBelow server userId docId ∨
    ∃ other, below docId other = true ∧ ∀ bit, reqPerm.getLsbD bit = true → OwnAllows server.perms accessToken other bit

end Rule

variable {bit : Nat}

private theorem getLsbD_display : acsApDisplay.getLsbD bit = true ↔ bit = displayBit := by
  constructor
  · intro set
    exact (by decide : ∀ bit < 32, acsApDisplay.getLsbD bit = true →
      bit = displayBit) bit (BitVec.lt_of_getLsbD set) set
  · rintro rfl
    decide

private theorem getLsbD_displayRead :
    (acsApDisplay ||| acsApRead).getLsbD bit = true ↔ bit = displayBit ∨ bit = readBit := by
  constructor
  · intro set
    exact (by decide : ∀ bit < 32, (acsApDisplay ||| acsApRead).getLsbD bit = true →
      bit = displayBit ∨ bit = readBit) bit
      (BitVec.lt_of_getLsbD set) set
  · rintro (rfl | rfl) <;> decide

private theorem exists_bit {reqPerm : PermValue} (asked : reqPerm ≠ 0) : ∃ bit, reqPerm.getLsbD bit = true := by
  by_contra none
  exact asked (eq_zero_iff.mpr fun bit => (Bool.not_eq_true _).mp fun set => none ⟨bit, set⟩)

section Decision

variable {server : PermServer size} {userId accessIp : String} {accessToken : List String} {docId : GnsPath size}
  {reqPerm : PermValue}

private theorem contained_iff : Contained server userId accessToken docId reqPerm ↔ Owns server.owners userId docId ∨
    ∀ bit, reqPerm.getLsbD bit = true → ∃ k, AllowedAt server.perms accessToken docId bit k := by
  by_cases owns : Owns server.owners userId docId
  · exact iff_of_true (fun _ _ => .inl owns) (.inl owns)
  · rw [or_iff_right owns]
    exact forall_congr' fun bit => imp_congr_right fun _ => or_iff_right owns

private theorem ownAllows_of_deeper {k : Nat} (inside : below docId other = true)
    (allowed : AllowedAt server.perms accessToken other bit k)
    (deeper : docId.length < k) :
    below docId (other.take k) = true ∧ OwnAllows server.perms accessToken (other.take k) bit :=
  ⟨below_take inside deeper allowed.upTo, allowed.allows⟩

private theorem owns_or_ownsBelow (inside : below docId other = true) (owns : Owns server.owners userId other) :
    Owns server.owners userId docId ∨ OwnsBelow server userId docId := by
  obtain ⟨row, mem, isOwner, k, positive, upTo, isPath⟩ := owns
  rcases Nat.lt_or_ge docId.length k with deeper | notDeeper
  · exact .inr ⟨row, mem, isOwner, isPath ▸ below_take inside deeper upTo⟩
  · exact .inl ⟨row, mem, isOwner, k, positive, notDeeper, isPath.trans (take_of_below inside notDeeper)⟩

private theorem OwnsBelow.exists_contained (owns : OwnsBelow server userId docId) (reqPerm : PermValue) :
    ∃ other, below docId other = true ∧ Contained server userId accessToken other reqPerm := by
  obtain ⟨row, mem, isOwner, inside⟩ := owns
  have real := length_pos_iff.mpr (ne_nil_of_below inside)
  exact ⟨row.gnsPath, inside, fun _ _ => .inl ⟨row, mem, isOwner, _, real, le_refl _, take_length.symm⟩⟩

private theorem FoundBelow.exists_contained (found : FoundBelow server userId accessToken docId reqPerm) :
    ∃ other, below docId other = true ∧ Contained server userId accessToken other reqPerm := by
  rcases found with owns | ⟨other, inside, allows⟩
  · exact owns.exists_contained reqPerm
  · exact ⟨other, inside, fun bit set => .inr ⟨_, .of_ownAllows (ne_nil_of_below inside) (allows bit set)⟩⟩

/-- What a document below has that the folder does not is found, unless two levels allow it. -/
theorem foundBelow_or_splitBelow (searched : Descends reqPerm)
    (notHere : ¬ Contained server userId accessToken docId reqPerm)
    (inside : below docId other = true) (contained : Contained server userId accessToken other reqPerm) :
    FoundBelow server userId accessToken docId reqPerm ∨ reqPerm = acsApDisplay ||| acsApRead ∧
    SplitBelow server accessToken docId := by
  rw [contained_iff] at notHere contained
  obtain ⟨notOwner, notAllowed⟩ := not_or.mp notHere
  rcases contained with owns | allowed
  · exact .inl (.inl ((owns_or_ownsBelow inside owns).resolve_left notOwner))
  rcases searched with rfl | rfl
  · obtain ⟨k, atLevel⟩ := allowed displayBit (getLsbD_display.mpr rfl)
    have deeper : docId.length < k := by
      by_contra notDeeper
      refine notAllowed fun bit set => ⟨k, ?_⟩
      rw [getLsbD_display.mp set]
      exact atLevel.of_below inside (not_lt.mp notDeeper)
    obtain ⟨isBelow, allows⟩ := ownAllows_of_deeper inside atLevel deeper
    exact .inl (.inr ⟨_, isBelow, fun bit set => getLsbD_display.mp set ▸ allows⟩)
  · obtain ⟨j, display⟩ := allowed displayBit (getLsbD_displayRead.mpr (.inl rfl))
    obtain ⟨k, read⟩ := allowed readBit (getLsbD_displayRead.mpr (.inr rfl))
    have deeper : docId.length < j ∨ docId.length < k := by
      by_contra neither
      obtain ⟨notDeeperJ, notDeeperK⟩ := not_or.mp neither
      refine notAllowed fun bit set => ?_
      rcases getLsbD_displayRead.mp set with rfl | rfl
      · exact ⟨j, display.of_below inside (not_lt.mp notDeeperJ)⟩
      · exact ⟨k, read.of_below inside (not_lt.mp notDeeperK)⟩
    by_cases same : j = k
    · subst same
      obtain ⟨isBelow, allowsDisplay⟩ := ownAllows_of_deeper inside display (deeper.elim id id)
      refine .inl (.inr ⟨_, isBelow, fun bit set => ?_⟩)
      rcases getLsbD_displayRead.mp set with rfl | rfl
      · exact allowsDisplay
      · exact read.allows
    · exact .inr ⟨rfl, other, inside, j, k, same, deeper, display, read⟩

private theorem getPermission_bits (apart : DisableApart server.perms accessToken) (bit : Nat)
    (isPermission : Owns server.owners userId docId → acsCpMax.getLsbD bit = true) :
    (server.getPermission userId accessToken docId).allowValue.getLsbD bit = true ↔
    Effective server userId accessToken docId bit := by
  rw [PermServer.getPermission]
  by_cases owns : Owns server.owners userId docId
  · rw [if_pos (isOwner_iff.mpr owns)]
    exact iff_of_true (isPermission owns) (.inl owns)
  · rw [if_neg (mt isOwner_iff.mp owns), calcPerm_eq_foldl, (foldl_settle_bits _ bit).1,
      nearest_configs _ apart bit, nearest_wordAt_iff]
    exact (or_iff_right owns).symm

private theorem docPerm_allowValue {path : GnsPath size} :
    (docPerm server.perms accessToken path).allowValue.getLsbD bit = true ↔
    OwnAllows server.perms accessToken path bit := by
  obtain ⟨deny, allow⟩ := rowsLevel_bits server.perms accessToken path bit
  rw [OwnAllows, ← deny, ← allow, docPerm, getLsbD_without]
  simp

/-- The own rows of a document below allow what is requested. -/
theorem any_subObjs_iff (real : docId ≠ []) (asked : reqPerm ≠ 0) :
    ((getAccessPermsOfSubObjs server.permOrder server.perms docId accessToken false).any fun perm =>
      reqPerm &&& ~~~perm.allowValue = 0) = true ↔
    ∃ other, below docId other = true ∧ ∀ bit, reqPerm.getLsbD bit = true →
    OwnAllows server.perms accessToken other bit := by
  have deep : getPathDepth docId ≠ 0 := fun none => real (length_eq_zero_iff.mp none)
  have allows (path : GnsPath size) : reqPerm &&& ~~~(docPerm server.perms accessToken path).allowValue = 0 ↔
      ∀ bit, reqPerm.getLsbD bit = true → OwnAllows server.perms accessToken path bit := by
    rw [eq_zero_iff]
    refine forall_congr' fun bit => ?_
    rw [← docPerm_allowValue, getLsbD_without]
    cases reqPerm.getLsbD bit <;> simp
  by_cases some : accessToken = []
  · subst some
    refine iff_of_false (fun found => by simp [getAccessPermsOfSubObjs] at found) ?_
    rintro ⟨other, -, all⟩
    obtain ⟨bit, set⟩ := exists_bit asked
    obtain ⟨row, -, -, inToken, -⟩ := (all bit set).1
    exact not_mem_nil inToken
  · simp only [any_eq_true, decide_eq_true_eq, mem_getAccessPermsOfSubObjs server.permOrder some]
    constructor
    · rintro ⟨_, ⟨row, -, -, inside, rfl⟩, all⟩
      exact ⟨row.docId, inside.resolve_left deep, (allows _).mp all⟩
    · rintro ⟨other, inside, all⟩
      obtain ⟨bit, set⟩ := exists_bit asked
      obtain ⟨row, stored, rfl, inToken, -⟩ := (all bit set).1
      exact ⟨_, ⟨row, stored, .inr inToken, .inr inside, rfl⟩, (allows _).mpr all⟩

private theorem getSubObjs_iff (real : docId ≠ []) :
    (!(getSubObjsByUserId server.owners docId userId).isEmpty) = true ↔ OwnsBelow server userId docId := by
  have deep : getPathDepth docId ≠ 0 := fun none => real (length_eq_zero_iff.mp none)
  rw [Bool.not_eq_true', isEmpty_eq_false_iff, getSubObjsByUserId, ne_eq]
  simp [OwnsBelow, or_iff_right deep]

/-- What the check comes to. -/
theorem checkPermission_iff (apart : DisableApart server.perms accessToken) (real : docId ≠ []) (asked : reqPerm ≠ 0) :
    server.checkPermission userId accessIp false accessToken docId reqPerm = .checkOk ↔
      Admitted server accessIp docId ∧ (Contained server userId accessToken docId reqPerm ∨
        Descends reqPerm ∧ FoundBelow server userId accessToken docId reqPerm) := by
  have admitted : (!false && server.getNetDocsLimitStatus && !server.checkNetDocLimit (getCIDPath docId) accessIp) =
    true ↔
      ¬ Admitted server accessIp docId := by
    rw [Admitted]
    cases server.getNetDocsLimitStatus <;> cases server.checkNetDocLimit (getCIDPath docId) accessIp <;> simp
  have checked : checkPerm (getPermConfigsByAccessToken server.configOrder server.perms docId accessToken true false)
    reqPerm = .checkOk ↔
      ∀ bit, reqPerm.getLsbD bit = true → ∃ k, AllowedAt server.perms accessToken docId bit k := by
    rw [checkPerm_eq_checkOk_iff _ asked]
    refine forall_congr' fun bit => imp_congr_right fun _ => ?_
    rw [nearest_configs _ apart bit, nearest_wordAt_iff]
  rw [PermServer.checkPermission, contained_iff]
  by_cases isAdmitted : Admitted server accessIp docId
  swap
  · rw [if_pos (admitted.mpr isAdmitted)]
    exact iff_of_false (fun same => by cases same) fun both => isAdmitted both.1
  rw [if_neg (mt admitted.mp (not_not.mpr isAdmitted)), and_iff_right isAdmitted]
  by_cases owns : Owns server.owners userId docId
  · rw [if_pos (by rw [isOwner_iff.mpr owns]; rfl)]
    exact iff_of_true rfl (.inl (.inl owns))
  rw [if_neg (by simpa using mt isOwner_iff.mp owns), or_iff_right owns, ← checked]
  by_cases here : checkPerm (getPermConfigsByAccessToken server.configOrder server.perms docId accessToken true false)
    reqPerm = .checkOk
  · rw [if_pos (.inr (.inl here))]
    exact iff_of_true here (.inl here)
  by_cases searched : Descends reqPerm
  · rw [if_neg (by rcases searched with rfl | rfl <;> simp [here]), or_iff_right here, and_iff_right searched]
    have found : (!(getSubObjsByUserId server.owners docId userId).isEmpty) = true ∨
        ((getAccessPermsOfSubObjs server.permOrder server.perms docId accessToken false).any fun perm =>
          reqPerm &&& ~~~perm.allowValue = 0) = true ↔ FoundBelow server userId accessToken docId reqPerm :=
      or_congr (getSubObjs_iff real) (any_subObjs_iff real asked)
    rw [← found]
    split_ifs with owned allowed
    · exact iff_of_true rfl (.inl owned)
    · exact iff_of_true rfl (.inr allowed)
    · exact iff_of_false here (not_or.mpr ⟨owned, allowed⟩)
  · rw [if_pos (.inr (.inr (not_or.mp searched)))]
    exact iff_of_false here fun either => either.elim here fun both => searched both.1

end Decision

/-- The answers follow the rule just where one level is enough. -/
theorem decided_iff (server : PermServer size) (userId accessIp : String) (accessToken : List String)
    (docId : GnsPath size)
    (reqPerm : PermValue) (apart : DisableApart server.perms accessToken) (real : docId ≠ []) (asked : reqPerm ≠ 0) :
    Decided server userId accessIp accessToken docId reqPerm ↔
    OneLevelSuffices server userId accessIp accessToken docId reqPerm := by
  have code := @checkPermission_iff size server userId accessIp accessToken docId reqPerm apart real asked
  constructor
  · rintro ⟨-, check⟩ rfl admitted notHere ⟨other, inside, j, k, -, -, display, read⟩
    have contained : Contained server userId accessToken other (acsApDisplay ||| acsApRead) := by
      intro bit set
      rcases getLsbD_displayRead.mp set with rfl | rfl
      · exact .inr ⟨j, display⟩
      · exact .inr ⟨k, read⟩
    obtain ⟨-, found⟩ := code.mp (check.mpr ⟨admitted, .inr ⟨.inr rfl, other, inside, contained⟩⟩)
    refine (found.resolve_left notHere).2.imp_right fun ⟨other, inside, allows⟩ => ⟨other, inside, ?_, ?_⟩
    · exact allows _ (getLsbD_displayRead.mpr (.inl rfl))
    · exact allows _ (getLsbD_displayRead.mpr (.inr rfl))
  · intro suffices'
    refine ⟨getPermission_bits apart, code.trans (and_congr_right fun admitted => ?_)⟩
    constructor
    · exact Or.imp_right fun both => ⟨both.1, both.2.exists_contained⟩
    · rintro (here | ⟨searched, other, inside, contained⟩)
      · exact .inl here
      by_cases notHere : Contained server userId accessToken docId reqPerm
      · exact .inl notHere
      refine .inr ⟨searched, ?_⟩
      rcases foundBelow_or_splitBelow searched notHere inside contained with found | ⟨rfl, split⟩
      · exact found
      refine (suffices' rfl admitted notHere split).imp_right fun ⟨other, inside, display, read⟩ =>
        ⟨other, inside, fun bit set => ?_⟩
      rcases getLsbD_displayRead.mp set with rfl | rfl
      · exact display
      · exact read

/-! ## A small permission server

A library and a folder in it. The user may read the library and see the folder.
-/

namespace Sample

def name (letter : Char) (plain : letter ≠ '/' ∧ letter ≠ ':') : GnsName 0 :=
  ⟨[letter], rfl, fun _ isLetter => mem_singleton.mp isLetter ▸ plain⟩

def library : GnsName 0 := name 'a' (by decide)

def folder : GnsName 0 := name 'b' (by decide)

instance {size : Nat} : Std.Total (@deepestFirst size) :=
  ⟨fun first second => by
    unfold deepestFirst
    cases first.disableInherit <;> cases second.disableInherit <;> simp <;> omega⟩

instance {size : Nat} : IsTrans (DbPermConfig size) deepestFirst :=
  ⟨fun first second third => by
    unfold deepestFirst
    rintro (longer | ⟨same, later⟩) (longer' | ⟨same', later'⟩)
    · exact .inl (by omega)
    · exact .inl (by omega)
    · exact .inl (by omega)
    · exact .inr ⟨same.trans same', later' ∘ later⟩⟩

instance {size : Nat} : Std.Total (@shallowFirst size) := ⟨fun _ _ => Nat.le_total ..⟩

instance {size : Nat} : IsTrans (DbAccessPerm size) shallowFirst := ⟨fun _ _ _ => le_trans⟩

def shared : PermServer 0 where
  perms := [⟨[library], "user", .allow, acsApRead⟩, ⟨[library, folder], "user", .allow, acsApDisplay⟩]
  owners := []
  getNetDocsLimitStatus := false
  checkNetDocLimit _ _ := false
  filterByNetDocLimit _ _ := []
  configOrder := .insertion _
  permOrder := .insertion _

/-- The folder does not inherit. -/
def closed : PermServer 0 := { shared with perms := shared.perms ++ [⟨[library, folder], "", .disableInherit, 0⟩] }

end Sample

open ShareServer.Sample (closed library folder) in
/-- What may be read in the library may not be read in the folder. -/
theorem decided_iff_sample : Decided closed "user" "" ["user"] [library, folder] acsApRead ∧
    closed.checkPermission "user" "" false ["user"] [library] acsApRead = .checkOk ∧
    closed.checkPermission "user" "" false ["user"] [library, folder] acsApRead ≠ .checkOk := by
  refine ⟨(decided_iff _ _ _ _ _ _ (by decide) (by decide) (by decide)).mpr fun both => ?_, by decide, by decide⟩
  exact absurd both (by decide)

/-- The library may be read and a folder in it seen, so that the folder may be seen and read, but the library may not.
-/
theorem display_read_missed :
    Sample.shared.checkPermission "user" "" false ["user"] [Sample.library] (acsApDisplay ||| acsApRead) ≠ .checkOk ∧
      Admitted Sample.shared "" [Sample.library] ∧ below [Sample.library] [Sample.library, Sample.folder] = true ∧
      Contained Sample.shared "user" ["user"] [Sample.library, Sample.folder] (acsApDisplay ||| acsApRead) := by
  refine ⟨by decide, fun limited => ?_, by decide, fun bit set => ?_⟩
  · cases limited
  · rcases getLsbD_displayRead.mp set with rfl | rfl
    · exact .inr ⟨2, .of_ownAllows (by decide) (by decide)⟩
    · refine .inr ⟨1, by decide, by decide, by decide, fun j above within => ?_, fun j above within => ?_⟩
      · rw [show j = 2 from le_antisymm within above]
        decide
      · rw [show j = 2 from le_antisymm within above]
        decide

end

/-! # The list of entry documents

The list begins with the documents that a user owns or whose own rows let them see it, and drops those that lie below
another. Texts that begin alike stand together in the order of texts, so one pass that remembers the last document finds
them all.

What is left has no owned document above it, and the loop over the levels above settles the same levels as `calcPerm`.
-/

section

open List SqlText

variable {size : Nat}

variable {path : GnsPath size}

private theorem text_eq (real : path ≠ []) :
    path.text = "gns:/".toList ++ path.flatMap fun name => '/' :: name.letters := by
  have joined (name : GnsName size) (rest : GnsPath size) :
      intercalate ['/'] ((name :: rest).map (·.letters)) = name.letters ++ rest.flatMap fun name =>
      '/' :: name.letters := by
    induction rest generalizing name with
    | nil => simp
    | cons next rest ih =>
      rw [map_cons, map_cons, intercalate_cons_cons, ← map_cons, ih, flatMap_cons, append_assoc]
      rfl
  obtain ⟨name, rest, rfl⟩ := exists_cons_of_ne_nil real
  rw [GnsPath.text, joined]
  rfl

variable {other : GnsPath size}

private theorem text_prefix_iff : path.text <+: other.text ↔ path <+: other := by
  by_cases real : path = []
  · subst real
    exact iff_of_true (prefix_append _ _) nil_prefix
  by_cases otherReal : other = []
  · subst otherReal
    refine iff_of_false (fun begins => ?_) (mt prefix_nil.mp real)
    have longer := length_text real
    have positive := Nat.mul_le_mul_right (size + 2) (length_pos_iff.mpr real)
    have notLonger : path.text.length ≤ 6 := begins.length_le
    omega
  · have injective : Function.Injective fun name : GnsName size => '/' :: name.letters := by
      intro first second same
      cases second
      cases same
      rfl
    rw [text_eq real, text_eq otherReal, prefix_append_right_inj]
    exact @flatMap_prefix_iff _ _ _ (size + 1) (fun name => by rw [length_cons, name.length_letters]) injective _ _

private theorem text_injective (same : path.text = other.text) : path = other :=
  (text_prefix_iff.mp (same ▸ prefix_refl _)).eq_of_length_le (text_prefix_iff.mp (same ▸ prefix_refl _)).length_le

private theorem text_parted (path : GnsPath size) : ∃ rest, path.text = "gns".toList ++ ':' :: rest ∧ ':' ∉ rest := by
  by_cases real : path = []
  · subst real
    exact ⟨"//".toList, rfl, by decide⟩
  · refine ⟨'/' :: path.flatMap fun name : GnsName size => '/' :: name.letters, text_eq real, ?_⟩
    simp only [mem_cons, mem_flatMap, not_or, not_exists, not_and]
    exact ⟨by decide, fun name _ => ⟨by decide, fun isLetter => (name.plain _ isLetter).2 rfl⟩⟩

private theorem holds_iff : holds path other = true ↔ path <+: other := by
  rw [← text_prefix_iff, holds, any_eq_true]
  simp only [mem_tails, isPrefixOf_iff_prefix]
  constructor
  · rintro ⟨_, ⟨skipped, isRest⟩, after, rfl⟩
    obtain ⟨rest, isText, -⟩ := text_parted path
    obtain ⟨otherRest, isOther, noColon⟩ := text_parted other
    have parted : "gns".toList ++ ':' :: otherRest = (skipped ++ "gns".toList) ++ ':' :: (rest ++ after) := by
      rw [← isOther, ← isRest, isText]
      simp
    have same := ((append_cons_inj_of_notMem (by decide) noColon).mp parted).1
    have nothing : skipped = [] := by simpa using congrArg List.length same
    rw [← isRest, nothing]
    exact prefix_append _ _
  · exact fun begins => ⟨_, suffix_refl _, begins⟩

instance : Std.Total (@textFirst size) := ⟨fun _ _ => textLe_total _ _⟩

instance : IsTrans (GnsPath size) textFirst := ⟨fun _ _ _ => textLe_trans⟩

/-- The user is an owner of the document itself, or its own rows let them see it. -/
def IsEntry (server : PermServer size) (userId : String) (accessToken : List String) (docId : GnsPath size) : Prop :=
  (∃ row ∈ server.owners, row.ownerId = userId ∧ row.gnsPath = docId) ∨
    OwnAllows server.perms accessToken docId displayBit

section Entries

variable {server : PermServer size} {userId : String} {accessToken : List String} {docId : GnsPath size}

private theorem mem_ownerSet :
    docId ∈ getSubObjsByUserId server.owners [] userId ↔
    ∃ row ∈ server.owners, row.ownerId = userId ∧ row.gnsPath = docId := by
  simp [getSubObjsByUserId, getPathDepth, and_assoc]

private theorem and_display_ne_zero {value : PermValue} :
    value &&& acsApDisplay ≠ 0 ↔ value.getLsbD displayBit = true := by
  rw [ne_eq, eq_zero_iff, not_forall]
  constructor
  · rintro ⟨bit, set⟩
    rw [Bool.not_eq_false, BitVec.getLsbD_and, Bool.and_eq_true, getLsbD_display] at set
    exact set.2 ▸ set.1
  · intro set
    refine ⟨displayBit, ?_⟩
    rw [BitVec.getLsbD_and, set]
    decide

private theorem mem_docIdSet :
    docId ∈ server.docIdSet userId false accessToken ↔ IsEntry server userId accessToken docId := by
  rw [PermServer.docIdSet, mem_insertionSort, mem_dedup, mem_append, mem_ownerSet, or_comm]
  refine or_congr_right ?_
  simp only [mem_map, mem_filter, decide_eq_true_eq, and_display_ne_zero, PermServer.entryPerms]
  by_cases some : accessToken = []
  · subst some
    refine iff_of_false (fun found => by simp [getAccessPermsOfSubObjs] at found) ?_
    rintro ⟨⟨row, -, -, inToken, -⟩, -⟩
    exact not_mem_nil inToken
  · simp only [mem_getAccessPermsOfSubObjs server.permOrder some]
    constructor
    · rintro ⟨_, ⟨⟨row, -, -, -, rfl⟩, allows⟩, rfl⟩
      exact docPerm_allowValue.mp allows
    · intro allows
      obtain ⟨row, stored, rfl, inToken, -⟩ := allows.1
      exact ⟨_, ⟨⟨row, stored, .inr inToken, .inl rfl, rfl⟩, docPerm_allowValue.mpr allows⟩, rfl⟩

/-- The documents that the pass keeps. -/
def kept (server : PermServer size) (userId : String) (accessToken : List String) : List (GnsPath size) :=
  keepUncovered holds (server.docIdSet userId false accessToken)

variable (isKept : docId ∈ kept server userId accessToken)

include isKept in
private theorem isEntry_of_mem_kept : IsEntry server userId accessToken docId :=
  mem_docIdSet.mp ((keepUncovered_sublist _).subset isKept)

private theorem exists_mem_kept {docId : GnsPath size} (entry : IsEntry server userId accessToken docId) :
    ∃ other ∈ kept server userId accessToken, other <+: docId := by
  obtain ⟨other, isKept, covers⟩ := exists_kept (fun path => holds_iff.mpr (prefix_refl path)) docId
    (mem_docIdSet.mpr entry)
  exact ⟨other, isKept, holds_iff.mp covers⟩

include isKept in
private theorem eq_of_mem_kept (otherKept : other ∈ kept server userId accessToken) (begins : docId <+: other) :
    docId = other := by
  by_contra distinct
  have notHeld := @not_covers_of_kept (GnsPath size) holds textFirst (fun x y z held before after =>
    holds_iff.mpr (text_prefix_iff.mp
      (isPrefix_of_between (text_prefix_iff.mpr (holds_iff.mp held)) before after)))
    (fun x y held => textLe_of_prefix (text_prefix_iff.mpr (holds_iff.mp held)))
    (fun x y before after => text_injective (textLe_antisymm before after)) _
    (pairwise_insertionSort textFirst _) docId isKept other otherKept distinct
  rw [holds_iff.mpr begins] at notHeld
  cases notHeld

include isKept in
private theorem not_owns_of_mem_kept (notOwner : docId ∉ getSubObjsByUserId server.owners [] userId) :
    ¬ Owns server.owners userId docId := by
  rintro ⟨row, mem, isOwner, k, -, -, isPath⟩
  obtain ⟨other, otherKept, begins⟩ := @exists_mem_kept size server userId accessToken row.gnsPath
    (.inl ⟨row, mem, isOwner, rfl⟩)
  have above : row.gnsPath <+: docId := isPath ▸ take_prefix k docId
  obtain rfl := eq_of_mem_kept otherKept isKept (begins.trans above)
  exact notOwner (mem_ownerSet.mpr ⟨row, mem, isOwner, above.eq_of_length_le begins.length_le⟩)

/-- The levels that the loop settles, from a depth upwards. -/
def levelsUp (perms : List (PermRow size)) (accessToken : List String) (docId : GnsPath size) : Nat → List Level
  | 0 => []
  | i + 1 => rowsLevel perms accessToken (docId.take (i + 1)) ::
      if disabled perms (docId.take (i + 1)) then [] else levelsUp perms accessToken docId i

private theorem settle_zero (final : AccessPerm) : final.settle ⟨0, 0⟩ = final := by
  simp [AccessPerm.settle]

/-- What the map holds for a document. -/
theorem subObjPermMap_entryPerms (some' : accessToken ≠ []) (path : GnsPath size) :
    subObjPermMap (server.entryPerms false accessToken) path = some (docPerm server.perms accessToken path) ∨
      subObjPermMap (server.entryPerms false accessToken) path = none ∧
      rowsLevel server.perms accessToken path = ⟨0, 0⟩ ∧
        disabled server.perms path = false := by
  cases found : subObjPermMap (server.entryPerms false accessToken) path with
  | some perm =>
    obtain ⟨row, -, -, -, rfl⟩ := (mem_getAccessPermsOfSubObjs server.permOrder some').mp (mem_of_find?_eq_some found)
    have same : (docPerm server.perms accessToken row.docId).docId = path := by simpa using find?_some found
    exact .inl (same ▸ rfl)
  | none =>
    have root : getPathDepth ([] : GnsPath size) = 0 := rfl
    have absent (row : PermRow size) (stored : row ∈ server.perms) (isPath : row.docId = path) :
        row.type ≠ .disableInherit ∧ row.accessorId ∉ accessToken := by
      by_contra chosen
      have mem := (mem_getAccessPermsOfSubObjs server.permOrder some').mpr ⟨row, stored, by tauto, .inl root, rfl⟩
      exact find?_eq_none.mp found _ mem (decide_eq_true isPath)
    refine .inr ⟨rfl, ?_, ?_⟩
    · rw [rowsLevel, filter_eq_nil_iff.mpr]
      · rfl
      · exact fun row stored both => (absent row stored (of_decide_eq_true both).1).2 (of_decide_eq_true both).2
    · rw [← Bool.not_eq_true, disabled_iff]
      rintro ⟨row, stored, isPath, disables⟩
      exact (absent row stored isPath).1 disables

private theorem calcEntryPerm_eq_foldl (some' : accessToken ≠ []) (docId : GnsPath size) (depth : Nat)
    (final : AccessPerm) : calcEntryPerm (subObjPermMap (server.entryPerms false accessToken)) docId depth final =
      (levelsUp server.perms accessToken docId depth).foldl AccessPerm.settle final := by
  induction depth generalizing final with
  | zero => rfl
  | succ i ih =>
    rw [calcEntryPerm, levelsUp]
    rcases @subObjPermMap_entryPerms size server accessToken some' (getPathByDepth docId (i + 1)) with
      found | ⟨none, silent, inherits⟩
    · rw [found]
      change (if (!!disabled server.perms (docId.take (i + 1))) = true then _ else _) = _
      rw [Bool.not_not]
      split_ifs
      · rfl
      · exact ih _
    · rw [none]
      change _ = (if disabled server.perms (getPathByDepth docId (i + 1)) then [] else _).foldl _
        (final.settle (rowsLevel server.perms accessToken (getPathByDepth docId (i + 1))))
      rw [silent, inherits, settle_zero]
      exact ih final

/-- The levels from a depth upwards say what those do that are reached. -/
theorem nearest_levelsUp {perms : List (PermRow size)} {depth bit : Nat} (upTo : depth ≤ docId.length)
    (isReached : reached perms docId depth = true) :
    nearest Level.speaks (levelsUp perms accessToken docId depth) bit = nearest (wordAt perms accessToken docId)
    (depthsDown depth) bit := by
  induction depth with
  | zero => rfl
  | succ i ih =>
    rw [levelsUp, depthsDown, nearest_cons, nearest_cons]
    congr 1
    · rw [wordAt, if_pos isReached]
    · split_ifs with stops
      · refine (nearest_eq_none_iff.mpr fun k isDepth => ?_).symm
        have bounds := mem_depthsDown.mp isDepth
        rw [wordAt, if_neg]
        intro isReached
        have inherits := reached_iff.mp isReached (i + 1) (by omega) (by omega) upTo
        rw [stops] at inherits
        cases inherits
      · refine ih (by omega) (reached_iff.mpr fun j positive above within => ?_)
        rcases Nat.lt_or_eq_of_le above with deeper | rfl
        · exact reached_iff.mp isReached j positive deeper within
        · exact (Bool.not_eq_true _).mp stops

/-- The loop of the list and the loop over groups come to the same. -/
theorem calcEntryPerm_eq_calcPerm (apart : DisableApart server.perms accessToken) (some' : accessToken ≠ [])
    (docId : GnsPath size) :
    calcEntryPerm (subObjPermMap (server.entryPerms false accessToken)) docId (getPathDepth docId) ⟨0, 0⟩ =
      calcPerm (getPermConfigsByAccessToken server.configOrder server.perms docId accessToken true false) := by
  have same (bit : Nat) : nearest Level.speaks (levelsUp server.perms accessToken docId (getPathDepth docId)) bit =
      nearest Level.speaks (levelsOf ⟨0, 0⟩ 0
        (getPermConfigsByAccessToken server.configOrder server.perms docId accessToken true false)) bit :=
    (nearest_levelsUp (le_refl _) (reached_iff.mpr fun j _ above within => absurd within (not_le.mpr above))).trans
      (nearest_configs _ apart bit).symm
  rw [calcEntryPerm_eq_foldl some', calcPerm_eq_foldl]
  refine AccessPerm.mk.injEq .. ▸ ⟨BitVec.eq_of_getLsbD_eq fun bit _ => Bool.eq_iff_iff.mpr ?_,
    BitVec.eq_of_getLsbD_eq fun bit _ => Bool.eq_iff_iff.mpr ?_⟩
  · rw [(foldl_settle_bits _ bit).1, (foldl_settle_bits _ bit).1, same]
  · rw [(foldl_settle_bits _ bit).2, (foldl_settle_bits _ bit).2, same]

end Entries

/-- The rows are about documents, and not about the root above all libraries. -/
def OnDocuments (server : PermServer size) : Prop :=
  (∀ row ∈ server.perms, row.docId ≠ []) ∧ ∀ row ∈ server.owners, row.gnsPath ≠ []

/-- The list agrees with the permissions on each document. -/
structure EntriesAgree (server : PermServer size) (userId accessIp : String) (accessToken : List String) : Prop where
  permission : ∀ entry ∈ server.listEntryDocsWithLongPath userId accessIp false accessToken,
    entry.2 = server.getPermission userId accessToken entry.1
  apart : ∀ entry ∈ server.listEntryDocsWithLongPath userId accessIp false accessToken,
    ∀ other ∈ server.listEntryDocsWithLongPath userId accessIp false accessToken, below entry.1 other.1 = false
  complete : ∀ docId, Owns server.owners userId docId ∨ OwnAllows server.perms accessToken docId displayBit →
    ∃ entry ∈ server.listEntryDocsWithLongPath userId accessIp false accessToken, entry.1 = docId ∨
    below entry.1 docId = true
  sound : ∀ entry ∈ server.listEntryDocsWithLongPath userId accessIp false accessToken,
    IsEntry server userId accessToken entry.1

theorem entriesAgree (server : PermServer size) (userId accessIp : String) (accessToken : List String)
    (unlimited : server.getNetDocsLimitStatus = false) (documents : OnDocuments server)
    (apart : DisableApart server.perms accessToken) :
    EntriesAgree server userId accessIp accessToken := by
  have listed : server.listEntryDocsWithLongPath userId accessIp false accessToken =
    (kept server userId accessToken).map fun docId =>
      if docId ∈ getSubObjsByUserId server.owners [] userId then (docId, ⟨acsCpMax, 0⟩)
      else (docId, calcEntryPerm (subObjPermMap (server.entryPerms false accessToken)) docId
        (getPathDepth docId) ⟨0, 0⟩) := by
    rw [PermServer.listEntryDocsWithLongPath, unlimited]
    simp only [Bool.false_eq_true, and_false]
    rfl
  have isEntry : ∀ entry ∈ server.listEntryDocsWithLongPath userId accessIp false accessToken,
      entry.1 ∈ kept server userId accessToken ∧ entry.2 = server.getPermission userId accessToken entry.1 := by
    rw [listed]
    intro entry mem
    obtain ⟨docId, isKept, rfl⟩ := mem_map.mp mem
    split_ifs with isOwner
    · obtain ⟨row, stored, isUser, rfl⟩ := mem_ownerSet.mp isOwner
      have owns : Owns server.owners userId row.gnsPath :=
        ⟨row, stored, isUser, _, length_pos_iff.mpr (documents.2 row stored), le_refl _, take_length.symm⟩
      exact ⟨isKept, by rw [PermServer.getPermission, if_pos (isOwner_iff.mpr owns)]⟩
    · have notOwner := mt isOwner_iff.mp (not_owns_of_mem_kept isKept isOwner)
      have some' : accessToken ≠ [] := by
        rintro rfl
        obtain ⟨⟨row, -, -, inToken, -⟩, -⟩ := (isEntry_of_mem_kept isKept).resolve_left (mt mem_ownerSet.mpr isOwner)
        exact not_mem_nil inToken
      exact ⟨isKept, by rw [PermServer.getPermission, if_neg notOwner, calcEntryPerm_eq_calcPerm apart some']⟩
  have ofKept (docId : GnsPath size) (isKept : docId ∈ kept server userId accessToken) :
      ∃ entry ∈ server.listEntryDocsWithLongPath userId accessIp false accessToken, entry.1 = docId := by
    rw [listed]
    exact ⟨_, mem_map_of_mem isKept, by split_ifs <;> rfl⟩
  refine ⟨fun entry mem => (isEntry entry mem).2, fun entry mem other otherMem => ?_, fun docId reason => ?_,
    fun entry mem => isEntry_of_mem_kept (isEntry entry mem).1⟩
  · by_contra isBelow
    obtain ⟨begins, shorter⟩ := below_iff.mp ((Bool.not_eq_false _).mp isBelow)
    have same := eq_of_mem_kept (isEntry entry mem).1 (isEntry other otherMem).1 begins
    exact absurd (congrArg List.length same) (ne_of_lt shorter)
  · obtain ⟨other, isKept, begins⟩ : ∃ other ∈ kept server userId accessToken, other <+: docId := by
      rcases reason with ⟨row, stored, isUser, k, -, -, isPath⟩ | allows
      · obtain ⟨other, isKept, begins⟩ := @exists_mem_kept size server userId accessToken row.gnsPath
          (.inl ⟨row, stored, isUser, rfl⟩)
        exact ⟨other, isKept, begins.trans (isPath ▸ take_prefix k docId)⟩
      · exact exists_mem_kept (.inr allows)
    obtain ⟨entry, mem, rfl⟩ := ofKept other isKept
    refine ⟨entry, mem, ?_⟩
    rcases Nat.lt_or_eq_of_le begins.length_le with shorter | same
    · exact .inr (below_iff.mpr ⟨begins, shorter⟩)
    · exact .inl (begins.eq_of_length same)

theorem entriesAgree_sample : OnDocuments Sample.shared ∧ EntriesAgree Sample.shared "user" "" ["user"] :=
  have documents : OnDocuments Sample.shared := ⟨by decide, by decide⟩
  ⟨documents, entriesAgree _ _ _ _ rfl documents (by decide)⟩

end

/-! # The pages of a search

The pages list the users and then the departments of the scope one after another, and the count tells how many there
are, exactly if the loop that counts users does not end early and the departments of the scope are found before the
others.
-/

open List

section Slices

variable {α : Type} {list : List α} {keep : α → Bool}

private theorem flatMap_slices (limit n : Nat) :
    (range n).flatMap (fun k => (list.drop (k * limit)).take limit) = list.take (n * limit) := by
  induction n with
  | zero => simp
  | succ n ih => rw [range_succ, flatMap_append, ih, flatMap_singleton, Nat.succ_mul, take_add]

/-- Where the kept come first, they can be cut before or after the others are taken out. -/
theorem filter_slice (first : list.filter keep <+: list) (start limit : Nat) :
    ((list.drop start).take limit).filter keep = ((list.filter keep).drop start).take limit := by
  obtain ⟨rest, whole⟩ := first
  have none : rest.filter keep = [] := by simpa [filter_filter] using congrArg (filter keep) whole
  nth_rewrite 1 [← whole]
  rw [drop_append, take_append, filter_append, filter_eq_self.mpr fun _ mem =>
    (mem_filter.mp (mem_of_mem_drop (mem_of_mem_take mem))).2,
    filter_eq_nil_iff.mpr fun one mem => filter_eq_nil_iff.mp none one (mem_of_mem_drop (mem_of_mem_take mem)),
    append_nil]

private theorem filter_prefix_of_length (full : ((list.take (list.filter keep).length).filter keep).length =
    (list.filter keep).length) : list.filter keep <+: list := by
  have begins := take_prefix (list.filter keep).length list
  have same := (begins.filter keep).eq_of_length full
  have all := (@filter_sublist _ keep (list.take (list.filter keep).length)).eq_of_length_le
    (Nat.le_trans (length_take_le _ _) (Nat.le_of_eq full.symm))
  rwa [← same, all]

end Slices

namespace ScopeSearch

variable (search : ScopeSearch) (config : SearchConfig) (key : String)

/-- What is shown of a user in the scope. -/
def shown (user : UserRow) : Option ACSUserInfo := (search.belongDepartId user).map (user.info config)

def scopeUsers : List ACSUserInfo := (search.selectUsers key).filterMap (search.shown config)

def scopeDepartments : List DepartmentRow := (search.selectDepartments key).filter search.viewsDepartment

def scopeEntries : List (ACSUserInfo ⊕ ACSDepartInfo) :=
  (search.scopeUsers config key).map .inl ++ (search.scopeDepartments key).map fun department => .inr department.info

def page (start limit : Nat) : List (ACSUserInfo ⊕ ACSDepartInfo) :=
  (search.searchScopeOrganization config key start limit).1.map .inl ++
    (search.searchScopeOrganization config key start limit).2.map .inr

/-- The pages list every entry once, a page is full if there are enough entries, and the count tells their number. -/
structure PagesAddUp (limit : Nat) : Prop where
  whole : ∀ n, (search.scopeEntries config key).length ≤ n * limit →
    (range n).flatMap (fun k => search.page config key (k * limit) limit) = search.scopeEntries config key
  full : ∀ k, (k + 1) * limit ≤ (search.scopeEntries config key).length →
    (search.page config key (k * limit) limit).length = limit
  count : search.searchScopeOrganizationCount config key true = (search.scopeEntries config key).length

variable {search config key}

private theorem pickUsers_eq {start limit count : Nat} (rows : List UserRow) (before : count < start + limit) :
    search.pickUsers config start limit count rows =
      ((rows.filterMap (search.shown config)).take (start + limit - count)).drop (start - count) := by
  induction rows generalizing count with
  | nil => simp [pickUsers]
  | cons user rest ih =>
    rw [pickUsers, filterMap_cons, shown]
    cases belongs : search.belongDepartId user with
    | none => exact (if_neg (Nat.ne_of_lt before)).trans (ih before)
    | some depart =>
      dsimp only [Option.map_some]
      rw [show start + limit - count = start + limit - (count + 1) + 1 by omega, take_succ_cons]
      have later : (if count + 1 = start + limit then [] else search.pickUsers config start limit (count + 1) rest) =
          ((rest.filterMap (search.shown config)).take (start + limit - (count + 1))).drop (start - (count + 1)) := by
        split_ifs with last
        · simp [last]
        · exact ih (by omega)
      rw [later]
      by_cases passed : start ≤ count
      · simp [passed, show start - count = 0 by omega, show start - (count + 1) = 0 by omega]
      · rw [if_neg passed, show start - count = start - (count + 1) + 1 by omega]
        rfl

variable (search config key) in
/-- A page shows entries of the scope only, each once, and no more than were asked for. -/
theorem page_within_scope (start limit : Nat) :
    search.page config key start limit <+ search.scopeEntries config key ∧
    (search.page config key start limit).length ≤ limit := by
  rw [page, searchScopeOrganization, scopeEntries]
  by_cases nothing : key = "" ∨ (limit : Int) = 0
  · rw [if_pos nothing]
    simp
  have notAll : (limit : Int) ≠ -1 := by omega
  have picked := @pickUsers_eq search config start limit 0 (search.selectUsers key) (by omega)
  simp only [if_neg nothing, if_neg notAll, Int.toNat_natCast]
  generalize search.pickUsers config start limit 0 (search.selectUsers key) = users at picked ⊢
  have inside : users <+ search.scopeUsers config key := picked ▸ (drop_sublist _ _).trans (take_sublist _ _)
  have few : users.length ≤ limit := by
    rw [picked, length_drop, length_take]
    omega
  split
  · refine ⟨(inside.map _).append ?_, ?_⟩
    · rw [map_map]
      exact ((take_sublist _ _).trans (((take_sublist _ _).trans (drop_sublist _ _)).filter _)).map _
    · simp only [length_append, length_map, length_take]
      omega
  · simpa using ⟨(inside.map Sum.inl).trans (sublist_append_left _ _), few⟩

private theorem countUsers_eq_iff (rows : List UserRow) :
    search.countUsers rows = (rows.filterMap (search.shown config)).length ↔
    rows.Pairwise fun user later => search.inScope user.id → search.belongDepartId later = none := by
  induction rows with
  | nil => simp [countUsers]
  | cons user rest ih =>
    rw [countUsers, filterMap_cons, pairwise_cons, shown, belongDepartId]
    split_ifs with direct onPath
    · have none : (rest.filterMap (search.shown config)).length = 0 ↔
          ∀ later ∈ rest, search.belongDepartId later = none := by
        simp [shown]
      simp only [Option.map_some, length_cons, direct, true_imp_iff, ← none]
      refine ⟨fun one => ⟨by omega, ?_⟩, fun ⟨one, _⟩ => by omega⟩
      exact pairwise_of_forall_mem_list fun _ _ later mem _ => none.mp (by omega) later mem
    · obtain ⟨path, found⟩ := Option.isSome_iff_exists.mp (find?_isSome.trans any_eq_true.symm |>.mpr onPath)
      simp [found, direct, ih]
    · rw [find?_eq_none.mpr (by simpa using onPath)]
      simp [direct, ih]

/-- A page, if the count tells the number of users. -/
theorem page_eq {users : List ACSUserInfo} (isUsers : search.scopeUsers config key = users)
    (counted : search.countUsers (search.selectUsers key) = users.length) (fuzzy : config.exactSearch = false)
    (sharing : config.onlyShareToUser = false) (notEmpty : key ≠ "") {start limit : Nat} (positive : 1 ≤ limit) :
    search.page config key start limit = ((users.drop start).take limit).map .inl ++
      ((((search.selectDepartments key).drop (start - users.length)).take (limit - (users.length - start))).filter
        search.viewsDepartment).map fun department => .inr department.info := by
  have picked := @pickUsers_eq search config start limit 0 (search.selectUsers key) (by omega)
  rw [drop_take, show start + limit - 0 - (start - 0) = limit by omega, ← scopeUsers, isUsers] at picked
  have notAll : (limit : Int) ≠ -1 := by omega
  have rest : limit - min limit (users.length - start) = limit - (users.length - start) := by omega
  have within (n : Nat) (rows : List DepartmentRow) :
      ((rows.take n).filter search.viewsDepartment).take n = (rows.take n).filter search.viewsDepartment :=
    take_of_length_le (Nat.le_trans (length_filter_le _ _) (length_take_le _ _))
  rw [page, searchScopeOrganization, if_neg (not_or.mpr ⟨notEmpty, by omega⟩)]
  simp only [if_neg notAll, Int.toNat_natCast, picked, fuzzy, sharing, Bool.not_false, Bool.true_and,
    decide_eq_true_eq, length_take,
    length_drop, searchScopeOrganizationCount, counted, Bool.and_false, Bool.false_eq_true, if_false, Nat.add_zero,
    Nat.sub_zero, rest, within]
  split_ifs with room someUser
  · rw [show start - users.length = 0 by omega, map_map]
    rfl
  · rw [map_map]
    rfl
  · rw [show limit - (users.length - start) = 0 by omega]
    rfl

/-- The pages add up exactly if only the last user of the scope may be one of its objects, and its departments are found
first. -/
theorem pages_add_up_iff (search : ScopeSearch) (showLoginAndDisplay : Bool) :
    (∀ key ≠ "", ∀ limit ≥ 1, search.PagesAddUp ⟨false, false, showLoginAndDisplay⟩ key limit) ↔ ∀ key ≠ "",
      ((search.selectUsers key).Pairwise fun user later => search.inScope user.id →
        search.belongDepartId later = none) ∧
        search.scopeDepartments key <+: search.selectDepartments key := by
  refine forall₂_congr fun key notEmpty => ?_
  generalize isConfig : SearchConfig.mk false false showLoginAndDisplay = config
  have fuzzy : config.exactSearch = false := isConfig ▸ rfl
  have sharing : config.onlyShareToUser = false := isConfig ▸ rfl
  rw [← @countUsers_eq_iff search config, ← scopeUsers]
  generalize isUsers : search.scopeUsers config key = users
  have total : (search.scopeEntries config key).length = users.length + (search.scopeDepartments key).length := by
    simp [scopeEntries, isUsers]
  constructor
  · intro addUp
    have counted : search.countUsers (search.selectUsers key) = users.length := by
      have told := (addUp 1 Nat.le.refl).count.trans total
      rw [searchScopeOrganizationCount, fuzzy] at told
      exact Nat.add_right_cancel told
    refine ⟨counted, ?_⟩
    by_cases some : (search.scopeDepartments key).length = 0
    · simp [length_eq_zero_iff.mp some]
    · have full := (addUp (users.length + (search.scopeDepartments key).length) (by omega)).full 0 (by omega)
      rw [page_eq isUsers counted fuzzy sharing notEmpty (by omega)] at full
      exact filter_prefix_of_length (by simpa [scopeDepartments] using full)
  · rintro ⟨counted, first⟩ limit positive
    have isPage (k : Nat) : search.page config key (k * limit) limit =
        ((search.scopeEntries config key).drop (k * limit)).take limit := by
      rw [page_eq isUsers counted fuzzy sharing notEmpty positive, filter_slice first]
      simp [scopeEntries, isUsers, scopeDepartments, drop_append, take_append]
    refine ⟨fun n enough => ?_, fun k enough => ?_, ?_⟩
    · simp only [isPage]
      rw [flatMap_slices, take_of_length_le enough]
    · rw [isPage, length_take, length_drop]
      rw [Nat.succ_mul] at enough
      omega
    · rw [total, searchScopeOrganizationCount, counted, fuzzy]
      rfl

end ScopeSearch

namespace Sample

/-- The scope has a department and one of its two users. -/
def salesScope : ScopeSearch where
  scopeInfos := [⟨"ann", "sales", true⟩, ⟨"sales", "", false⟩]
  getOrgInfoByDeptId _ := ["org"]
  getDeptRootPath department := ["org", department]
  findUsers _ := ["ann", "bob"].map fun name => ⟨name, name, name, "", 5, 0, 0, ["org"], ["sales"]⟩
  findDepartments _ := [⟨"sales", "sales", "org", "org"⟩]

end Sample

open ShareServer.Sample

/-- One user is counted, so that the department is passed over. -/
theorem department_passed_over : salesScope.searchScopeOrganizationCount ⟨false, false, true⟩ "s" true = 2 ∧
    (range 4).map (fun start => (salesScope.page ⟨false, false, true⟩ "s" start 1).length) = [1, 1, 0, 0] ∧
    (salesScope.scopeEntries ⟨false, false, true⟩ "s").length = 3 := by
  decide +kernel

end SecurityFabric.ShareServer
