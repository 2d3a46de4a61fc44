import SecurityFabric.Machine.Run
import SecurityFabric.Proofs.Authorization.PolicyStore

/-! # When two creating requests act as if one came after the other

A request decides between inserting and merging, and computes the merged rules, from rows it read before its
transaction. Two requests with a common key can therefore both insert, or the later write can undo the earlier. As long
as each request that writes finds the rows of its keys and of its check as it read them, every interleaving ends like
one request after the other.
-/

namespace SecurityFabric.Authorization

section

open Machine PolicyTable List TwoRequests

variable {a b : CreateRequest} {table : PolicyTable} {state : TwoRequests} {isFirst : Bool} {schedule : List Bool}

/-- Once both requests are finished, the rows are those of one of the two serial runs. -/
def Serializable (a b : CreateRequest) (table : PolicyTable) (schedule : List Bool) : Prop :=
  let final := interleave a b table schedule
  final.first = .finished → final.second = .finished →
    SameRows final.table (b.apply (a.apply table)) ∨ SameRows final.table (a.apply (b.apply table))

namespace CreateRequest

variable {request : CreateRequest} {seen : PolicyTable} {phase : Phase}

/-- The rows that the check of a visitor reads for a policy: those on its resource and on all of its type. -/
def gateRows (request : CreateRequest) (table : PolicyTable) (policy : PolicyInfo) : List PolicyInfo :=
  match request.call with
  | .createPrivate => []
  | .create visitor =>
    match getAccessorIDs request.svc ⟨visitor.id, visitor.type⟩ with
    | .error _ => []
    | .ok tokens => table.filter fun row => row.resourceID ∈ ["*", policy.resourceID] ∧
        row.resourceType = policy.resourceType ∧ row.accessorID ∈ tokens

/-- A request that is about to write finds the rows of its keys as it read them, and those of its check
as they were when it was checked. -/
def UpToDate (request : CreateRequest) (table : PolicyTable) : Phase → Prop
  | .planned _ checkedAt readAt => ∀ policy ∈ request.policys,
      rowsOf table policy.key = rowsOf readAt policy.key ∧
        request.gateRows table policy = request.gateRows checkedAt policy
  | _ => True

private theorem apply_eq (request : CreateRequest) (table : PolicyTable) :
    request.apply table = match request.check table with
      | none => table
      | some idNameMap => writePlan table request.now (request.plan table idNameMap) := by
  unfold apply check CreateCall.run CreateCall.plan
  cases empty : request.policys.isEmpty with
  | true => rfl
  | false =>
    cases authorized : request.call.authorize request.svc table request.now request.policys with
    | error failure => rfl
    | ok done =>
      cases validated : validatePolicys request.svc request.now request.call.language request.policys with
      | error failure | ok idNameMap => rfl

/-- A check depends on the rows it reads. -/
theorem check_congr (same : ∀ policy ∈ request.policys, request.gateRows table policy = request.gateRows seen policy) :
    request.check table = request.check seen := by
  suffices authorized : request.call.authorize request.svc table request.now request.policys =
      request.call.authorize request.svc seen request.now request.policys by
    rw [check, authorized, check]
  cases called : request.call with
  | createPrivate => rfl
  | create visitor =>
    refine bind_congr fun roles => if_congr Iff.rfl rfl (forM_congr fun touched isTouched => ?_)
    rw [← AList.mem_keys, touchedResources, GoMap.mem_collect] at isTouched
    obtain ⟨policy, asked, rfl⟩ := mem_map.mp isTouched
    have rows := same policy asked
    simp only [gateRows, called] at rows
    simp only [Authorization.check, createAncestorsResource, map_nil, nil_append,
      getPoliciesByResourcesAndAccessToken, map_cons]
    cases answered : getAccessorIDs request.svc ⟨visitor.id, visitor.type⟩ with
    | error failure => rfl
    | ok tokens =>
      simp only [answered] at rows
      have queried (store : PolicyTable) : store.filter (fun row =>
        row.resourceID ∈ GoMap.collect ["*", policy.resourceID] ∧
          row.resourceType = policy.resourceType ∧ row.accessorID ∈ tokens) = store.filter fun row =>
            row.resourceID ∈ ["*", policy.resourceID] ∧ row.resourceType = policy.resourceType ∧
              row.accessorID ∈ tokens := by
        simp only [GoMap.mem_collect]
      simp only [ok_bind, queried, rows]

/-- The plan of a request depends on the rows of its keys. -/
theorem plan_congr (same : ∀ policy ∈ request.policys, rowsOf table policy.key = rowsOf seen policy.key)
    (idNameMap : GoMap String String) : request.plan table idNameMap = request.plan seen idNameMap := by
  refine foldl_ext _ _ _ fun plan policy asked => ?_
  rw [oldPolicyOf_eq_latest _ asked, oldPolicyOf_eq_latest _ asked, latest, latest, same policy asked]

/-- A request that has not written yet goes by what it saw. -/
def Before (request : CreateRequest) : Phase → Prop
  | .waiting => True
  | .checked idNameMap checkedAt => request.check checkedAt = some idNameMap
  | .planned plan checkedAt readAt => ∃ idNameMap, request.check checkedAt = some idNameMap ∧
      plan = request.plan readAt idNameMap
  | .finished => False

/-- One step: a request has not written yet, or it acts as if it was run at this moment. -/
theorem advance_of_before (before : request.Before phase) (upToDate : request.UpToDate table phase) :
    (request.Before (request.advance table phase).2 ∧ (request.advance table phase).1 = table) ∨
      ((request.advance table phase).2 = .finished ∧ (request.advance table phase).1 = request.apply table) := by
  cases phase with
  | waiting =>
    cases passed : request.check table with
    | none => exact .inr (by simp [advance, apply_eq, passed])
    | some idNameMap => exact .inl (by simp [advance, Before, passed])
  | checked idNameMap checkedAt => exact .inl ⟨⟨idNameMap, before, rfl⟩, rfl⟩
  | planned plan checkedAt readAt =>
    obtain ⟨idNameMap, passed, rfl⟩ := before
    have checks := check_congr fun policy asked => (upToDate policy asked).2
    have plans := plan_congr (fun policy asked => (upToDate policy asked).1) idNameMap
    exact .inr ⟨rfl, by simp [advance, apply_eq, checks, passed, plans]⟩
  | finished => exact before.elim

end CreateRequest

namespace TwoRequests

/-- What is asked of a step of the first request, or of the second. -/
def UpToDate (a b : CreateRequest) (state : TwoRequests) (isFirst : Bool) : Prop :=
  if isFirst then a.UpToDate state.table state.first else b.UpToDate state.table state.second

/-- How far two requests can have got. -/
inductive Progress (a b : CreateRequest) (table : PolicyTable) : TwoRequests → Prop
  | neither {first second : Phase} (reading : a.Before first) (other : b.Before second) :
    Progress a b table ⟨table, first, second⟩
  | first {second : Phase} (other : b.Before second) : Progress a b table ⟨a.apply table, .finished, second⟩
  | second {first : Phase} (reading : a.Before first) : Progress a b table ⟨b.apply table, first, .finished⟩
  | firstSecond : Progress a b table ⟨b.apply (a.apply table), .finished, .finished⟩
  | secondFirst : Progress a b table ⟨a.apply (b.apply table), .finished, .finished⟩

/-- The same state with the requests in the other order. -/
def swap (state : TwoRequests) : TwoRequests := ⟨state.table, state.second, state.first⟩

private theorem Progress.swap (progress : Progress a b table state) : Progress b a table state.swap := by
  cases progress with
  | neither reading other => exact .neither other reading
  | first other => exact .second other
  | second reading => exact .first reading
  | firstSecond => exact .secondFirst
  | secondFirst => exact .firstSecond

/-- One step of the first request. -/
theorem Progress.step_first (upToDate : a.UpToDate state.table state.first) (progress : Progress a b table state) :
    Progress a b table (state.step a b true) := by
  cases progress with
  | neither reading other =>
    rcases CreateRequest.advance_of_before reading upToDate with ⟨next, same⟩ | ⟨finished, written⟩
    · simp only [step, same]
      exact .neither next other
    · simp only [step, finished, written]
      exact .first other
  | second reading =>
    rcases CreateRequest.advance_of_before reading upToDate with ⟨next, same⟩ | ⟨finished, written⟩
    · simp only [step, same]
      exact .second next
    · simp only [step, finished, written]
      exact .secondFirst
  | first other => exact .first other
  | firstSecond => exact .firstSecond
  | secondFirst => exact .secondFirst

private theorem Progress.step (upToDate : UpToDate a b state isFirst) (progress : Progress a b table state) :
    Progress a b table (state.step a b isFirst) := by
  cases isFirst with
  | true => exact progress.step_first upToDate
  | false => exact (progress.swap.step_first (show b.UpToDate state.table state.second from upToDate)).swap

private theorem Progress.run (progress : Progress a b table state)
    (upToDate : Meets (fun state isFirst => some (state.step a b isFirst)) (UpToDate a b) state schedule) :
    Progress a b table (schedule.foldl (TwoRequests.step a b) state) := by
  induction schedule generalizing state with
  | nil => exact progress
  | cons isFirst rest ih => exact ih (progress.step upToDate.1) (upToDate.2 _ rfl)

end TwoRequests

/-- If each request that writes finds what it read, two requests act as if one came after the other. -/
theorem creates_serializable (upToDate : Meets (fun state isFirst => some (state.step a b isFirst)) (UpToDate a b)
    ⟨table, .waiting, .waiting⟩ schedule) : Serializable a b table schedule := by
  have start : Progress a b table ⟨table, .waiting, .waiting⟩ := .neither trivial trivial
  have progress : Progress a b table (interleave a b table schedule) := start.run upToDate
  intro finishedFirst finishedSecond
  generalize interleave a b table schedule = final at progress finishedFirst finishedSecond ⊢
  cases progress with
  | neither reading other | second reading =>
    cases finishedFirst
    exact reading.elim
  | first other =>
    cases finishedSecond
    exact other.elim
  | firstSecond => exact .inl (.refl _)
  | secondFirst => exact .inr (.refl _)

namespace Sample

/-- A request of another service for one policy on a document. -/
def request (letter : Char) (document : String) (allow deny : List PolicyRuleItem) : CreateRequest where
  svc := services
  call := .createPrivate
  now := 100
  newV4 := newV4 letter
  policys := [row document allow deny]

/-- Both requests check and read before either writes. -/
def overlapping : List Bool := [true, true, false, false, true, false]

end Sample

open Sample

theorem creates_serializable_sample :
    Serializable (request 'u' "d" [rule "read"] []) (request 'v' "e" [rule "read"] []) [] overlapping := by
  refine creates_serializable (.cons trivial rfl (.cons trivial rfl (.cons trivial rfl (.cons trivial rfl
    (.cons ?_ rfl (.cons ?_ rfl trivial))))))
  · exact fun _ _ => ⟨rfl, rfl⟩
  · exact fun _ asked => ⟨mem_singleton.mp asked ▸ rfl, rfl⟩

/-- Requests for one key that overlap leave two rows of it, and one of them can lose the other's denial. -/
theorem overlapping_creates_interfere :
    ¬ Serializable (request 'u' "d" [rule "read"] []) (request 'v' "d" [rule "read"] []) [] overlapping ∧
      ¬ Serializable (request 'u' "d" [] [rule "write"]) (request 'v' "d" [rule "read"] [])
        [row "d" [rule "authorize"] []] overlapping := by
  constructor
  · intro serializable
    rcases serializable rfl rfl with same | same
    · cases same.length_eq
    · cases same.length_eq
  · intro serializable
    have denials {left right : PolicyTable} (same : SameRows left right) :=
      Perm.map (fun row => unconditionalIDs row.rules.deny) same
    rcases serializable rfl rfl with same | same
    · exact absurd (denials same) (by decide)
    · exact absurd (denials same) (by decide)

end

/-! # The gate in front of creating policies

An ordinary visitor may create policies for resources they may authorize. The gate asks for this with the type and the
id of each resource only, so a denial below one of its ancestors is never seen. It matters exactly when the resource's
own level says nothing, the nearest ancestor that does denies it, and the type allows it.
-/

open List GoMap

/-- The resource a policy is for, with the ancestors the policy gives. -/
def policyResource (policy : PolicyInfo) : ResourceInfo :=
  { id := policy.resourceID, type := policy.resourceType, ancestors := policy.ancestors }

/-- The visitor as an accessor. -/
def Visitor.accessor (visitor : Visitor) : AccessorInfo := ⟨visitor.id, visitor.type⟩

/-- The visitor is super, system or security administrator. -/
def Administers (svc : Services) (visitor : Visitor) : Prop :=
  ∃ roles, visitorRoles svc visitor = .ok roles ∧ ∃ role ∈ roles,
    role ∈ [SystemRoleType.superAdmin, .systemAdmin, .securityAdmin]

/-- The resource itself leaves authorizing open, and the nearest level of its ancestors that does not
denies it. -/
def DeniedAbove (svc : Services) (table : PolicyTable) (now : Int) (accessor : AccessorInfo) (resource : ResourceInfo) :
    Prop :=
  ∃ tokens, getAccessorIDs svc accessor = .ok tokens ∧
    let word := levelWord svc table now resource.type tokens fun _ => requestData resource accessor
    word resource.id authorizeOperation = none ∧ nearest word (inheritedLevels resource) authorizeOperation = some false

section

variable {svc : Services} {table : PolicyTable} {now : Int} {visitor : Visitor} {policys : List PolicyInfo}

private theorem Granted.tokens {accessor : AccessorInfo} {resource : ResourceInfo} {operation : List String}
    (granted : Granted svc table now accessor resource operation) :
    ∃ tokens, getAccessorIDs svc accessor = .ok tokens := by
  obtain ⟨answer, checked, -⟩ := granted
  obtain ⟨tokens, found, -⟩ := bind_ok checked
  exact ⟨tokens, found⟩

/-- The policy without what it allows. -/
def PolicyInfo.denying (policy : PolicyInfo) : PolicyInfo := { policy with rules := { policy.rules with allow := [] } }

private theorem mention_of_append_denying {svc : Services} {data : Option Json} {op : String}
    {policies denials : List PolicyInfo}
    (silent : ∀ policy ∈ denials, policy.rules.allow = [])
    (allowed : mention svc data (policies ++ denials) op = some true) : mention svc data policies op = some true := by
  obtain ⟨⟨policy, mem, named⟩, undenied⟩ := mention_eq_true_iff.mp allowed
  refine mention_eq_true_iff.mpr ⟨⟨policy, ?_, named⟩, fun other present => undenied other (mem_append_left _ present)⟩
  refine (mem_append.mp mem).resolve_right fun denies => ?_
  rcases named with ⟨rule, listed, -⟩ | named
  · rw [silent policy denies] at listed
    cases listed
  · exact undenied policy mem named

/-- Whatever denials are added, at any level and under any condition, nothing is granted that was not granted before. -/
theorem denials_grant_nothing (svc : Services) (table denials : PolicyTable) (now : Int) (accessor : AccessorInfo)
    (resource : ResourceInfo) :
    {operation | Granted svc (table ++ denials.map PolicyInfo.denying) now accessor resource operation} ⊆
      {operation | Granted svc table now accessor resource operation} := by
  intro operation granted
  obtain ⟨tokens, found⟩ := Granted.tokens granted
  refine (granted_iff found resource operation).mpr fun op mem => ?_
  have allowed := (granted_iff found resource operation).mp granted op mem
  simp only [verdict, nearest_eq_some_iff, levelWord, atLevel, filter_append] at allowed ⊢
  obtain ⟨closer, level, farther, split, silent, spoken⟩ := allowed
  refine ⟨closer, level, farther, split, fun nearer listed => ?_, mention_of_append_denying ?_ spoken⟩
  · rw [mention_eq_none_iff]
    exact fun policy present => mention_eq_none_iff.mp (silent nearer listed) policy (mem_append_left _ present)
  · intro policy present
    obtain ⟨other, -, rfl⟩ := mem_map.mp (mem_of_mem_filter present)
    rfl

variable {policy : PolicyInfo}

/-- For an ordinary visitor a passed gate is a granted check of each resource without its ancestors. -/
theorem granted_of_authorize (ordinary : ¬ Administers svc visitor)
    (passed : (CreateCall.create visitor).authorize svc table now policys = .ok ()) (asked : policy ∈ policys) :
    Granted svc table now visitor.accessor { policyResource policy with ancestors := [] } [authorizeOperation] := by
  change checkVisitorAuthorize svc table now visitor (touchedResources policys) = .ok () at passed
  obtain ⟨roles, answered, passed⟩ := bind_ok passed
  split_ifs at passed with privileged
  · obtain ⟨role, mem, accepted⟩ := any_eq_true.mp privileged
    exact absurd ⟨roles, answered, role, mem, of_decide_eq_true accepted⟩ ordinary
  have touched : (policy.resourceType, policy.resourceID) ∈ (touchedResources policys).keys := by
    rw [← AList.mem_keys, touchedResources, mem_collect]
    exact mem_map.mpr ⟨policy, asked, rfl⟩
  obtain ⟨answer, checked, result⟩ := bind_ok (forM_ok passed _ touched)
  refine ⟨answer, checked, ?_⟩
  cases granted : answer.result with
  | true => rfl
  | false =>
    rw [granted] at result
    cases result

private theorem or_or_eq_true_iff {own above whole : Option Bool} (open' : own.or whole = some true) :
    own.or (above.or whole) = some true ↔ ¬ (own = none ∧ above = some false) := by
  rcases own with _ | _ | _ <;> rcases above with _ | _ | _ <;> simp_all

private theorem granted_policyResource_iff (granted : Granted svc table now visitor.accessor
    { policyResource policy with ancestors := [] }
      [authorizeOperation]) :
    Granted svc table now visitor.accessor (policyResource policy) [authorizeOperation] ↔
      ¬ DeniedAbove svc table now visitor.accessor (policyResource policy) := by
  obtain ⟨tokens, found⟩ := granted.tokens
  have only (tokens' : List String) : getAccessorIDs svc visitor.accessor = .ok tokens' ↔ tokens' = tokens := by
    rw [found, Except.ok.injEq, eq_comm]
  rw [granted_iff found, forall_mem_singleton, verdict, nearest_levels] at granted ⊢
  simp only [DeniedAbove, only, exists_eq_left]
  exact or_or_eq_true_iff granted

/-- An ordinary visitor past the gate may authorize each resource with its ancestors exactly when no
policy's ancestors deny it. -/
theorem authorized_iff (ordinary : ¬ Administers svc visitor)
    (passed : (CreateCall.create visitor).authorize svc table now policys = .ok ()) :
    (∀ policy ∈ policys, Granted svc table now visitor.accessor (policyResource policy) [authorizeOperation]) ↔
      ∀ policy ∈ policys, ¬ DeniedAbove svc table now visitor.accessor (policyResource policy) :=
  forall₂_congr fun _ asked => granted_policyResource_iff (granted_of_authorize ordinary passed asked)

end

namespace Sample

/-- The application as a visitor. -/
def appVisitor : Visitor := ⟨"app", .app, "en-us"⟩

/-- A policy for a document below a folder. -/
def below : PolicyInfo := { row "d" [rule "read"] [] with ancestors := [⟨"p", "", ""⟩] }

end Sample

open Sample

private theorem not_administers_appVisitor : ¬ Administers services appVisitor := by
  rintro ⟨roles, answered, role, mem, -⟩
  cases answered
  cases mem

theorem authorized_iff_sample :
    (CreateCall.create appVisitor).authorize services [row "*" [rule "authorize"] []] 0 [below] = .ok () ∧
    ((∀ policy ∈ [below], Granted services [row "*" [rule "authorize"] []] 0 appVisitor.accessor
        (policyResource policy) [authorizeOperation]) ↔
      ∀ policy ∈ [below], ¬ DeniedAbove services [row "*" [rule "authorize"] []]
        0 appVisitor.accessor (policyResource policy)) :=
  ⟨rfl, authorized_iff not_administers_appVisitor rfl⟩

/-- Authorizing is allowed for the type and denied below the folder: the gate lets the visitor through. -/
theorem gate_ignores_inherited_denial : (CreateCall.create appVisitor).authorize services
      [row "*" [rule "authorize"] [], row "p/*" [] [rule "authorize"]] 0 [below] = .ok () ∧
    ¬ Granted services [row "*" [rule "authorize"] [], row "p/*" [] [rule "authorize"]] 0 appVisitor.accessor
      (policyResource below) [authorizeOperation] := by
  refine ⟨rfl, ?_⟩
  rintro ⟨answer, checked, result⟩
  cases checked
  cases result

/-! # When a grant takes effect

A creating request merges a policy into the row of its key, and the merged row gets the earlier of the two end times. A
row that has expired but has not been purged yet swallows the grant. Otherwise the row is in force after the request and
allows whatever the policy allows unconditionally, short of the denials of the policy and the row.
-/

open PolicyTable

variable {old policy : PolicyInfo} {now : Int}

/-- After the request the row of the policy's key is in force, and it allows what the policy allows
unless the policy, or a row of the key that was in force before, denies it. -/
def TakesEffect (before after : PolicyTable) (now : Int) (policy : PolicyInfo) : Prop :=
  ∃ row, latest after policy.key = some row ∧ row.expired now = false ∧
    ∀ op ∈ noConditionIDs policy.rules.allow, op ∈ noConditionIDs row.rules.allow ∨
    op ∈ noConditionIDs policy.rules.deny ∨
        ∃ old ∈ before, old.key = policy.key ∧ old.expired now = false ∧ op ∈ noConditionIDs old.rules.deny

private theorem expired_eq_false : policy.expired now = false ↔ policy.endTime = -1 ∨ now ≤ policy.endTime := by
  unfold PolicyInfo.expired
  by_cases forever : policy.endTime = -1 <;> simp [forever]

private theorem ValidPolicy.not_expired (valid : ValidPolicy now policy) : policy.expired now = false :=
  expired_eq_false.mpr (valid.endTime.imp_right le_of_lt)

private theorem expired_mergeNewPolicy (valid : ValidPolicy now policy) :
    (mergeNewPolicy old policy).expired now = old.expired now := by
  have future := valid.endTime
  rw [Bool.eq_iff_iff, ← Bool.not_eq_false, ← Bool.not_eq_false, expired_eq_false, expired_eq_false]
  simp only [mergeNewPolicy, calcMinEndTime]
  split_ifs <;> omega

private theorem noConditionIDs_of_cmpPolicy (same : cmpPolicy old policy = true) {op : String}
    (allowed : op ∈ noConditionIDs policy.rules.allow) :
    op ∈ noConditionIDs old.rules.allow := by
  simp only [cmpPolicy, Bool.and_eq_true, operationsCovered, all_eq_true] at same
  obtain ⟨item, mem, rfl⟩ := mem_map.mp allowed
  have covered := same.1.2 item mem
  rw [lookup_assign, AList.lookup_empty, Option.map_id_fun] at covered
  cases found : (getPolicyNoConditionOperations old).1.reverse.find? (fun x => x.id = item.id) with
  | none =>
    rw [found] at covered
    cases covered
  | some stored =>
    refine mem_map.mpr ⟨stored, mem_reverse.mp (mem_of_find?_eq_some found), ?_⟩
    simpa using find?_some found

private theorem allowed_of_merge {op : String} (allowed : op ∈ noConditionIDs policy.rules.allow) :
    op ∈ noConditionIDs (mergeNewPolicy old policy).rules.stored.allow ∨ op ∈ noConditionIDs policy.rules.deny ∨
      op ∈ noConditionIDs old.rules.deny := by
  by_cases denied : op ∈ unconditionalIDs (mergeNewPolicy old policy).rules.deny
  · exact .inr ((mergeNewPolicy_deny old policy op).mp denied)
  · refine .inl (noConditionIDs_storedRules ?_)
    rw [noConditionIDs_of_single (single_mergeNewPolicy old policy).1]
    exact (mergeNewPolicy_allow old policy op).mpr ⟨.inl allowed, denied⟩

section

variable {svc : Services} {table after : PolicyTable} {now : Int} {policys : List PolicyInfo} {call : CreateCall}
  {policyIDs : List String}

private theorem ValidPolicy.not_expired_of_cmpPolicy (valid : ValidPolicy now policy)
    (same : cmpPolicy old policy = true) :
    old.expired now = false := by
  have endTime : old.endTime = policy.endTime := by
    simp only [cmpPolicy, Bool.and_eq_true, beq_iff_eq] at same
    exact same.1.1
  rw [expired_eq_false, endTime]
  exact valid.endTime.imp_right le_of_lt

/-- A policy takes effect exactly when the row it finds is not expired. -/
theorem takesEffect_iff (ids : (table.map PolicyInfo.id).Nodup) (new : NewIDs table)
    (ran : call.run svc table now new.newV4 policys = .ok (policyIDs, after)) {policy : PolicyInfo}
    (asked : policy ∈ policys) :
    TakesEffect table after now policy ↔ ∀ old, latest table policy.key = some old → old.expired now = false := by
  obtain ⟨keys, valid, idNameMap, rfl⟩ := CreateCall.run_ok ran
  have allValid := valid policy asked
  cases found : latest table policy.key with
  | none =>
    obtain ⟨n, written⟩ : ∃ n,
        latest (writePlan table now (getCreateAndUpdatePolicy table new.newV4 policys idNameMap)) policy.key =
          some (inserted now (issued new.newV4 idNameMap n policy)) :=
      latest_writePlan_of_none mergeNewPolicy_id keys now new asked found
    refine iff_of_true ⟨_, written, allValid.not_expired, fun op allowed => .inl ?_⟩ (fun _ absent => by cases absent)
    exact noConditionIDs_storedRules allowed
  | some old =>
    have written :
        latest (writePlan table now (getCreateAndUpdatePolicy table new.newV4 policys idNameMap)) policy.key =
          some (if cmpPolicy old policy then old else overwritten now (mergeNewPolicy old policy) old) :=
      latest_writePlan_of_some mergeNewPolicy_id ids keys now new asked found
    have stored := latest_mem found
    simp only [Option.some.injEq, forall_eq']
    by_cases same : cmpPolicy old policy = true
    · rw [if_pos same] at written
      have fresh := allValid.not_expired_of_cmpPolicy same
      refine iff_of_true ⟨old, written, fresh, fun op allowed => .inl ?_⟩ fresh
      exact noConditionIDs_of_cmpPolicy same allowed
    · rw [if_neg same] at written
      have endTime : (overwritten now (mergeNewPolicy old policy) old).expired now = old.expired now :=
        expired_mergeNewPolicy allValid
      constructor
      · rintro ⟨row, found', fresh, -⟩
        obtain rfl := Option.some.inj (written.symm.trans found')
        exact endTime.symm.trans fresh
      · intro fresh
        refine ⟨_, written, endTime.trans fresh, fun op allowed => ?_⟩
        exact (allowed_of_merge allowed).imp_right (Or.imp_right fun denied => ⟨old, stored.1, stored.2, fresh, denied⟩)

/-- All policies of a successful request take effect exactly when none of them finds an expired row. -/
theorem all_takeEffect_iff (ids : (table.map PolicyInfo.id).Nodup) (new : NewIDs table)
    (ran : call.run svc table now new.newV4 policys = .ok (policyIDs, after)) :
    (∀ policy ∈ policys, TakesEffect table after now policy) ↔
      ∀ policy ∈ policys, ∀ old, latest table policy.key = some old → old.expired now = false :=
  forall₂_congr fun _ asked => takesEffect_iff ids new ran asked

end

namespace Sample

/-- A request to let the application read a document. -/
def grant : PolicyInfo := row "d" [rule "read"] []

/-- A row of the same key that ended at time 10. -/
def ended : PolicyInfo := { row "d" [rule "write"] [] with endTime := 10 }

end Sample

open Sample

theorem all_takeEffect_iff_sample : ∃ policyIDs after,
    CreateCall.createPrivate.run services [row "d" [rule "write"] []] 100 (newV4 'u') [grant] = .ok (policyIDs, after) ∧
      ((∀ policy ∈ [grant], TakesEffect [row "d" [rule "write"] []] after 100 policy) ↔
        ∀ policy ∈ [grant], ∀ old, latest [row "d" [rule "write"] []] policy.key = some old →
        old.expired 100 = false) := by
  let new := newIDs 'u' [row "d" [rule "write"] []] (by decide)
  have ran : CreateCall.createPrivate.run services [row "d" [rule "write"] []] 100 new.newV4 [grant] = .ok (_, _) := rfl
  exact ⟨_, _, ran, all_takeEffect_iff (by decide) new ran⟩

/-- A permanent grant into a row that has ended succeeds, and the row stays ended. -/
theorem grant_into_expired_row : ∃ policyIDs after,
    CreateCall.createPrivate.run services [ended] 100 (newV4 'u') [grant] = .ok (policyIDs, after) ∧
      ¬ TakesEffect [ended] after 100 grant := by
  refine ⟨_, _, rfl, ?_⟩
  rintro ⟨row, found, fresh, -⟩
  cases Option.some.inj found
  cases fresh

end SecurityFabric.Authorization
