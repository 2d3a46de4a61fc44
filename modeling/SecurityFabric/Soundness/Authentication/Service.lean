import SecurityFabric.Model.Authentication.Service
import Mathlib.Data.Fintype.EquivFin
import SecurityFabric.ToMathlib.Guarantees

/-! # Where accepted redirect URIs lead

Behind a prefix that ends with its host or port a URI may go on with an at sign and another host. Behind a slash the
host is complete. So all clients that are let through lead to the allowed origins exactly if each prefix has a path.
-/

namespace SecurityFabric.Authentication

section

open List GoStrings

/-- A prefix `scheme://host[:port][/path]`. -/
structure LimitURI where
  (scheme host : List Char)
  path : Option (List Char)
  isScheme : ∀ letter ∈ scheme, letter ≠ ':'
  isHost : ∀ letter ∈ host, letter ∉ ['/', '?', '#'] ∧ letter ≠ '@'

def LimitURI.text (limit : LimitURI) : List Char :=
  limit.scheme ++ ("://".toList ++ (limit.host ++ limit.path.elim [] ('/' :: ·)))

/-- A URL whose authority is followed by nothing or by a slash. -/
theorem origin_of_authority {scheme authority tail : List Char} (isScheme : ∀ letter ∈ scheme, letter ≠ ':')
    (isAuthority : ∀ letter ∈ authority, letter ∉ ['/', '?', '#']) (ends : tail = [] ∨ ∃ rest, tail = '/' :: rest) :
    origin (scheme ++ ("://".toList ++ (authority ++ tail))) = some (scheme, hostPort authority) := by
  have before : ∀ letter ∈ scheme, decide (letter ≠ ':') = true :=
    fun letter mem => decide_eq_true (isScheme letter mem)
  have whole : (authority ++ tail).takeWhile (· ∉ ['/', '?', '#']) = authority := by
    rw [takeWhile_append_of_pos fun letter mem => decide_eq_true (isAuthority letter mem)]
    rcases ends with rfl | ⟨rest, rfl⟩ <;> simp
  rw [origin, dropWhile_append_of_pos before, takeWhile_append_of_pos before]
  change some (scheme ++ [], hostPort ((authority ++ tail).takeWhile (· ∉ ['/', '?', '#']))) = _
  rw [append_nil, whole]

private theorem publicRegister_eq_none {limits redirectURIs : List (List Char)} :
    publicRegister limits redirectURIs = none ↔ limits = [] ∨
    ∀ uri ∈ redirectURIs, ∃ limit ∈ limits, limit <+: uri := by
  rw [publicRegister]
  split_ifs with some
  · simp [ne_nil_of_length_pos some]
  · simp [length_eq_zero_iff.mp (Nat.eq_zero_of_not_pos some)]

/-- Every redirect URI of every client that is let through leads to an allowed origin exactly if there are prefixes and
all have paths. -/
theorem redirects_allowed_iff (limits : List LimitURI) :
    (∀ redirectURIs, publicRegister (limits.map LimitURI.text) redirectURIs = none →
      ∀ uri ∈ redirectURIs, ∃ limit ∈ limits, origin uri = some (limit.scheme, limit.host)) ↔
    limits ≠ [] ∧ ∀ limit ∈ limits, limit.path ≠ none := by
  constructor
  · intro allowed
    refine ⟨?_, fun limit mem noPath => ?_⟩
    · rintro rfl
      obtain ⟨limit, mem, -⟩ := allowed [[]] rfl [] mem_cons_self
      cases mem
    · -- a host that is none of the allowed ones, behind the prefix and an at sign
      obtain ⟨n, fresh⟩ := Infinite.exists_notMem_finset (limits.map fun limit => limit.host.length).toFinset
      have isForeign : ∀ letter ∈ replicate n 'a', letter = 'a' := fun letter => eq_of_mem_replicate
      have passed := publicRegister_eq_none.mpr (.inr (forall_mem_singleton.mpr
        ⟨limit.text, mem_map_of_mem mem, prefix_append limit.text ('@' :: replicate n 'a')⟩))
      obtain ⟨other, isOther, same⟩ := allowed _ passed _ mem_cons_self
      have read := @origin_of_authority limit.scheme (limit.host ++ '@' :: replicate n 'a') [] limit.isScheme
        (forall_mem_append.mpr ⟨fun letter inside => (limit.isHost letter inside).1,
          forall_mem_cons.mpr ⟨by decide, fun letter inside => isForeign letter inside ▸ by decide⟩⟩) (.inl rfl)
      have foreign : hostPort (limit.host ++ '@' :: replicate n 'a') = replicate n 'a' := by
        rw [hostPort, lastIndex_append fun inside => absurd (isForeign _ inside) (by decide)]
        simp
      have text : limit.text ++ '@' :: replicate n 'a' = limit.scheme ++
          ("://".toList ++ (limit.host ++ '@' :: replicate n 'a' ++ [])) := by
        simp [LimitURI.text, noPath]
      rw [text, read, foreign, Option.some_inj, Prod.mk.injEq] at same
      exact fresh (by simpa using ⟨other, isOther, by rw [← same.2, length_replicate]⟩)
  · rintro ⟨some, paths⟩ redirectURIs passed uri mem
    obtain ⟨text, isText, more, rfl⟩ := ((publicRegister_eq_none.mp passed).resolve_left (by simpa using some)) uri mem
    obtain ⟨limit, isLimit, rfl⟩ := mem_map.mp isText
    obtain ⟨path, isPath⟩ := Option.ne_none_iff_exists'.mp (paths limit isLimit)
    have read := @origin_of_authority limit.scheme limit.host ('/' :: (path ++ more)) limit.isScheme
      (fun letter inside => (limit.isHost letter inside).1) (.inr ⟨_, rfl⟩)
    have host : hostPort limit.host = limit.host := by
      rw [hostPort, lastIndex_eq_none.mpr fun inside => (limit.isHost '@' inside).2 rfl]
    rw [host] at read
    exact ⟨limit, isLimit, by simpa [LimitURI.text, isPath] using read⟩

/-- Another host begins like the allowed one. -/
theorem prefix_of_other_host : publicRegister ["https://host".toList] ["https://host.evil.com".toList] = none ∧
    origin "https://host".toList = some ("https".toList, "host".toList) ∧
    origin "https://host.evil.com".toList = some ("https".toList, "host.evil.com".toList) := by
  decide

end

/-! # Stored configurations and messages about them

The values are committed before the message is. A call that fails in between has changed them, and nobody is told.
-/

section

open Machine

variable {call : SetConfigCall} {store : ConfStore}

/-- The last message tells the stored expiration. -/
def Told (store : ConfStore) : Prop :=
  ∀ expiration ∈ store.messages.getLast?, store.conf .smsExpiration = toString expiration

/-- A call that fails leaves all values as they were, and the last message tells the stored expiration afterwards. -/
def ConfKept (store : ConfStore) (call : SetConfigCall) : Prop :=
  (∀ err, (call.setConfig store).1 = .error err → (call.setConfig store).2.conf = store.conf) ∧
    Told (call.setConfig store).2

/-- All steps up to the commit of the values succeed, one of the values is not the stored one, and then the
message cannot be added or cannot be committed. -/
structure SetConfigCall.BreaksOff (call : SetConfigCall) (store : ConfStore) : Prop where
  allowed : call.checkAdmin = .ok ()
  valid : checkParams call.configKeys call.cfg = .ok ()
  succeed : ∀ step ∈ [.begin, .beginInner, .commitInner] ++ call.configKeys.map .exec, call.perform step = .ok ()
  changes : ∃ k ∈ call.configKeys, call.value k ≠ .ok (store.conf k)
  fails : (∃ err, call.perform .commit = .error err) ∨
    .smsExpiration ∈ call.configKeys ∧ ∃ err, call.perform .addOutbox = .error err

/-- What the loop over the keys writes. -/
private theorem foldlM_eq_ok {keys : List ConfigKey} {conf after : ConfigKey → String} :
    keys.foldlM (fun conf k => do
        let value ← call.value k
        call.perform (.exec k)
        pure (Function.update conf k value)) conf = .ok after ↔
      (∀ k ∈ keys, call.perform (.exec k) = .ok () ∧ call.value k = .ok (after k)) ∧ ∀ k ∉ keys, after k = conf k := by
  induction keys generalizing conf with
  | nil => simp [pure, Except.pure, funext_iff, eq_comm]
  | cons k keys ih =>
    rw [List.foldlM_cons]
    constructor
    · intro folded
      obtain ⟨next, first, later⟩ := bind_ok folded
      obtain ⟨value, isValue, rest⟩ := bind_ok first
      obtain ⟨_, executed, same⟩ := bind_ok rest
      cases same
      obtain ⟨new, old⟩ := ih.mp later
      refine ⟨List.forall_mem_cons.mpr ⟨⟨executed, ?_⟩, new⟩, fun key absent => ?_⟩
      · by_cases again : k ∈ keys
        · exact (new k again).2
        · rw [isValue, old k again, Function.update_self]
      · rw [old key (List.not_mem_of_not_mem_cons absent), Function.update_of_ne (List.ne_of_not_mem_cons absent)]
    · rintro ⟨new, old⟩
      obtain ⟨⟨executed, isValue⟩, later⟩ := List.forall_mem_cons.mp new
      rw [isValue, ok_bind, executed, ok_bind]
      refine ih.mpr ⟨later, fun key absent => ?_⟩
      by_cases own : key = k
      · rw [own, Function.update_self]
      · rw [Function.update_of_ne own, old key (by simp [own, absent])]

/-- The values are committed exactly if all steps up to there succeed. -/
private theorem write_eq_ok {conf after : ConfigKey → String} : call.write conf = .ok after ↔
    (call.checkAdmin = .ok () ∧ checkParams call.configKeys call.cfg = .ok () ∧
      ∀ step ∈ [.begin, .beginInner, .commitInner] ++ call.configKeys.map .exec, call.perform step = .ok ()) ∧
      (∀ k ∈ call.configKeys, call.value k = .ok (after k)) ∧ ∀ k ∉ call.configKeys, after k = conf k := by
  constructor
  · intro written
    obtain ⟨_, allowed, written⟩ := bind_ok written
    obtain ⟨_, valid, written⟩ := bind_ok written
    obtain ⟨_, begun, written⟩ := bind_ok written
    obtain ⟨_, begunInner, written⟩ := bind_ok written
    obtain ⟨last, folded, written⟩ := bind_ok written
    obtain ⟨_, committed, same⟩ := bind_ok written
    cases same
    obtain ⟨new, old⟩ := foldlM_eq_ok.mp folded
    exact ⟨⟨allowed, valid, by simpa [begun, begunInner, committed] using fun k mem => (new k mem).1⟩,
      fun k mem => (new k mem).2, old⟩
  · rintro ⟨⟨allowed, valid, succeed⟩, new, old⟩
    simp only [List.forall_mem_append, List.forall_mem_cons, List.forall_mem_map] at succeed
    obtain ⟨⟨begun, begunInner, committed, -⟩, executed⟩ := succeed
    have folded := foldlM_eq_ok.mpr ⟨fun k mem => ⟨executed k mem, new k mem⟩, old⟩
    rw [SetConfigCall.write, SetConfigCall.setConfigDB, allowed, valid, begun, begunInner, folded, committed]
    rfl

private theorem announce_eq_error : (∃ err, call.announce = .error err) ↔ (∃ err, call.perform .commit = .error err) ∨
    .smsExpiration ∈ call.configKeys ∧ ∃ err, call.perform .addOutbox = .error err := by
  unfold SetConfigCall.announce
  rcases call.perform .commit with failed | _ <;> rcases call.perform .addOutbox with unsent | _ <;>
    by_cases isSet : .smsExpiration ∈ call.configKeys <;> simp [isSet, bind, Except.bind, pure, Except.pure]

/-- Accepted keys have values. -/
private theorem exists_value (valid : checkParams call.configKeys call.cfg = .ok ()) {k : ConfigKey}
    (mem : k ∈ call.configKeys) : ∃ value, call.value k = .ok value := by
  have accepted := forM_ok valid k mem
  cases k with
  | other => cases accepted
  | rememberFor | rememberVisible | smsExpiration => exact ⟨_, rfl⟩

private theorem breaksOff_iff : call.BreaksOff store ↔
    ∃ after err, call.write store.conf = .ok after ∧ call.announce = .error err ∧ after ≠ store.conf := by
  constructor
  · rintro ⟨allowed, valid, succeed, ⟨k, mem, changed⟩, fails⟩
    obtain ⟨err, failed⟩ := announce_eq_error.mpr fails
    let after (k : ConfigKey) : String := if k ∈ call.configKeys then
      ((call.value k).toOption).getD "" else store.conf k
    have new : ∀ k ∈ call.configKeys, call.value k = .ok (after k) := by
      intro k mem
      obtain ⟨value, isValue⟩ := exists_value valid mem
      simp [after, mem, isValue, Except.toOption]
    refine ⟨after, err, write_eq_ok.mpr ⟨⟨allowed, valid, succeed⟩, new, fun k absent => if_neg absent⟩, failed, ?_⟩
    rintro same
    exact changed (same ▸ new k mem)
  · rintro ⟨after, err, written, failed, changed⟩
    obtain ⟨⟨allowed, valid, succeed⟩, new, old⟩ := write_eq_ok.mp written
    refine ⟨allowed, valid, succeed, ?_, announce_eq_error.mp ⟨err, failed⟩⟩
    by_contra! same
    refine changed (funext fun k => ?_)
    by_cases mem : k ∈ call.configKeys
    · exact Except.ok.inj ((new k mem).symm.trans (same k mem))
    · exact old k mem

private theorem confKept_of_not_breaksOff (told : Told store) (whole : ¬ call.BreaksOff store) :
    ConfKept store call := by
  rw [breaksOff_iff] at whole
  unfold ConfKept SetConfigCall.setConfig
  cases written : call.write store.conf with
  | error err => exact ⟨fun _ _ => rfl, told⟩
  | ok after =>
    cases announced : call.announce with
    | error err =>
      obtain rfl := not_not.mp fun changed => whole ⟨after, err, written, announced, changed⟩
      exact ⟨fun _ _ => rfl, told⟩
    | ok messages =>
      obtain ⟨-, new, old⟩ := write_eq_ok.mp written
      unfold SetConfigCall.announce at announced
      split_ifs at announced with isSet
      · obtain ⟨_, -, rest⟩ := bind_ok announced
        obtain ⟨_, -, same⟩ := bind_ok rest
        cases same
        simpa [Told] using (Except.ok.inj (new .smsExpiration isSet)).symm
      · obtain ⟨_, -, same⟩ := bind_ok announced
        cases same
        simpa [Told, old .smsExpiration isSet] using told

/-- Along all sequences of calls, failing calls leave the values as they were and messages tell the stored
expiration exactly if no call breaks off. -/
theorem conf_kept_iff (conf : ConfigKey → String) (calls : List SetConfigCall) :
    Meets (fun store call => some (call.setConfig store).2) ConfKept ⟨conf, []⟩ calls ↔
      Meets (fun store call => some (call.setConfig store).2) (fun store call => ¬ call.BreaksOff store)
        ⟨conf, []⟩ calls := by
  constructor
  · refine Meets.imp ?_
    rintro store call ⟨kept, -⟩ broken
    obtain ⟨after, err, written, failed, changed⟩ := breaksOff_iff.mp broken
    simp only [SetConfigCall.setConfig, written, failed] at kept
    exact changed (kept err rfl)
  · intro whole
    refine (whole.and_invariant Told ?_ fun _ mem => by cases mem).imp fun both =>
      confKept_of_not_breaksOff both.1 both.2
    rintro store next call told clean ⟨⟩
    exact (confKept_of_not_breaksOff told clean).2

/-- The message cannot be added, and the value is stored. -/
theorem failed_call_stores_expiration :
    let call : SetConfigCall :=
  ⟨[.smsExpiration], ⟨0, true, 5⟩, pure (), fun step => if step = .addOutbox then throw "outbox" else pure ()⟩
    (call.setConfig ⟨fun _ => "30", [30]⟩).1 = .error "outbox" ∧
      (call.setConfig ⟨fun _ => "30", [30]⟩).2.conf .smsExpiration = "5" :=
  ⟨rfl, rfl⟩

end

/-! # When the audit-log thread goes back to sleep

A push that fails returns that not all is finished, and so the thread calls it again at once. It goes back to sleep, and
leaves the database alone after an error, exactly if no push fails; then it makes at most one push more than there are
rows.
-/

variable {outcomes : Nat → PushOutcome} {rows : List UnorderedOutbox}

/-- After a wake-up there are finitely many pushes, and none behind one that failed. -/
structure GoesToSleep (outcomes : Nat → PushOutcome) (rows : List UnorderedOutbox) : Prop where
  ends : ∃ n, beforePush outcomes rows n = none
  waits : ∀ n, ∀ before ∈ beforePush outcomes rows n, (push (outcomes n) before).2 = .failed →
    beforePush outcomes rows (n + 1) = none

/-- None of the database calls that a push makes fails: it claims a row only if one is not in progress or is stale. -/
def PushOutcome.Succeeds (outcome : PushOutcome) (rows : List UnorderedOutbox) : Prop :=
  outcome.restarts = true ∧ outcome.selects = true ∧
    (outcome.updates = true ∨ ∀ row ∈ rows, row.inProgress = true ∧ outcome.stale row.id = false)

private theorem push_ne_failed_iff {outcome : PushOutcome} :
    (push outcome rows).2 ≠ .failed ↔ outcome.Succeeds rows := by
  have claimed : (restartUnorderedOutboxInfo outcome.stale rows).find? (fun row => !row.inProgress) = none ↔
      ∀ row ∈ rows, row.inProgress = true ∧ outcome.stale row.id = false := by
    simp [restartUnorderedOutboxInfo, List.find?_eq_none]
  rw [PushOutcome.Succeeds, ← claimed]
  clear claimed
  simp only [push]
  generalize (restartUnorderedOutboxInfo outcome.stale rows).find? _ = found
  cases found <;> cases outcome.restarts <;> cases outcome.selects <;> cases outcome.updates <;>
    cases outcome.delivers <;> simp

private theorem length_push {outcome : PushOutcome} (sent : (push outcome rows).2 = .sent) :
    (push outcome rows).1.length < rows.length := by
  have same : (restartUnorderedOutboxInfo outcome.stale rows).length = rows.length := List.length_map _
  cases found : (restartUnorderedOutboxInfo outcome.stale rows).find? fun row => !row.inProgress with
  | none =>
    simp only [push, found] at sent
    split_ifs at sent
  | some row =>
    simp only [push, found] at sent ⊢
    split_ifs at sent ⊢
    rw [← same]
    exact List.length_filter_lt_length_iff_exists.mpr ⟨row, List.mem_of_find?_eq_some found, by simp⟩

private theorem beforePush_succ {n : Nat} {after : List UnorderedOutbox}
    (next : beforePush outcomes rows (n + 1) = some after) :
    ∃ before, beforePush outcomes rows n = some before ∧ (push (outcomes n) before).1 = after ∧
      ((push (outcomes n) before).2 = .failed ∨ (push (outcomes n) before).2 = .sent) := by
  obtain ⟨before, made, goesOn⟩ := Option.bind_eq_some_iff.mp next
  dsimp only at goesOn
  split_ifs at goesOn with stops
  cases ended : (push (outcomes n) before).2 <;> simp_all [PushEnd.isAllFinished]

/-- Each push that does not fail and is followed by another one takes a row out. -/
theorem length_beforePush (succeed : ∀ n, ∀ before ∈ beforePush outcomes rows n, (outcomes n).Succeeds before) {n : Nat}
    {before : List UnorderedOutbox} (made : beforePush outcomes rows n = some before) :
    before.length + n ≤ rows.length := by
  induction n generalizing before with
  | zero =>
    cases made
    exact Nat.le_refl _
  | succ n ih =>
    obtain ⟨earlier, madeEarlier, rfl, failed | sent⟩ := beforePush_succ made
    · exact absurd failed (push_ne_failed_iff.mpr (succeed n earlier madeEarlier))
    · have fewer := length_push sent
      have most := ih madeEarlier
      omega

theorem goesToSleep_iff :
    GoesToSleep outcomes rows ↔ ∀ n, ∀ before ∈ beforePush outcomes rows n, (outcomes n).Succeeds before := by
  constructor
  · intro sleeps n before made
    refine push_ne_failed_iff.mp fun failed => ?_
    have stops := sleeps.waits n before made failed
    rw [beforePush, made] at stops
    simp [failed, PushEnd.isAllFinished] at stops
  · intro succeed
    refine ⟨⟨rows.length + 1, ?_⟩, fun n before made failed => ?_⟩
    swap
    · exact absurd failed (push_ne_failed_iff.mpr (succeed n before made))
    cases made : beforePush outcomes rows (rows.length + 1) with
    | none => rfl
    | some before =>
      have most := length_beforePush succeed made
      omega

/-- While the first call fails, the thread makes one push after the other, even without any row. -/
theorem restart_failures_keep_thread_awake :
    (beforePush (fun _ => ⟨false, true, true, true, fun _ => false⟩) [] = fun _ => some []) ∧
    ¬ GoesToSleep (fun _ => ⟨false, true, true, true, fun _ => false⟩) [] := by
  have always (n : Nat) : beforePush (fun _ => ⟨false, true, true, true, fun _ => false⟩) [] n = some [] := by
    induction n with
    | zero => rfl
    | succ n ih => simp [beforePush, ih, push, PushEnd.isAllFinished]
  refine ⟨funext always, fun sleeps => ?_⟩
  obtain ⟨n, ended⟩ := sleeps.ends
  cases (always n).symm.trans ended

end SecurityFabric.Authentication
