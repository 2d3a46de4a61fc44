import SecurityFabric.ToMathlib.GoStrings
import SecurityFabric.Machine.Run
import Mathlib.Data.List.Basic

/-! # Registering clients

`PublicRegister` compares the redirect URIs of a client with the configured prefixes, letter by letter. Whoever follows
such a URI later goes by its scheme, its host and its port.
-/

namespace SecurityFabric.Authentication

/-- The error of `PublicRegister` about the first redirect URI that begins with none of the prefixes. -/
def publicRegister (limitRedirectURI redirectURIs : List (List Char)) : Option (List Char) :=
  if limitRedirectURI.length > 0 then
    (redirectURIs.find? fun redirectURI => !limitRedirectURI.any (·.isPrefixOf redirectURI)).map
      ("redirect url is not allowed: ".toList ++ ·)
  else none

/-- Of the authority of a URL, what is before the last at sign names a user. -/
def hostPort (authority : List Char) : List Char :=
  match GoStrings.lastIndex '@' authority with
  | some i => authority.drop (i + 1)
  | none => authority

/-- The scheme of a URL, and its host and port; the authority ends at a slash, a question mark or a number sign. -/
def origin (url : List Char) : Option (List Char × List Char) :=
  match url.dropWhile (· ≠ ':') with
  | ':' :: '/' :: '/' :: rest => some (url.takeWhile (· ≠ ':'), hostPort (rest.takeWhile (· ∉ ['/', '?', '#'])))
  | _ => none

/-! # Setting the configuration of Authentication

`SetConfig` of the logic begins a transaction for the message that tells the other replicas about a new expiration. The
values are written by `SetConfig` of the database layer, in a transaction of its own.
-/

/-- The keys that can be set; no other key can. -/
inductive ConfigKey where
  | rememberFor | rememberVisible | smsExpiration | other
deriving DecidableEq, Repr

structure Config where
  rememberFor : Int
  rememberVisible : Bool
  smsExpiration : Int

/-- The values of `t_conf`, and the expirations of the messages that were committed. -/
structure ConfStore where
  conf : ConfigKey → String
  messages : List Int

inductive ConfStep where
  | begin | beginInner | exec (k : ConfigKey) | commitInner | addOutbox | commit
deriving DecidableEq, Repr

/-- A call, the keys as the map is gone through, and the errors of what fails. -/
structure SetConfigCall where
  configKeys : List ConfigKey
  cfg : Config
  checkAdmin : Except String Unit
  perform : ConfStep → Except String Unit

def checkParams (configKeys : List ConfigKey) (cfg : Config) : Except String Unit := configKeys.forM fun
    | .rememberFor => if cfg.rememberFor < 0 then throw "invalid remember_for" else pure ()
    | .rememberVisible => pure ()
    | .smsExpiration =>
      if cfg.smsExpiration < 1 ∨ cfg.smsExpiration > 60 then throw "invalid anonymous_sms_expiration" else pure ()
    | .other => throw "this error is unexpected"

namespace SetConfigCall

variable (call : SetConfigCall)

def value : ConfigKey → Except String String
  | .rememberFor => pure (toString call.cfg.rememberFor)
  | .rememberVisible => pure (toString call.cfg.rememberVisible)
  | .smsExpiration => pure (toString call.cfg.smsExpiration)
  | .other => throw "this error is unexpected"

/-- `SetConfig` of the database layer. -/
def setConfigDB (conf : ConfigKey → String) : Except String (ConfigKey → String) := do
  call.perform .beginInner
  let conf ← call.configKeys.foldlM (fun conf k => do
    let value ← call.value k
    call.perform (.exec k)
    pure (Function.update conf k value)) conf
  call.perform .commitInner
  pure conf

/-- `SetConfig` up to the values. -/
def write (conf : ConfigKey → String) : Except String (ConfigKey → String) := do
  call.checkAdmin
  checkParams call.configKeys call.cfg
  call.perform .begin
  call.setConfigDB conf

/-- The rest of it, with the deferred commit: the messages that are sent. -/
def announce : Except String (List Int) := do
  if .smsExpiration ∉ call.configKeys then
    call.perform .commit
    pure []
  else
    call.perform .addOutbox
    call.perform .commit
    pure [call.cfg.smsExpiration]

def setConfig (store : ConfStore) : Except String Unit × ConfStore :=
  match call.write store.conf with
  | .error err => (.error err, store)
  | .ok conf =>
    match call.announce with
    | .error err => (.error err, { store with conf := conf })
    | .ok messages => (.ok (), ⟨conf, store.messages ++ messages⟩)

end SetConfigCall

/-! # The thread that sends audit logs

`Log` puts a message into `t_outbox_unordered` and notifies a thread. When a ticker or a notification wakes it up, it
calls `push` until that returns that all is finished. A push makes rows available again that have been in progress for a
minute, claims one, and tries to publish and delete it until both succeed. One thread is alone with the table; which
calls fail and which rows are that old is open.
-/

/-- A row of `t_outbox_unordered`; its status is in progress or not started. -/
structure UnorderedOutbox where
  id : Nat
  inProgress : Bool
deriving DecidableEq, Repr

/-- How the calls of a push go: whether each of the database calls succeeds, and whether some try to publish and delete
does. -/
structure PushOutcome where
  (restarts selects updates delivers : Bool)
  stale : Nat → Bool

/-- How a push ends: with a database error, without a row to claim, with one row less, or not at all. -/
inductive PushEnd where
  | failed
  | nothing
  | sent
  | retrying
deriving DecidableEq, Repr

/-- The flag that `push` returns. -/
def PushEnd.isAllFinished (ended : PushEnd) : Bool := ended = .nothing

/-- `RestartUnorderedOutboxInfo`. -/
def restartUnorderedOutboxInfo (stale : Nat → Bool) (rows : List UnorderedOutbox) : List UnorderedOutbox :=
  rows.map fun row => ⟨row.id, row.inProgress && !stale row.id⟩

/-- `push`, with the table that it leaves. -/
def push (outcome : PushOutcome) (rows : List UnorderedOutbox) : List UnorderedOutbox × PushEnd :=
  if !outcome.restarts then (rows, .failed)
  else
    let rows := restartUnorderedOutboxInfo outcome.stale rows
    if !outcome.selects then (rows, .failed)
    else match rows.find? fun row => !row.inProgress with
      | none => (rows, .nothing)
      | some row =>
        if !outcome.updates then (rows, .failed)
        else if outcome.delivers then (rows.filter fun other => other.id ≠ row.id, .sent)
        else (rows.map fun other => if other.id = row.id then { other with inProgress := true } else other, .retrying)

/-- The table before each push that follows a wake-up, as long as there is another one. -/
def beforePush (outcomes : Nat → PushOutcome) (rows : List UnorderedOutbox) : Nat → Option (List UnorderedOutbox)
  | 0 => some rows
  | n + 1 => (beforePush outcomes rows n).bind fun before =>
    let (after, ended) := push (outcomes n) before
    if ended.isAllFinished ∨ ended = .retrying then none else some after

end SecurityFabric.Authentication
