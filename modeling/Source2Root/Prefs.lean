import Mathlib

/-!
# The client preferences service

`source2root::prefs::Service`: the cache of cookie values in front of a storage
that only a worker thread touches.  The queue has one worker and is first in,
first out, so between two steps of the owner thread a job is waiting, running or
ready with its outcome.  What the storage answers is the environment's choice.
Shared pointers to accounts and cookies are addresses, never used twice.
-/

set_option autoImplicit false

namespace Source2Root.Prefs

inductive Access where
  | publicAccess
  | protectedAccess
  | privateAccess
deriving DecidableEq, Repr

structure Definition where
  name : String
  description : String
  access : Access
deriving DecidableEq, Repr

/-- `revision` is the write sequence of one account object, in memory only. -/
structure Value where
  text : String := ""
  updated : Int := 0
  revision : Nat := 0
deriving DecidableEq, Repr

abbrev Values := Std.ExtTreeMap String Value

inductive Status where
  | loading
  | ready
  | failed
deriving DecidableEq, Repr

structure Cookie where
  definition : Definition
  state : Status := .loading
  error : String := ""
deriving DecidableEq, Repr

structure Identity where
  slot : Int := -1
  connection : Nat := 0
  account : Nat := 0
deriving DecidableEq, Repr

structure Account where
  state : Status := .loading
  values : Values := ∅
  dirty : Values := ∅
  revision : Nat := 0
  loading : Bool := false
  saving : Bool := false
  writeFailed : Bool := false
  error : String := ""
  writeError : String := ""

def maxCookies : Nat := 256
def maxClients : Nat := 128
def maxAccounts : Nat := 256
def queueCapacity : Nat := 256
/-- `std::numeric_limits<std::uint64_t>::max()`. -/
def maxRevision : Nat := 2 ^ 64 - 1

/-- A job of the worker, with what its two closures capture. -/
inductive Task where
  | catalog
  | register (cookie : Nat) (definition : Definition)
  | load (account id : Nat)
  | save (account id : Nat) (batch : Values)

/-- What a job's work ended with; a failure carries what `Message` makes of it. -/
inductive Outcome where
  | failed (message : String)
  | catalog (definitions : List Definition)
  | registered
  | loaded (values : Values)
  | saved

/-- A write the service accepted: which account object took it, and its value. -/
structure Write where
  id : Nat
  name : String
  object : Nat
  value : Value
deriving DecidableEq, Repr

/-- Where the owner thread stands: `Pump` delivers completions and then tries a
save for every account, `RetryWrites` clears failures as it goes. -/
inductive Owner where
  | idle
  | delivering (remaining : Nat) (stopping : Bool)
  | saving (rest : List Nat) (stopping : Bool)
  | evicting (stopping : Bool)
  | retrying (rest : List Nat)
deriving DecidableEq, Repr

/-- What has happened so far, for the statements only: the accepted writes and
the durable ones in order, and whether an account's last load and its last save
failed. -/
structure Ghost where
  accepted : List Write := []
  durable : List Write := []
  loadFailed : Nat → Bool := fun _ => false
  saveFailed : Nat → Bool := fun _ => false

structure State where
  catalogState : Status := .loading
  catalogError : String := ""
  cookieAt : Nat → Cookie := fun _ => { definition := ⟨"", "", .publicAccess⟩ }
  cookieCount : Nat := 0
  cookies : Std.ExtTreeMap String Nat := ∅
  players : Std.ExtTreeMap Int Identity := ∅
  accountAt : Nat → Account := fun _ => {}
  accountCount : Nat := 0
  accounts : Std.ExtTreeMap Nat Nat := ∅
  waiting : List Task := []
  running : Option Task := none
  ready : List (Task × Outcome) := []
  owner : Owner := .idle
  ghost : Ghost := {}

/-! ## Checks -/

def nameCharacter (c : Char) : Bool :=
  ('a' ≤ c ∧ c ≤ 'z') ∨ ('A' ≤ c ∧ c ≤ 'Z') ∨ ('0' ≤ c ∧ c ≤ '9') ∨ c = '_' ∨ c = '-' ∨ c = '.'

def checkName (name : String) : Except String Unit :=
  if name = "" ∨ 30 < name.utf8ByteSize ∨ !name.toList.all nameCharacter then
    throw "Cookie names require 1..30 letters, digits, dots, underscores or hyphens."
  else pure ()

def validate (cookie : Definition) : Except String Unit := do
  checkName cookie.name
  if 255 < cookie.description.utf8ByteSize ∨ Char.ofNat 0 ∈ cookie.description.toList then
    throw "Cookie descriptions must contain at most 255 bytes without NUL."

/-- An individual account of the public universe. -/
def validateAccount (account : Nat) : Except String Unit :=
  if account / 2 ^ 56 ≠ 1 ∨ account / 2 ^ 52 % 16 ≠ 1 ∨ account / 2 ^ 32 % 2 ^ 20 ≠ 1 ∨
      account % 2 ^ 32 = 0 then
    throw "Client preferences require an authenticated individual Steam account."
  else pure ()

def validateValue (value : String) : Except String Unit :=
  if 255 < value.utf8ByteSize ∨ Char.ofNat 0 ∈ value.toList then
    throw "Cookie values must contain at most 255 bytes without NUL."
  else pure ()

/-! ## The worker queue -/

/-- `queue_.Pending()`. -/
def State.pending (s : State) : Nat := s.waiting.length + s.running.toList.length + s.ready.length

/-- All jobs in the order they will be delivered. -/
def State.jobs (s : State) : List Task :=
  s.ready.map Prod.fst ++ s.running.toList ++ s.waiting

/-- `Submit`: none when the queue is full. -/
def submit (s : State) (task : Task) : Option State :=
  if s.pending < queueCapacity then some { s with waiting := s.waiting ++ [task] } else none

/-- The worker takes the oldest job. -/
def take (s : State) : Option State :=
  match s.running, s.waiting with
  | none, task :: rest => some { s with running := some task, waiting := rest }
  | _, _ => none

def writesOf (account id : Nat) (batch : Values) : List Write :=
  batch.toList.map fun (name, value) => { id, name, object := account, value }

/-- The storage has answered the running job.  A save that reports a failure may
have reached the storage all the same. -/
def finish (s : State) (outcome : Outcome) (landed : Bool) : Option State :=
  match s.running with
  | none => none
  | some task =>
      let done := { s with running := none, ready := s.ready ++ [(task, outcome)] }
      match task, outcome with
      | .catalog, .catalog _ | .register _ _, .registered | .load _ _, .loaded _
      | .catalog, .failed _ | .register _ _, .failed _ | .load _ _, .failed _ => some done
      | .save account id batch, .saved =>
          some { done with ghost.durable := s.ghost.durable ++ writesOf account id batch }
      | .save account id batch, .failed _ =>
          if landed then
            some { done with ghost.durable := s.ghost.durable ++ writesOf account id batch }
          else some done
      | _, _ => none

/-! ## Accounts -/

def State.setAccount (s : State) (account : Nat) (f : Account → Account) : State :=
  { s with accountAt := Function.update s.accountAt account (f (s.accountAt account)) }

/-- `std::make_shared<Account>()`, entered under the account id. -/
def State.open (s : State) (id : Nat) : State :=
  { s with
    accountAt := Function.update s.accountAt s.accountCount {}
    accountCount := s.accountCount + 1
    accounts := s.accounts.insert id s.accountCount }

def State.noteLoad (s : State) (id : Nat) (failed : Bool) : State :=
  { s with ghost.loadFailed := Function.update s.ghost.loadFailed id failed }

def State.noteSave (s : State) (id : Nat) (failed : Bool) : State :=
  { s with ghost.saveFailed := Function.update s.ghost.saveFailed id failed }

/-- `Load`. -/
def load (s : State) (id account : Nat) : State :=
  if (s.accountAt account).loading then s
  else
    match submit s (.load account id) with
    | none =>
        (s.setAccount account fun a =>
          { a with state := .failed, error := "Client preferences worker queue is full." }).noteLoad
          id true
    | some s => s.setAccount account fun a => { a with loading := true, state := .loading }

/-- `Save`: an accepted write that finds the queue full stays dirty. -/
def save (s : State) (id account : Nat) : State :=
  let a := s.accountAt account
  if a.saving || a.writeFailed || a.dirty.isEmpty then s
  else
    match submit s (.save account id a.dirty) with
    | none => s
    | some s => s.setAccount account fun a =>
        { a with saving := true, error := "", writeError := "" }

def State.activeAccounts (s : State) : List Nat := s.players.toList.map fun entry => entry.2.account

/-- `Evict`. -/
def evict (s : State) : State :=
  { s with accounts := s.accounts.filter fun id account =>
      let a := s.accountAt account
      !(!s.activeAccounts.contains id && !a.loading && !a.saving && a.dirty.isEmpty) }

/-- The cache takes a write; every write of an account object has a new revision. -/
def accept (s : State) (id account : Nat) (name text : String) (now : Int) : State :=
  let value : Value := { text, updated := now, revision := (s.accountAt account).revision + 1 }
  let s := s.setAccount account fun a => { a with
    revision := a.revision + 1
    values := a.values.insert name value
    dirty := a.dirty.insert name value
    writeFailed := false }
  { s with ghost.accepted := s.ghost.accepted ++ [{ id, name, object := account, value }] }

/-- `Write`. -/
def write (s : State) (id account : Nat) (name text : String) (now : Int) : Except String State :=
  if now < 0 ∨ (s.accountAt account).revision = maxRevision then
    throw "Invalid preference timestamp or write sequence exhausted."
  else pure (save (accept s id account name text now) id account)

/-! ## Operations of the owner thread -/

def State.setCookie (s : State) (cookie : Nat) (f : Cookie → Cookie) : State :=
  { s with cookieAt := Function.update s.cookieAt cookie (f (s.cookieAt cookie)) }

def State.newCookie (s : State) (cookie : Cookie) : State :=
  { s with
    cookieAt := Function.update s.cookieAt s.cookieCount cookie
    cookieCount := s.cookieCount + 1 }

/-- `LoadCatalog`. -/
def loadCatalog (s : State) : State :=
  match submit s .catalog with
  | some s => s
  | none =>
      { s with
        catalogState := .failed, catalogError := "Client preferences worker queue is full." }

def retryCatalog (s : State) : State :=
  if s.catalogState = .failed then
    loadCatalog { s with catalogState := .loading, catalogError := "" }
  else s

/-- The end of `Register`: the storage registers the definition. -/
def submitRegister (s : State) (cookie : Nat) (definition : Definition) : Except String State :=
  match submit s (.register cookie definition) with
  | none => throw "Client preferences worker queue is full."
  | some s =>
      let s := s.setCookie cookie fun c => { c with state := .loading, error := "" }
      pure { s with cookies := s.cookies.insert definition.name cookie }

def register (s : State) (definition : Definition) : Except String State := do
  validate definition
  match s.cookies[definition.name]? with
  | some old =>
      if (s.cookieAt old).definition ≠ definition then
        throw "Cookie already exists with different description or access mode."
      if (s.cookieAt old).state ≠ .failed then return s
      submitRegister s old definition
  | none =>
      if s.cookies.size = maxCookies then
        throw "Client preferences catalog limit (256) reached."
      submitRegister (s.newCookie { definition }) s.cookieCount definition

def checkCookie (s : State) (cookie : Option Nat) : Except String Definition :=
  match cookie with
  | none => throw "Foreign or invalid cookie."
  | some cookie =>
      let c := s.cookieAt cookie
      if s.cookies[c.definition.name]? ≠ some cookie then throw "Foreign or invalid cookie."
      else if c.state ≠ .ready then
        throw (if c.error = "" then "Cookie registration is not complete." else c.error)
      else pure c.definition

def current (s : State) (player : Identity) : Except String Nat :=
  if s.players[player.slot]? = some player then
    match s.accounts[player.account]? with
    | some account => pure account
    | none => throw "map::at"
  else throw "Player connection is no longer available."

/-- The loop over a snapshot: `next` by slot, and the accounts that are `missing`. -/
def snapshot (s : State) (next : Std.ExtTreeMap Int Identity) (missing : Std.ExtTreeSet Nat) :
    List Identity → Except String (Std.ExtTreeMap Int Identity × Std.ExtTreeSet Nat)
  | [] => pure (next, missing)
  | player :: rest => do
      validateAccount player.account
      if player.slot < 0 ∨ maxClients ≤ player.slot ∨ player.connection = 0 ∨
          player.slot ∈ next then
        throw "Invalid or duplicate client preferences connection."
      let missing :=
        if player.account ∈ s.accounts then missing else missing.insert player.account
      snapshot s (next.insert player.slot player) missing rest

/-- A new account starts with its load. -/
def openAndLoad (s : State) (id : Nat) : State := load (s.open id) id s.accountCount

def sync (s : State) (players : List Identity) : Except String State := do
  if maxClients < players.length then
    throw "Client preferences connection limit (128) reached."
  let (next, missing) ← snapshot s ∅ ∅ players
  if maxAccounts < s.accounts.size + missing.size then
    throw "Client preferences account cache limit (256) reached."
  return evict (missing.toList.foldl openAndLoad { s with players := next })

def set (s : State) (player : Identity) (cookie : Option Nat) (text : String) (now : Int) :
    Except String State := do
  let definition ← checkCookie s cookie
  validateValue text
  let account ← current s player
  if (s.accountAt account).state ≠ .ready then throw "Client preferences are not cached."
  write s player.account account definition.name text now

/-- What `SetIdentity` checks first. -/
def checkIdentity (s : State) (id : Nat) (cookie : Option Nat) (text : String) (now : Int) :
    Except String Definition := do
  let definition ← checkCookie s cookie
  validateAccount id
  validateValue text
  if now < 0 then throw "Invalid preference timestamp."
  return definition

/-- `SetIdentity`: a write that throws leaves the new account and its load. -/
def setIdentity (s : State) (id : Nat) (cookie : Option Nat) (text : String) (now : Int) :
    Except String Unit × State :=
  match checkIdentity s id cookie text now with
  | .error error => (.error error, s)
  | .ok definition =>
      let finish (s : State) (account : Nat) : Except String Unit × State :=
        match write s id account definition.name text now with
        | .ok s => (.ok (), s)
        | .error error => (.error error, s)
      match s.accounts[id]? with
      | some account => finish s account
      | none =>
          let s := evict s
          if s.accounts.size = maxAccounts then
            (.error "Client preferences account cache limit (256) reached.", s)
          else finish (openAndLoad s id) s.accountCount

def retryLoad (s : State) (player : Identity) : Except String State := do
  let account ← current s player
  if (s.accountAt account).state = .failed then return load s player.account account
  return s

def refresh (s : State) (player : Identity) : Except String State := do
  let account ← current s player
  let a := s.accountAt account
  if a.loading ∨ a.saving ∨ !a.dirty.isEmpty then
    throw "Client preferences refresh requires a clean, idle cache."
  return load s player.account account

/-! ## Completions -/

/-- `Message` -/
def message (outcome : Outcome) : String :=
  match outcome with
  | .failed text => text
  | _ => ""

def merge (values dirty : Values) : Values :=
  dirty.toList.foldl (fun values (name, value) => values.insert name value) values

def loadCompletion (s : State) (account id : Nat) (outcome : Outcome) : State :=
  let s := s.setAccount account fun a =>
    let a := { a with loading := false, error := message outcome }
    match outcome with
    | .loaded values => { a with state := .ready, values := merge values a.dirty }
    | _ => { a with state := .failed }
  s.noteLoad id (match outcome with | .loaded _ => false | _ => true)

/-- A successful save clears what was not overwritten since. -/
def settle (dirty batch : Values) : Values :=
  dirty.filter fun name value =>
    match batch[name]? with
    | some written => written.revision ≠ value.revision
    | none => true

def saveCompletion (s : State) (account id : Nat) (batch : Values) (outcome : Outcome) : State :=
  let s := s.setAccount account fun a =>
    let a := { a with saving := false, error := message outcome, writeError := message outcome }
    match outcome with
    | .saved => { a with writeFailed := false, dirty := settle a.dirty batch }
    | _ => { a with writeFailed := true }
  s.noteSave id (match outcome with | .saved => false | _ => true)

/-- One definition of the loaded catalog. -/
def addDefinition (s : State) (definition : Definition) : State :=
  match s.cookies[definition.name]? with
  | some found =>
      if (s.cookieAt found).definition ≠ definition then
        let s := s.setCookie found fun c => { c with
          state := .failed
          error := "Cookie already exists with different description or access mode." }
        { s.newCookie { definition, state := .ready } with
          cookies := s.cookies.insert definition.name s.cookieCount }
      else s
  | none =>
      { s.newCookie { definition, state := .ready } with
        cookies := s.cookies.insert definition.name s.cookieCount }

/-- The loop over the catalog; it breaks at the limit. -/
def addCatalog (s : State) : List Definition → State
  | [] => s
  | definition :: rest =>
      if definition.name ∉ s.cookies ∧ s.cookies.size = maxCookies then
        { s with
          catalogState := .failed
          catalogError := "Client preferences catalog limit (256) reached." }
      else addCatalog (addDefinition s definition) rest

def catalogCompletion (s : State) (outcome : Outcome) : State :=
  match outcome with
  | .catalog definitions =>
      addCatalog { s with catalogState := .ready, catalogError := "" } definitions
  | _ => { s with catalogState := .failed, catalogError := message outcome }

def registerCompletion (s : State) (cookie : Nat) (outcome : Outcome) : State :=
  match outcome with
  | .registered => s.setCookie cookie fun c => { c with state := .ready, error := "" }
  | _ =>
      let s := s.setCookie cookie fun c => { c with state := .failed, error := message outcome }
      let name := (s.cookieAt cookie).definition.name
      if s.cookies[name]? = some cookie then { s with cookies := s.cookies.erase name } else s

def completion (s : State) (task : Task) (outcome : Outcome) : State :=
  match task with
  | .catalog => catalogCompletion s outcome
  | .register cookie _ => registerCompletion s cookie outcome
  | .load account id => loadCompletion s account id outcome
  | .save account id batch => saveCompletion s account id batch outcome

/-! ## Steps -/

inductive Label where
  | take
  | finish (outcome : Outcome) (landed : Bool)
  | retryCatalog
  | register (definition : Definition)
  | sync (players : List Identity)
  | set (player : Identity) (cookie : Option Nat) (text : String) (now : Int)
  | setIdentity (id : Nat) (cookie : Option Nat) (text : String) (now : Int)
  | retryLoad (player : Identity)
  | refresh (player : Identity)
  /-- `Pump`, or `CanStop` when `stopping`. -/
  | pump (stopping : Bool)
  | deliver
  | delivered
  | saveNext
  | saved
  /-- The end of `Pump`, with the answer of `CanStop`. -/
  | evict (answer : Option Bool)
  | retryWrites
  | retryNext
  | retried

/-- An operation that throws leaves the state as it was. -/
def attempt (s : State) (result : Except String State) : State :=
  match result with
  | .ok s => s
  | .error _ => s

/-- The answer of `CanStop` after its `Pump`. -/
def stoppable (s : State) : Bool :=
  s.pending == 0 && s.accounts.toList.all fun entry => (s.accountAt entry.2).dirty.isEmpty

def retryOne (s : State) (id account : Nat) : State :=
  save (s.setAccount account fun a => { a with writeFailed := false }) id account

def ownerStep (s : State) : Label → Option State
  | .retryCatalog => if s.owner = .idle then some (retryCatalog s) else none
  | .register definition => if s.owner = .idle then some (attempt s (register s definition)) else none
  | .sync players => if s.owner = .idle then some (attempt s (sync s players)) else none
  | .set player cookie text now =>
      if s.owner = .idle then some (attempt s (set s player cookie text now)) else none
  | .setIdentity id cookie text now =>
      if s.owner = .idle then some (setIdentity s id cookie text now).2 else none
  | .retryLoad player => if s.owner = .idle then some (attempt s (retryLoad s player)) else none
  | .refresh player => if s.owner = .idle then some (attempt s (refresh s player)) else none
  | .pump stopping =>
      if s.owner = .idle then some { s with owner := .delivering s.ready.length stopping } else none
  | .deliver =>
      match s.owner, s.ready with
      | .delivering (remaining + 1) stopping, (task, outcome) :: rest =>
          some { completion { s with ready := rest } task outcome with
            owner := .delivering remaining stopping }
      | _, _ => none
  | .delivered =>
      match s.owner with
      | .delivering 0 stopping =>
          some { s with owner := .saving (s.accounts.toList.map Prod.fst) stopping }
      | _ => none
  | .saveNext =>
      match s.owner with
      | .saving (id :: rest) stopping =>
          let s := { s with owner := .saving rest stopping }
          some (match s.accounts[id]? with
            | some account => save s id account
            | none => s)
      | _ => none
  | .saved =>
      match s.owner with
      | .saving [] stopping => some { s with owner := .evicting stopping }
      | _ => none
  | .evict answer =>
      match s.owner with
      | .evicting stopping =>
          let s := { evict s with owner := .idle }
          if answer = (if stopping then some (stoppable s) else none) then some s else none
      | _ => none
  | .retryWrites =>
      if s.owner = .idle then
        some { s with owner := .retrying (s.accounts.toList.map Prod.fst) }
      else none
  | .retryNext =>
      match s.owner with
      | .retrying (id :: rest) =>
          let s := { s with owner := .retrying rest }
          some (match s.accounts[id]? with
            | some account => retryOne s id account
            | none => s)
      | _ => none
  | .retried => if s.owner = .retrying [] then some { s with owner := .idle } else none
  | .take | .finish _ _ => none

def next (s : State) : Label → Option State
  | .take => take s
  | .finish outcome landed => finish s outcome landed
  | label => ownerStep s label

/-- The constructor queues the load of the catalog. -/
def init : State := loadCatalog {}

/-! ## Queries -/

def get (s : State) (player : Identity) (cookie : Option Nat) : Except String Value := do
  let definition ← checkCookie s cookie
  let account ← current s player
  if (s.accountAt account).state ≠ .ready then throw "Client preferences are not cached."
  return ((s.accountAt account).values[definition.name]?).getD {}

def status (s : State) (player : Identity) : Except String Status := do
  let account ← current s player
  return (s.accountAt account).state

def errorText (s : State) (player : Identity) : Except String String := do
  let account ← current s player
  return (s.accountAt account).error

def persisted (s : State) (player : Identity) : Except String Bool := do
  let account ← current s player
  let a := s.accountAt account
  return a.state = .ready && !a.saving && a.dirty.isEmpty

/-- The requests of scripts that wait for one player. -/
inductive WaitFor where
  | cache
  | save
deriving DecidableEq, Repr

/-- Whether a request has what it waits for. -/
def fulfilled (s : State) (player : Identity) : WaitFor → Except String Bool
  | .cache => (fun state => decide (state = Status.ready)) <$> status s player
  | .save => persisted s player

/-- `ClientPreferences::Complete`: the text the request is answered with, or none
when it goes on waiting. -/
def complete (s : State) (kind : WaitFor) (player : Identity) : Except String (Option String) := do
  let ready ← fulfilled s player kind
  let error ← errorText s player
  return if !ready && error = "" then none else some error

end Source2Root.Prefs
