import Source2Root.Foundation.State
import Source2Root.HandlesMap
import Source2Root.Reentrant

/-!
# What the operations are made of

An operation is a program over the state that may ask the host (`reply`) and
hand control to scripts and extensions (`enter`).  Here are the lookups, the
handle table with the destruction of what leaves it, the calls of script
functions, and the voice service inside the manager.
-/

set_option autoImplicit false

namespace Source2Root.Foundation

open Reentrant

/-- An answer of the host, of a file, of a script function or of an extension;
each call reads what it asked for. -/
structure Reply where
  result : KeelResult := .ok
  flag : Bool := true
  cell : Int := 0
  player : Player := {}
  players : List Player := []
  manifest : Option Manifest := none
  entries : List (String × Bool) := []
  function : Function := 0
  native : Nat := 0
  text : List Char := []
  permissions : Option Permissions := none
  input : Option MenuInput := none
  voice : List Voice.Reply := []

/-- `NativeError` is a `std::runtime_error`; one caller tells them apart. -/
inductive Raised where
  | nativeError
  | runtimeError
deriving DecidableEq, Repr

abbrev M := Code State Reply Raised

def get : M State := Code.get

def modify (f : State → State) : M Unit := Code.modify f

def reply : M Reply := Code.reply

/-- A host call that only answers. -/
def host : M KeelResult := do return (← reply).result

/-- A lookup that the source takes to succeed has failed. -/
def miss {α : Type} (lookup : Lookup) : M α := do
  modify fun s => { s with missed := s.missed ++ [lookup] }
  throw .runtimeError

def expect {α : Type} (lookup : Lookup) : Option α → M α
  | some value => pure value
  | none => miss lookup

/-! ## Handles -/

def addHandle (owner : Nat) (value : Resource) : M HandleId := do
  match (← get).handles.add owner value.type value with
  | .ok (id, handles) =>
      modify fun s => { s with handles }
      return id
  | .error _ => throw .runtimeError

/-- The value behind a handle that a script or an extension gave. -/
def getHandle (id : HandleId) (owner type : Nat) : M Resource := do
  match (← get).handles.get id owner type with
  | .ok value => return value
  | .error _ => throw .runtimeError

/-- `~ExtensionValue`, for a value that is out of the table. -/
def destroyValue (holder : Nat) : M Unit := do
  if ((← get).values holder).owned then
    modify (·.destroy holder)
    let _ ← Code.enter

/-- The destruction of values taken out of the table. -/
def destroyAll (values : List Resource) : M Unit := (State.holders values).forM destroyValue

/-- The table after a removal, with the values still to be destroyed. -/
def State.detached (s : State) (handles : Handles Resource) (values : List Resource) : State :=
  { s with handles, doomed := s.doomed ∪ (State.holders values).toFinset }

def removeHandle (id : HandleId) (owner type : Nat) : M Unit := do
  match (← get).handles.remove id owner type with
  | .ok (value, handles) =>
      modify (·.detached handles [value])
      destroyAll [value]
  | .error _ => throw .runtimeError

def retireHandles (owner type : Nat) : M Unit := do
  let (values, handles) := (← get).handles.retire owner type
  modify (·.detached handles values)
  destroyAll values

def putHandle (id : HandleId) (value : Resource) : M Unit :=
  modify fun s => { s with handles := s.handles.put id value }

def State.timer (s : State) (id : HandleId) (owner : Nat) : Option Timer :=
  match s.handles.get id owner TimerType with
  | .ok (.timer timer) => some timer
  | _ => none

def State.menu (s : State) (id : HandleId) (owner : Nat) : Option ScriptMenu :=
  match s.handles.get id owner MenuType with
  | .ok (.menu menu) => some menu
  | _ => none

def State.player (s : State) (id : HandleId) (owner : Nat) : Option Player :=
  match s.handles.get id owner PlayerType with
  | .ok (.player player) => some player
  | _ => none

/-- `Limit`. -/
def limit (a : Addr) : M Unit := do
  let s ← get
  if s.state a ≠ .loading ∧ s.state a ≠ .running then throw .nativeError
  if (s.handles.owned (s.owner a) 0).length + (s.commandsOf a).size + (s.eventsOf a).size +
      (s.callbacksOf a).card ≥ 128 then throw .nativeError

/-! ## Players -/

/-- `ResolvePlayer`: the player behind a handle, if the host still has the
connection. -/
def resolvePlayer (a : Addr) (handle : HandleId) : M (Except KeelResult Player) := do
  let s ← get
  if !s.handles.contains handle (s.owner a) PlayerType then return .error .notFound
  let expected ← expect .player (s.player handle (s.owner a))
  let r ← reply
  if r.result ≠ .ok then return .error r.result
  if !r.player.sameConnection expected then return .error .notFound
  return .ok r.player

/-- `Allowed`; handle zero is the server console. -/
def allowed (a : Addr) (handle : HandleId) (permission : String) : M Bool := do
  if !validPermission permission then throw .nativeError
  if handle = 0 then return true
  match ← resolvePlayer a handle with
  | .error _ => return false
  | .ok current => return (← get).permissions.allows current permission

/-- The loop of `PlayerHandle` over the script's player handles. -/
def findPlayer (owner : Nat) (player : Player) : List HandleId → M (Option HandleId)
  | [] => return none
  | id :: rest => do
      let known ← expect .player ((← get).player id owner)
      if known.sameConnection player then return some id
      findPlayer owner player rest

def playerHandle (a : Addr) (player : Player) : M HandleId := do
  let s ← get
  let owner := s.owner a
  match ← findPlayer owner player (s.handles.owned owner PlayerType) with
  | some id => return id
  | none =>
      limit a
      addHandle owner (.player player)

/-! ## Calls of script functions -/

/-- `Invoke`: whether the call succeeded, and its result. -/
def invoke (a : Addr) (reason : Reason) : M (Bool × Int) := do
  modify (·.enter a reason)
  let r ← Code.enter
  modify (·.leave a)
  if !r.flag then modify (·.fault a)
  return (r.flag, r.cell)

/-- `PawnRuntime::Idle`. -/
def State.idle (s : State) : Bool := s.depth == 0

/-! ## The voice service -/

/-- An operation of the voice service with the host's answers to it. -/
def State.runVoice (s : State) (m : Voice.M Voice.Outcome) (replies : List Voice.Reply) :
    Voice.Outcome × State :=
  let (out, sys) := m { world := s.world, replies, service := s.voice }
  (out, { s with world := sys.world, voice := sys.service })

def voiceCall (m : Voice.M Voice.Outcome) : M Bool := do
  let r ← reply
  let s ← get
  let (out, s') := s.runVoice m r.voice
  modify fun _ => s'
  return out.success

end Source2Root.Foundation
