import Mathlib
import Source2Root.Identity
import Source2Root.Reentrant

/-!
# SDKHooks: entity hooks and what their pre phases capture

`extensions/sdkhooks/hooks.cpp`.  A script's callback, and the lookups of damage
records, run foreign code, which may start any operation of this file again; the
entity queries are answered from the world as it is (`Host`).  A pointer is a
number, zero the null pointer.  The record `log` is not in the source: it lists,
newest first, what the dispatches saw and did.
-/

set_option autoImplicit false

namespace Source2Root.SdkHooks

open Reentrant

abbrev Pointer := Nat

abbrev EntityHandle := Nat

/-- `UINT32_MAX` -/
def invalidReference : Nat := 0xffffffff

inductive Kind where
  | damage
  | touch
  | spawn
  | weaponCanUse
  | weaponSelect
  | weaponDrop
deriving DecidableEq

namespace Kind

def weapon : Kind → Bool
  | .weaponCanUse | .weaponSelect | .weaponDrop => true
  | .damage | .touch | .spawn => false

def secondary (kind : Kind) : Bool := kind == .touch || kind.weapon

end Kind

inductive Phase where
  | pre
  | post
deriving DecidableEq

/-- `KeelEntityInfo`; `sized` is that its size is that of the record. -/
structure EntityInfo where
  sized : Bool
  index : Int
  source2Handle : Nat
  reserved : Nat
  epoch : Nat

def EntityInfo.consistent (value : EntityInfo) : Bool :=
  value.sized && value.reserved == 0 && 0 ≤ value.index && value.epoch != 0 &&
    value.source2Handle != invalidReference

/-- What a host service answers with, and what it wrote when that is `ok`. -/
abbrev Reported (α : Type) := Except KeelResult α

/-- The entity services.  A visit tells the one pointer its visitor was given, if
it was given one.  The construction service may be missing. -/
structure Host (W : Type) where
  find : W → Nat → Reported EntityHandle
  describe : W → EntityHandle → Reported EntityInfo
  visit : W → EntityHandle → String → Reported (Option Pointer)
  capture : W → Pointer → Reported EntityHandle
  weaponMatches : W → EntityHandle → Pointer → Reported Bool
  construction : Bool
  observe : W → Nat → Reported EntityHandle
  describePending : W → EntityHandle → Reported EntityInfo
  visitPending : W → EntityHandle → String → Reported (Option Pointer)

structure Lease where
  id : Nat
  handle : EntityHandle
  identity : EntityInfo
  observer : Bool

/-- An entry of `pending`; `serial` tells the captures apart. -/
structure Pending where
  serial : Nat
  key : Pointer
  instance_ : Pointer
  secondary : Pointer
  other : Option Lease

/-- A hook's state, with what the transport keeps of its registration. -/
structure Registration where
  entity : Lease
  className : String
  kind : Kind
  phases : Phase → Bool
  pending : List Pending
  /-- It is in `states_`. -/
  listed : Bool
  closing : Bool
  enabled : Bool
  active : Nat

/-- A native frame: its address is the key. -/
structure NativeFrame where
  key : Pointer
  phase : Phase
  instance_ : Pointer
  argument : Pointer
  result : Bool

/-- The pointer to the other entity, for the kinds which have one. -/
def Registration.secondary (state : Registration) (frame : NativeFrame) : Pointer :=
  if state.kind.secondary then frame.argument else 0

inductive HookAction where
  | proceed
  | override
  | supersede
deriving DecidableEq

inductive Event (W : Type) where
  /-- A pre phase, and the capture it made. -/
  | pre (r : Nat) (key : Pointer) (capture : Option Pending)
  | consumed (r : Nat) (capture : Pending)
  /-- `Close` or `Enable` discarded the captures. -/
  | discarded (r : Nat)
  /-- A callback began. -/
  | ran (r : Nat) (state : Registration) (frame : NativeFrame) (capture : Pending) (world : W)
  /-- A dispatch ended; `left` is the world its callback left. -/
  | answered (r : Nat) (state : Registration) (frame : NativeFrame) (capture : Option Pending)
      (left : Option W) (action : HookAction)

structure State (W : Type) where
  world : W
  /-- The counter `leases_`. -/
  leases : Nat := 0
  /-- The leases there are, each with the number of its owners. -/
  live : Std.ExtTreeMap Nat Nat := ∅
  nextLease : Nat := 0
  /-- The counter `active_`. -/
  active : Nat := 0
  depth : Nat := 0
  hooks : Std.ExtTreeMap Nat Registration := ∅
  nextHook : Nat := 0
  nextSerial : Nat := 0
  log : List (Event W) := []

/-- What foreign code gives back. -/
structure Reply where
  /-- A service succeeded. -/
  ok : Bool
  /-- What the callback returned; it threw when there is nothing. -/
  action : Option Int
  /-- The callback staged a damage edit. -/
  edited : Bool
  /-- The boolean result the callback left. -/
  result : Bool
  /-- The transport still holds a registration it could not remove. -/
  retained : Bool

/-- The text of an exception. -/
abbrev Thrown := String

abbrev M (W : Type) := Code (State W) Reply Thrown

variable {W : Type}

/-! ## Leases -/

namespace State

/-- An owner of a lease is gone; the last one releases it. -/
def drop (lease : Lease) (s : State W) : State W :=
  match s.live[lease.id]? with
  | none => s
  | some owners =>
      if owners = 1 then
        { s with live := s.live.erase lease.id, leases := s.leases - 1 }
      else { s with live := s.live.insert lease.id (owners - 1) }

def share (lease : Lease) (s : State W) : State W :=
  match s.live[lease.id]? with
  | none => s
  | some owners => { s with live := s.live.insert lease.id (owners + 1) }

def dropOption (lease : Option Lease) (s : State W) : State W :=
  match lease with
  | none => s
  | some lease => s.drop lease

def shareOption (lease : Option Lease) (s : State W) : State W :=
  match lease with
  | none => s
  | some lease => s.share lease

def dropPending (pending : List Pending) (s : State W) : State W :=
  pending.foldl (fun s capture => s.dropOption capture.other) s

/-- A new lease with its first owner. -/
def lend (s : State W) : State W :=
  { s with
    live := s.live.insert s.nextLease 1
    leases := s.leases + 1
    nextLease := s.nextLease + 1 }

def record (event : Event W) (s : State W) : State W := { s with log := event :: s.log }

def setHook (r : Nat) (registration : Registration) (s : State W) : State W :=
  { s with hooks := s.hooks.insert r registration }

def editHook (r : Nat) (f : Registration → Registration) (s : State W) : State W :=
  match s.hooks[r]? with
  | none => s
  | some registration => s.setHook r (f registration)

/-- `pending.clear()` -/
def clear (r : Nat) (s : State W) : State W :=
  match s.hooks[r]? with
  | none => s
  | some registration =>
      (s.setHook r { registration with pending := [] }).dropPending registration.pending

/-- The last owner of a hook's state is gone. -/
def forget (r : Nat) (s : State W) : State W :=
  match s.hooks[r]? with
  | none => s
  | some registration =>
      (({ s with hooks := s.hooks.erase r }).dropPending registration.pending).drop
        registration.entity

/-- The same, unless a dispatch is in the hook. -/
def forgetIdle (r : Nat) (s : State W) : State W :=
  match s.hooks[r]? with
  | none => s
  | some registration => if registration.active = 0 then s.forget r else s

end State

section
variable (host : Host W)

def describe (w : W) (lease : Lease) : Reported EntityInfo :=
  if lease.observer then
    match host.describePending w lease.handle with
    | .error .notFound => host.describe w lease.handle
    | result => result
  else host.describe w lease.handle

def visit (w : W) (lease : Lease) (name : String) : Reported (Option Pointer) :=
  if lease.observer then
    match host.visitPending w lease.handle name with
    | .error .notFound => host.visit w lease.handle name
    | result => result
  else host.visit w lease.handle name

/-- The entity of the lease is still there and the same. -/
def valid (w : W) (lease : Lease) : Bool :=
  match describe host w lease with
  | .ok value =>
      value.consistent && value.source2Handle == lease.identity.source2Handle &&
        value.epoch == lease.identity.epoch && value.index == lease.identity.index
  | .error _ => false

def validOption (w : W) (lease : Option Lease) : Bool :=
  match lease with
  | none => true
  | some lease => valid host w lease

/-- The pointer is that of the hooked entity, or of its weapon component. -/
def Registration.matches_ (w : W) (state : Registration) (pointer : Pointer) : Bool :=
  if pointer = 0 || !valid host w state.entity then false
  else if state.kind.weapon then
    match host.weaponMatches w state.entity.handle pointer with
    | .ok matches_ => matches_
    | .error _ => false
  else
    match visit host w state.entity state.className with
    | .ok given => given == some pointer
    | .error _ => false

/-- `Acquire` -/
def acquire (source : Nat) : M W Lease := do
  let s ← Code.get
  if source = invalidReference ∨ 512 ≤ s.leases then
    throw "Invalid entity reference or SDKHooks entity limit (512)."
  let found : Reported (EntityHandle × Bool) :=
    match host.find s.world source with
    | .ok handle => .ok (handle, false)
    | .error .notFound =>
        if host.construction then (host.observe s.world source).map fun handle => (handle, true)
        else .error .notFound
    | .error result => .error result
  match found with
  | .error _ => throw "Find hook entity"
  | .ok (handle, observer) =>
      if handle = 0 then throw "Host returned an empty entity handle."
      Code.modify State.lend
      let lease : Lease :=
        { id := s.nextLease, handle, observer
          identity := { sized := true, index := 0, source2Handle := 0, reserved := 0, epoch := 0 } }
      match describe host s.world lease with
      | .ok identity =>
          if identity.consistent && identity.source2Handle == source then
            return { lease with identity }
          else
            Code.modify (State.drop lease)
            throw "Host returned an invalid entity identity."
      | .error _ =>
          Code.modify (State.drop lease)
          throw "Describe hook entity"

/-- `Capture` -/
def capture (pointer : Pointer) : M W (Option Lease) := do
  if pointer = 0 then return none
  let s ← Code.get
  if 512 ≤ s.leases then throw "SDKHooks entity limit (512) reached."
  match host.capture s.world pointer with
  | .error _ => throw "Capture hook argument entity"
  | .ok handle =>
      if handle = 0 then throw "Host returned an empty captured entity."
      Code.modify State.lend
      let lease : Lease :=
        { id := s.nextLease, handle, observer := false
          identity := { sized := true, index := 0, source2Handle := 0, reserved := 0, epoch := 0 } }
      match host.describe s.world handle with
      | .ok identity =>
          if identity.consistent then return some { lease with identity }
          else
            Code.modify (State.drop lease)
            throw "Host returned an invalid captured entity."
      | .error _ =>
          Code.modify (State.drop lease)
          throw "Describe hook argument entity"

/-! ## Registrations -/

/-- The transport's `Close`: the retire function is foreign code. -/
def closeNative (r : Nat) : M W Unit := do
  let s ← Code.get
  match s.hooks[r]? with
  | none => return ()
  | some registration =>
      if registration.closing then return ()
      Code.modify (State.editHook r fun registration =>
        { registration with closing := true, enabled := false })
      let _ ← Code.enter

/-- `Hook::Close` -/
def close (r : Nat) : M W Unit := do
  closeNative r
  Code.modify fun s => (s.clear r).record (.discarded r)

/-- `Hook::Enable`; the transport refuses a hook that is closing, and the host
may refuse as well. -/
def enable (r : Nat) (enabled : Bool) : M W Unit := do
  let s ← Code.get
  match s.hooks[r]? with
  | none => throw "Hook is closing."
  | some registration =>
      if registration.closing then throw "Hook is closing."
      let answer ← Code.reply
      if !answer.ok then throw "Enable hook"
      Code.modify fun s =>
        ((s.editHook r fun registration => { registration with enabled }).clear r).record
          (.discarded r)

/-- `Collect`; the transport removes what it can, entering the host. -/
def collect (endFrame : Bool) : M W Unit := do
  let _ ← Code.enter
  let s ← Code.get
  if endFrame && s.active == 0 then
    let listed := s.hooks.toList.filter fun hook => hook.2.listed
    Code.modify fun s => listed.foldl (fun s hook => s.clear hook.1) s

/-- A registration with a definition that passed `Validate`. -/
structure Spec where
  source : Nat
  className : String
  kind : Kind
  phases : Phase → Bool

/-- `Attach` -/
def attach (spec : Spec) : M W Unit := do
  collect false
  if !(spec.phases .pre || spec.phases .post) then throw "Invalid SDKHooks registration."
  let entity ← acquire host spec.source
  let s ← Code.get
  match visit host s.world entity spec.className with
  | .ok (some given) =>
      if given = 0 then
        Code.modify (State.drop entity)
        throw "Validate SDKHooks entity class"
      let opened ← Code.enter
      if !opened.ok then
        Code.modify (State.drop entity)
        throw "Open hook target"
      let s ← Code.get
      let r := s.nextHook
      Code.modify fun s =>
        { s.setHook r { entity, className := spec.className, kind := spec.kind,
                        phases := spec.phases, pending := [], listed := false, closing := false,
                        enabled := true, active := 0 } with nextHook := r + 1 }
      -- the host may dispatch to the hook while it is being installed
      let installed ← Code.enter
      if installed.ok then
        Code.modify (State.editHook r fun registration => { registration with listed := true })
      else
        closeNative r
        let swept ← Code.enter
        if !swept.retained then Code.modify (State.forgetIdle r)
        throw "Attach hook"
  | _ =>
      Code.modify (State.drop entity)
      throw "Validate SDKHooks entity class"

/-! ## Dispatches -/

structure Answer where
  action : HookAction
  /-- What is written to the boolean result. -/
  result : Option Bool := none
  retire : Bool := false

/-- The result a blocked call is left with. -/
def blocked (kind : Kind) : Option Bool := if kind = .weaponCanUse then some false else none

def refuse (kind : Kind) (retire : Bool) : Answer :=
  { action := .supersede, result := blocked kind, retire }

/-- `find_if` on the key and `erase`. -/
def State.take (r : Nat) (key : Pointer) (s : State W) : State W :=
  s.editHook r fun registration =>
    { registration with pending := registration.pending.eraseP fun p => p.key == key }

def State.found (r : Nat) (key : Pointer) (s : State W) : Option Pending :=
  (s.hooks[r]?).bind fun registration => registration.pending.find? fun p => p.key == key

/-- `pending.size()` -/
def State.waiting (r : Nat) (s : State W) : Nat :=
  match s.hooks[r]? with
  | none => 0
  | some registration => registration.pending.length

/-- An older capture of the key goes. -/
def State.replace (r : Nat) (key : Pointer) (s : State W) : State W :=
  match s.found r key with
  | none => s
  | some old => (s.take r key).dropOption old.other

/-- `push_back`, with a new serial number -/
def State.push (r : Nat) (context : Pending) (s : State W) : State W :=
  (({ s with nextSerial := s.nextSerial + 1 }).editHook r fun registration =>
    { registration with pending := registration.pending ++ [context] }).shareOption context.other

/-- The other entity's lease, if the kind has one; nothing when capturing it throws. -/
def captureOther (state : Registration) (frame : NativeFrame) : M W (Option (Option Lease)) :=
  tryCatch
    (do
      let other ← if state.kind.secondary then capture host (state.secondary frame) else pure none
      return some other)
    fun _ => return none

/-- The body of the pre phase up to `push_back`: the capture, or the answer without one. -/
def preCapture (r : Nat) (state : Registration) (frame : NativeFrame) :
    M W (Except Answer Pending) := do
  Code.modify (State.replace r frame.key)
  let s ← Code.get
  if !state.matches_ host s.world frame.instance_ || s.waiting r == 8 ||
      (state.secondary frame != 0 && 512 ≤ s.leases) then
    Code.modify (State.record (.pre r frame.key none))
    return .error { action := .proceed }
  else
    match ← captureOther host state frame with
    | none =>
        Code.modify (State.record (.pre r frame.key none))
        return .error (refuse state.kind true)
    | some other =>
        let s ← Code.get
        let context : Pending :=
          { serial := s.nextSerial, key := frame.key, instance_ := frame.instance_
            secondary := state.secondary frame, other }
        Code.modify fun s => (s.push r context).record (.pre r frame.key (some context))
        return .ok context

/-- The post phase takes the capture of its key over. -/
def postCapture (r : Nat) (state : Registration) (frame : NativeFrame) :
    M W (Except Answer Pending) := do
  let s ← Code.get
  match s.found r frame.key with
  | none => return .error { action := .proceed }
  | some context =>
      Code.modify fun s => (s.take r frame.key).record (.consumed r context)
      let s ← Code.get
      if context.instance_ != frame.instance_ || context.secondary != state.secondary frame ||
          !state.matches_ host s.world frame.instance_ ||
          !validOption host s.world context.other then
        Code.modify (State.dropOption context.other)
        return .error { action := .proceed }
      else return .ok context

/-- An action the callback may not give counts as a fault. -/
def normal (kind : Kind) (phase : Phase) (action : Int) : Int :=
  if action < -2 ∨ 2 < action ∨ (phase = .post ∧ action = 2) ∨
      (phase = .post ∧ action = 1 ∧ kind ≠ .weaponCanUse) then -2
  else action

/-- The record of a damage hook is looked up, which can enter the host again. -/
def readDamage (state : Registration) : M W Bool :=
  if state.kind = .damage then do
    let read ← Code.enter
    return read.ok
  else return true

/-- `write_damage`, for a staged edit -/
def writeDamage (state : Registration) (reply : Reply) : M W Bool :=
  if state.kind = .damage ∧ reply.edited then do
    let written ← Code.enter
    return written.ok
  else return true

/-- The reply of a callback that did not run. -/
def silent (frame : NativeFrame) : Reply :=
  { ok := true, action := none, edited := false, result := frame.result, retained := false }

/-- The callback of the script: its action, what it left in the frame, and the
world it left, if it ran. -/
def callback (r : Nat) (state : Registration) (frame : NativeFrame) (context : Pending) :
    M W (Int × Reply × Option W) := do
  let readable ← readDamage state
  let s ← Code.get
  if !readable then return (-2, silent frame, none)
  else if state.matches_ host s.world frame.instance_ && validOption host s.world context.other then
    Code.modify fun s => s.record (.ran r state frame context s.world)
    let reply ← Code.enter
    let s ← Code.get
    return (reply.action.getD (-2), reply, some s.world)
  else return (-1, silent frame, none)

/-- What follows the callback. -/
def conclude (state : Registration) (frame : NativeFrame) (context : Pending) (action : Int)
    (reply : Reply) : M W Answer := do
  let retire := action == -2
  let s ← Code.get
  if frame.phase = .pre ∧ !(state.matches_ host s.world frame.instance_ &&
      validOption host s.world context.other) then
    return refuse state.kind retire
  else if action ≤ 0 then return { action := .proceed, retire }
  else if action = 2 then return refuse state.kind retire
  else
    let written ← writeDamage state reply
    let s ← Code.get
    if !written then
      let stays := state.matches_ host s.world frame.instance_
      return { action := if stays then .proceed else .supersede, retire := true }
    else if state.kind = .weaponCanUse then
      return { action := .override, result := some reply.result, retire }
    else return { action := .proceed, retire }

/-- The part of `Dispatch` after a capture was made or taken. -/
def deliver (r : Nat) (state : Registration) (frame : NativeFrame) (context : Pending) :
    M W Answer :=
  if state.phases frame.phase then do
    let (action, reply, left) ← callback host r state frame context
    let answer ← conclude host state frame context (normal state.kind frame.phase action) reply
    Code.modify (State.record (.answered r state frame (some context) left answer.action))
    return answer
  else do
    Code.modify (State.record (.answered r state frame (some context) none .proceed))
    return { action := .proceed }

/-- The capture of a dispatch: a pre phase makes one, a post phase takes one over. -/
def captureFor (r : Nat) (state : Registration) (frame : NativeFrame) :
    M W (Except Answer Pending) :=
  match frame.phase with
  | .pre => preCapture host r state frame
  | .post => postCapture host r state frame

/-- `Service::Dispatch` -/
def dispatch (r : Nat) (state : Registration) (frame : NativeFrame) : M W Answer :=
  Code.finally_
    (do
      Code.modify fun s => { s with active := s.active + 1 }
      match ← captureFor host r state frame with
      | .error answer =>
          Code.modify (State.record (.answered r state frame none none answer.action))
          return answer
      | .ok context =>
          Code.finally_ (deliver host r state frame context) (State.dropOption context.other))
    fun s => { s with active := s.active - 1 }

def State.enterHook (r : Nat) (s : State W) : State W :=
  { s.editHook r fun registration => { registration with active := registration.active + 1 } with
    depth := s.depth + 1 }

def State.leaveHook (r : Nat) (s : State W) : State W :=
  { s.editHook r fun registration => { registration with active := registration.active - 1 } with
    depth := s.depth - 1 }

/-- The transport's dispatch, which calls the one above. -/
def transport (r : Nat) (frame : NativeFrame) : M W Unit := do
  let s ← Code.get
  match s.hooks[r]? with
  | none => return ()
  | some state =>
      if state.closing ∨ !state.enabled ∨ 8 ≤ s.depth then return ()
      else
        Code.finally_
          (do
            Code.modify (State.enterHook r)
            let answer ← dispatch host r state frame
            if answer.retire then closeNative r)
          (State.leaveHook r)

/-! ## Runs -/

inductive Operation (W : Type) where
  | attach (spec : Spec)
  | close (r : Nat)
  | enable (r : Nat) (enabled : Bool)
  | collect (endFrame : Bool)
  | dispatch (r : Nat) (frame : NativeFrame)
  /-- The hook and its registration are both gone. -/
  | forget (r : Nat)
  /-- Anything else in the game: entities come and go, maps change. -/
  | world (w : W)

def perform : Operation W → M W Unit
  | .attach spec => attach host spec
  | .close r => close r
  | .enable r enabled => enable r enabled
  | .collect endFrame => collect endFrame
  | .dispatch r frame => transport host r frame
  | .forget r => Code.modify (State.forget r)
  | .world w => Code.modify fun s => { s with world := w }

/-- The transport keeps a registration while a dispatch is in it. -/
def allowed (s : State W) : Operation W → Prop
  | .forget r => ∀ registration : Registration, s.hooks[r]? = some registration →
      registration.active = 0
  | .attach _ | .close _ | .enable _ _ | .collect _ | .dispatch _ _ | .world _ => True

instance (s : State W) (operation : Operation W) : Decidable (allowed s operation) := by
  cases operation with
  | forget r =>
      show Decidable (∀ registration : Registration, s.hooks[r]? = some registration →
        registration.active = 0)
      cases s.hooks[r]? with
      | none => exact isTrue fun _ nothing => nomatch nothing
      | some registration =>
          exact decidable_of_iff (registration.active = 0)
            ⟨fun idle other same => by cases same; exact idle, fun all => all _ rfl⟩
  | attach _ | close _ | enable _ _ | collect _ | dispatch _ _ | world _ => exact isTrue trivial

end

end Source2Root.SdkHooks
