import Mathlib
import Source2Root.Identity
import Source2Root.Reentrant

/-!
# DHooks: targets, registrations and their removal

`Open`, `Attach`, `Close`, `Collect` and `Dispatch` of `extensions/dhooks/hooks.cpp`.
The host's add, remove and release calls, the retire functions and the callbacks
are foreign code, which may start any operation of this file again.  A shared
pointer's count is the number of objects that refer to the target.

`callbacks` and `leases` are what the host holds; they, `overlap` and the record
`log` are not in the source.
-/

set_option autoImplicit false

namespace Source2Root.DHooks

open Reentrant

structure Prototype where
  result : Nat
  arguments : List Nat
  method : Bool
deriving DecidableEq

structure TargetData where
  handle : Nat
  prototype : Prototype

/-- A `Target` object; `pins` counts the `Attach` calls it was passed to. -/
structure Target where
  data : Nat
  pins : Nat

structure Registration where
  target : Nat
  /-- The host's callback handle, zero before it is known and after the removal. -/
  handle : Nat := 0
  active : Nat := 0
  closing : Bool := false
  enabled : Bool := true
  /-- It is in `registrations_`. -/
  listed : Bool := true
  /-- Its `Hook` object is there. -/
  owned : Bool := true
  /-- `Attach` has returned the hook. -/
  published : Bool := false
  /-- The host's add call is under way. -/
  installing : Bool := true
  /-- How often the retire function was run. -/
  retires : Nat := 0

inductive Event where
  /-- The host holds a lease of the target from here on. -/
  | opened (handle : Nat)
  /-- The host is asked to release a target which has so many users. -/
  | releasing (handle : Nat) (users : Nat)
  | returned (handle : Nat) (result : KeelResult)
  | added (r : Nat) (handle : Nat)
  | removed (r : Nat) (handle : Nat) (result : KeelResult)
  /-- The record went from the table. -/
  | dropped (r : Nat) (record : Registration)
  /-- The host passed the data of a record that is not there. -/
  | dangling (r : Nat)

structure State where
  collecting : Bool := false
  keepalive : Bool := false
  depth : Nat := 0
  /-- `entity_count_` -/
  entities : Nat := 0
  /-- `targets_` -/
  targets : List Nat := []
  data : Std.ExtTreeMap Nat TargetData := ∅
  opened : Std.ExtTreeMap Nat Target := ∅
  /-- The `Call` objects, each with its target. -/
  calls : Std.ExtTreeMap Nat Nat := ∅
  /-- `registrations_` -/
  registrations : List Nat := []
  records : Std.ExtTreeMap Nat Registration := ∅
  /-- Names every new object. -/
  next : Nat := 1
  /-- The host's callbacks, each with its user data. -/
  callbacks : Std.ExtTreeMap Nat Nat := ∅
  /-- The targets the host holds for the extension. -/
  leases : List Nat := []
  /-- The target whose release call is under way. -/
  releasing : Option Nat := none
  /-- A scan met a closed, idle record that was still being installed, or an open was
  given the target that was being released. -/
  overlap : Bool := false
  log : List Event := []

/-- What foreign code gives back. -/
structure Reply where
  result : KeelResult
  /-- A target handle, zero an empty one. -/
  handle : Nat
  /-- The host gave an empty callback handle. -/
  empty : Bool
  /-- What the callback returned; it threw when there is nothing. -/
  action : Option Int
  /-- The callback asked to retire its registration. -/
  retire : Bool

def Reply.ok (reply : Reply) : Bool := reply.result == .ok

/-- `Released` -/
def released (result : KeelResult) : Bool := result == .ok || result == .notFound

/-- The text of an exception. -/
abbrev Thrown := String

abbrev M := Code State Reply Thrown

namespace State

/-- How many objects beside the table refer to the target. -/
def users (t : Nat) (s : State) : Nat :=
  s.opened.toList.countP (fun object => object.2.data == t) +
    s.calls.toList.countP (fun object => object.2 == t) +
    s.records.toList.countP fun object => object.2.target == t

def hasHandle (handle : Nat) (s : State) (t : Nat) : Bool :=
  match s.data[t]? with
  | none => false
  | some target => target.handle == handle

/-- `Empty` -/
def empty (s : State) : Bool := s.registrations.isEmpty && s.targets.isEmpty && s.entities == 0

def note (event : Event) (s : State) : State := { s with log := event :: s.log }

def edit (r : Nat) (f : Registration → Registration) (s : State) : State :=
  match s.records[r]? with
  | none => s
  | some record => { s with records := s.records.insert r (f record) }

/-- The object goes with its last owner. -/
def sweep (r : Nat) (s : State) : State :=
  match s.records[r]? with
  | none => s
  | some record =>
      if record.listed || record.owned then s else { s with records := s.records.erase r }

/-- The `Hook` object is gone. -/
def disown (r : Nat) (s : State) : State :=
  (s.edit r fun record => { record with owned := false }).sweep r

/-- The host has removed the callback. -/
def removed (r : Nat) (handle : Nat) (result : KeelResult) (s : State) : State :=
  ({ s with callbacks := s.callbacks.erase handle }.edit r fun record =>
    { record with handle := 0 }).note (.removed r handle result)

/-- `registrations_.erase` -/
def eraseRegistration (index r : Nat) (s : State) : State :=
  match s.records[r]? with
  | none => s
  | some record =>
      ({ s with
          registrations := s.registrations.eraseIdx index
          records := s.records.insert r { record with listed := false }
          overlap := s.overlap || record.installing }.sweep r).note (.dropped r record)

/-- The host is asked to release a target. -/
def startRelease (t handle : Nat) (s : State) : State :=
  { s with releasing := some handle }.note (.releasing handle (s.users t))

/-- `targets_.erase`, after the host has released the target -/
def eraseTarget (index handle : Nat) (result : KeelResult) (s : State) : State :=
  ({ s with targets := s.targets.eraseIdx index
            leases := s.leases.filter (· != handle) }).note (.returned handle result)

end State

/-! ## Closing and collecting -/

/-- `check_game_thread` -/
def thread : M Unit := do
  let answer ← Code.reply
  if !answer.ok then throw "Hook operation"

/-- `Service::Close`; the retire function is foreign code. -/
def close (r : Nat) : M Unit := do
  let s ← Code.get
  match s.records[r]? with
  | none => return ()
  | some record =>
      if record.closing then return ()
      else
        Code.modify (State.edit r fun record =>
          { record with closing := true, enabled := false, retires := record.retires + 1 })
        let _ ← Code.enter

/-- The first loop of `Collect`, from an index on; it is followed for so many turns. -/
def collectRegistrations : Nat → Nat → M Unit
  | 0, _ => throw "unfinished"
  | rounds + 1, index => do
      let s ← Code.get
      match s.registrations[index]? with
      | none => return ()
      | some r =>
          match s.records[r]? with
          | none => collectRegistrations rounds (index + 1)
          | some record =>
              if !record.closing || record.active != 0 then
                collectRegistrations rounds (index + 1)
              else if record.handle != 0 then
                let answer ← Code.enter
                if released answer.result then
                  Code.modify (State.removed r record.handle answer.result)
                  Code.modify (State.eraseRegistration index r)
                  collectRegistrations rounds index
                else collectRegistrations rounds (index + 1)
              else
                Code.modify (State.eraseRegistration index r)
                collectRegistrations rounds index

/-- The second loop of `Collect`. -/
def collectTargets : Nat → Nat → M Unit
  | 0, _ => throw "unfinished"
  | rounds + 1, index => do
      let s ← Code.get
      match s.targets[index]? with
      | none => return ()
      | some t =>
          match s.data[t]? with
          | none => collectTargets rounds (index + 1)
          | some target =>
              if s.users t != 0 then collectTargets rounds (index + 1)
              else
                Code.modify (State.startRelease t target.handle)
                let answer ← Code.enter
                Code.modify fun s => { s with releasing := none }
                if released answer.result then
                  Code.modify (State.eraseTarget index target.handle answer.result)
                  collectTargets rounds index
                else collectTargets rounds (index + 1)

/-- `Collect` -/
def collect (rounds : Nat) : M Unit := do
  thread
  let s ← Code.get
  if s.collecting then return ()
  else
    Code.modify fun s => { s with collecting := true }
    Code.finally_
      (do
        collectRegistrations rounds 0
        collectTargets rounds 0
        Code.modify fun s => if s.empty then { s with keepalive := false } else s)
      fun s => { s with collecting := false }

/-! ## The operations -/

section
variable (rounds : Nat)

/-- A definition; `valid` is that it passes `Validate`. -/
structure Definition where
  valid : Bool
  prototype : Prototype

def State.addTarget (handle : Nat) (definition : Definition) (s : State) : State :=
  ({ s with
      targets := s.targets ++ [s.next]
      data := s.data.insert s.next { handle, prototype := definition.prototype }
      leases := handle :: s.leases
      next := s.next + 1 }).note (.opened handle)

/-- The target has another prototype. -/
def State.differs (definition : Definition) (t : Nat) (s : State) : Bool :=
  match s.data[t]? with
  | none => false
  | some target => target.prototype != definition.prototype

/-- A new `Target` object. -/
def State.openTarget (t : Nat) (s : State) : State :=
  { s with opened := s.opened.insert s.next { data := t, pins := 0 }, next := s.next + 1
           keepalive := true }

/-- `find_if` on the handle -/
def State.existing (handle : Nat) (s : State) : Option Nat := s.targets.find? (s.hasHandle handle)

/-- The host has answered an open with a target. -/
def State.resolved (handle : Nat) (s : State) : State :=
  if s.releasing = some handle then { s with overlap := true } else s

/-- `Open` -/
def open_ (definition : Definition) : M Unit := do
  thread
  collect rounds
  let s ← Code.get
  if !definition.valid then throw "Invalid definition."
  else if 64 ≤ s.targets.length then throw "Hook target limit (64) reached."
  else
    let answer ← Code.reply
    if !answer.ok then throw "Resolve hook target"
    else if answer.handle = 0 then throw "Host returned an empty hook target."
    else
      Code.modify (State.resolved answer.handle)
      match s.existing answer.handle with
      | some t =>
          if s.differs definition t then
            throw "Host reused a hook target with a different prototype."
          else Code.modify (State.openTarget t)
      | none =>
          Code.modify (State.addTarget answer.handle definition)
          Code.modify (State.openTarget s.next)

def State.pin (o : Nat) (f : Nat → Nat) (s : State) : State :=
  match s.opened[o]? with
  | none => s
  | some target => { s with opened := s.opened.insert o { target with pins := f target.pins } }

def State.addRegistration (t : Nat) (s : State) : State :=
  { s with
    registrations := s.registrations ++ [s.next]
    records := s.records.insert s.next { target := t }
    next := s.next + 1 }

/-- The host's add call has failed. -/
def State.uninstalled (r : Nat) (s : State) : State :=
  s.edit r fun record => { record with installing := false }

/-- The host's add call has succeeded, with a handle no other callback has. -/
def State.installed (r : Nat) (s : State) : State :=
  (({ s with callbacks := s.callbacks.insert s.next r, next := s.next + 1 }).edit r fun record =>
    { record with installing := false, published := true, handle := s.next }).note (.added r s.next)

/-- The part of `Attach` from `push_back` on. -/
def install (t : Nat) : M Unit := do
  let s ← Code.get
  let r := s.next
  Code.modify (State.addRegistration t)
  let answer ← Code.enter
  if answer.ok && !answer.empty then Code.modify (State.installed r)
  else
    Code.modify (State.uninstalled r)
    Code.finally_
      (do
        close r
        collect rounds
        throw "Attach hook")
      (State.disown r)

/-- `Attach`; `valid` is that the phases and functions are there. -/
def attach (o : Nat) (valid : Bool) : M Unit := do
  thread
  Code.finally_
    (do
      Code.modify (State.pin o (· + 1))
      collect rounds
      let s ← Code.get
      match s.opened[o]? with
      | none => throw "Invalid hook registration."
      | some target =>
          if !valid then throw "Invalid hook registration."
          else if 256 ≤ s.registrations.length then throw "Hook callback limit (256) reached."
          else install rounds target.data)
    (State.pin o (· - 1))

/-- `Hook::Close` -/
def closeHook (r : Nat) : M Unit := do
  thread
  close r

/-- The destructor of a hook. -/
def destroyHook (r : Nat) : M Unit :=
  Code.finally_ (close r) (State.disown r)

/-- `Hook::Enable` -/
def enable (r : Nat) (enabled : Bool) : M Unit := do
  thread
  let s ← Code.get
  match s.records[r]? with
  | none => throw "Hook is closing."
  | some record =>
      if record.closing || record.handle == 0 then throw "Hook is closing."
      else
        let answer ← Code.reply
        if !answer.ok then throw "Enable hook"
        else Code.modify (State.edit r fun record => { record with enabled })

/-- `Prepare`, where its checks pass: a call shares the target's data. -/
def prepare (o : Nat) : M Unit := do
  thread
  let s ← Code.get
  match s.opened[o]? with
  | none => throw "This configured target does not allow direct calls."
  | some target =>
      let answer ← Code.reply
      if !answer.ok then throw "This configured target does not allow direct calls."
      else
        Code.modify fun s =>
          { s with calls := s.calls.insert s.next target.data, next := s.next + 1 }

/-! ## Dispatches -/

def State.begin_ (r : Nat) (s : State) : State :=
  { s.edit r fun record => { record with active := record.active + 1 } with depth := s.depth + 1 }

def State.end_ (r : Nat) (s : State) : State :=
  { s.edit r fun record => { record with active := record.active - 1 } with depth := s.depth - 1 }

/-- `Dispatch` up to the frame edits, for a frame of the target `handle` -/
def dispatch (r handle : Nat) : M Unit := do
  let s ← Code.get
  match s.records[r]? with
  | none => Code.modify (State.note (.dangling r))
  | some record =>
      let answer ← Code.reply
      if !answer.ok || record.closing || !record.enabled || 8 ≤ s.depth ||
          !s.hasHandle handle record.target then
        return ()
      else
        Code.finally_
          (do
            Code.modify (State.begin_ r)
            let answer ← Code.enter
            match answer.action with
            | none => return ()
            | some action => if action == -2 || answer.retire then close r else return ())
          (State.end_ r)

/-! ## Runs -/

inductive Operation where
  | open_ (definition : Definition)
  | attach (o : Nat) (valid : Bool)
  | prepare (o : Nat)
  | closeHook (r : Nat)
  | destroyHook (r : Nat)
  | enable (r : Nat) (enabled : Bool)
  | collect
  | dispatch (r handle : Nat)
  /-- A `Target` object is destroyed. -/
  | dropTarget (o : Nat)
  /-- A `Call` object is destroyed. -/
  | dropCall (c : Nat)
  /-- The calls took or gave back leases of entities. -/
  | entities (n : Nat)

def perform : Operation → M Unit
  | .open_ definition => open_ rounds definition
  | .attach o valid => attach rounds o valid
  | .prepare o => prepare o
  | .closeHook r => closeHook r
  | .destroyHook r => destroyHook r
  | .enable r enabled => enable r enabled
  | .collect => collect rounds
  | .dispatch r handle => dispatch r handle
  | .dropTarget o => Code.modify fun s => { s with opened := s.opened.erase o }
  | .dropCall c => Code.modify fun s => { s with calls := s.calls.erase c }
  | .entities n => Code.modify fun s => { s with entities := n }

/-- The host holds the record as user data: its callback is there, or is being added. -/
def State.dispatchable (r : Nat) (s : State) : Prop :=
  r ∈ s.callbacks.toList.map Prod.snd ∨ (s.records[r]?).any (fun record => record.installing) = true

instance (r : Nat) (s : State) : Decidable (s.dispatchable r) :=
  inferInstanceAs (Decidable (_ ∨ _))

/-- The scripts use objects they were given, and the host user data it was given. -/
def allowed (s : State) : Operation → Prop
  | .closeHook r | .destroyHook r | .enable r _ =>
      (s.records[r]?).any (fun record => record.owned && record.published) = true
  | .dispatch r _ => s.dispatchable r
  | .dropTarget o => (s.opened[o]?).all (fun target => target.pins == 0) = true
  | .attach o _ | .prepare o => (s.opened[o]?).isSome = true
  | .open_ _ | .collect | .dropCall _ | .entities _ => True

instance (s : State) (operation : Operation) : Decidable (allowed s operation) := by
  cases operation with
  | closeHook r => exact inferInstanceAs (Decidable (_ = true))
  | destroyHook r => exact inferInstanceAs (Decidable (_ = true))
  | enable r enabled => exact inferInstanceAs (Decidable (_ = true))
  | dispatch r handle => exact inferInstanceAs (Decidable (s.dispatchable r))
  | dropTarget o => exact inferInstanceAs (Decidable (_ = true))
  | open_ definition => exact isTrue trivial
  | attach o valid => exact inferInstanceAs (Decidable (_ = true))
  | prepare o => exact inferInstanceAs (Decidable (_ = true))
  | collect => exact isTrue trivial
  | dropCall c => exact isTrue trivial
  | entities n => exact isTrue trivial

end

end Source2Root.DHooks
