import Source2Root.Foundation.Natives

/-!
# The services for extensions

Registration of natives, the calls of natives by scripts and what an extension
may do inside one, callback tokens, and what an extension may ask about a script.
-/

set_option autoImplicit false

namespace Source2Root.Foundation

open Reentrant

/-! ## Registration -/

/-- What `RegisterNative` is given; `core` when the name is one of the core's own
natives, a list the build generates. -/
structure NativeSpec where
  compatible : Bool := true
  complete : Bool := true
  name : String := ""
  service : String := ""
  version : Nat := 0
  argc : Nat := 0
  core : Bool := false

def letter (c : Char) : Bool := ('a' ≤ c && c ≤ 'z') || ('A' ≤ c && c ≤ 'Z')

def nativeName (name : String) : Bool :=
  match name.toList with
  | [] => false
  | first :: rest =>
      (letter first || first == '_') &&
        rest.all fun c => letter c || c == '_' || ('0' ≤ c && c ≤ '9')

def NativeSpec.valid (spec : NativeSpec) : Bool :=
  spec.complete && spec.version != 0 && spec.argc ≤ 16 && spec.name.utf8ByteSize ≤ 96 &&
    spec.service.utf8ByteSize ≤ 96 && spec.service != ""

def State.addProvider (s : State) (p : Provider) : State :=
  { s with
    providers := s.providers.insert s.nextProvider p
    nextProvider := s.nextProvider + 1 }

/-- `RegisterNative`, for a native with or without a call context. -/
def register (owner : PluginHandle) (spec : NativeSpec) (contextual : Bool) :
    M (KeelResult × Registration) := do
  if !spec.compatible then return (.incompatible, 0)
  if owner = 0 ∨ !spec.valid then return (.invalidArgument, 0)
  let s ← get
  if s.providers.toList.any fun (_, p) => p.name == spec.name then return (.alreadyExists, 0)
  if !nativeName spec.name || spec.core || s.nextProvider == maxUInt64 then
    return (.invalidArgument, 0)
  modify (·.addProvider
    { owner, name := spec.name, service := spec.service, version := spec.version
      argc := spec.argc, contextual })
  return (.ok, s.nextProvider)

def registerNative (owner : PluginHandle) (spec : NativeSpec) : M (KeelResult × Registration) :=
  register owner spec false

def serviceName (service : String) : Bool :=
  service != "" && service.utf8ByteSize ≤ 96 && service != "." && service != ".." &&
    service.toList.all fun c =>
      letter c || ('0' ≤ c && c ≤ '9') || c == '.' || c == '_' || c == '-'

def registerContextNative (owner : PluginHandle) (spec : NativeSpec) :
    M (KeelResult × Registration) := do
  if !spec.compatible then return (.incompatible, 0)
  if !spec.complete then return (.invalidArgument, 0)
  if !serviceName spec.service then return (.invalidArgument, 0)
  if (← get).providers.toList.any fun (_, p) => p.service == spec.service && p.owner != owner then
    return (.invalidArgument, 0)
  register owner spec true

def unregisterNative (owner : PluginHandle) (r : Registration) : M KeelResult := do
  let s ← get
  match s.providers[r]? with
  | none => return .notFound
  | some p =>
      if p.owner ≠ owner then return .invalidArgument
      if p.users ≠ 0 ∨ s.providerActive r ≠ 0 then return .busy
      modify fun s => { s with providers := s.providers.erase r }
      return .ok

/-! ## Inside a native -/

/-- A script calls a native of a provider it is bound to. -/
def callNative (a : Addr) (r : Registration) : M Unit := do
  modify (·.extEnter a r)
  let result ← Code.enter
  modify (·.extLeave r)
  if result.result ≠ .ok then throw .nativeError

def State.createResource (s : State) (a : Addr) (r : Registration) (handles : Handles Resource)
    (value : ExtensionValue) : State :=
  { s with
    handles
    values := Function.update s.values s.freshValue value
    freshValue := s.freshValue + 1
    creator := Function.update s.creator s.freshValue (a, r)
    journal := s.journal ++ [.created s.freshValue a r] }

/-- `create_resource`: the value is the core's to destroy once the handle is there. -/
def createResource (a : Addr) (r : Registration) (type data : Nat) (destroy : Function) :
    M HandleId := do
  if type = 0 ∨ data = 0 then throw .nativeError
  limit a
  let s ← get
  let p ← expect .provider s.providers[r]?
  match s.handles.add (s.owner a) ExtensionType
      (.extension { provider := p.owner, type, holder := s.freshValue }) with
  | .ok (id, handles) =>
      modify (·.createResource a r handles { data, destroy, owned := true })
      return id
  | .error _ => throw .runtimeError

/-- `NativeInvocation::Resource`: the value is of the type and of the provider. -/
def findResource (a : Addr) (r : Registration) (handle : HandleId) (type : Nat) :
    M ExtensionResource := do
  match ← getHandle handle ((← get).owner a) ExtensionType with
  | .extension e =>
      let p ← expect .provider (← get).providers[r]?
      if type = 0 ∨ e.type ≠ type ∨ e.provider ≠ p.owner then throw .nativeError
      return e
  | _ => throw .runtimeError

def closeResource (a : Addr) (r : Registration) (handle : HandleId) (type : Nat) : M Unit := do
  let _ ← findResource a r handle type
  removeHandle handle ((← get).owner a) ExtensionType

/-- `capture_callback`; token zero means that the numbers are used up. -/
def captureCallback (a : Addr) (r : Registration) (function : Function) : M Token := do
  limit a
  let s ← get
  if s.nextCallback = 0 then throw .nativeError
  let p ← expect .provider s.providers[r]?
  modify (·.capture a p.owner function)
  return s.nextCallback

/-! ## Callback tokens -/

/-- A script that may still be called, now or later. -/
def State.callable (s : State) (a : Addr) : Bool :=
  s.state a == .running || s.state a == .loading || s.state a == .paused

def cancelCallback (owner : PluginHandle) (token : Token) : M KeelResult := do
  if owner = 0 ∨ token = 0 then return .invalidArgument
  match (← get).callbacks[token]? with
  | none => return .notFound
  | some callback =>
      if callback.provider ≠ owner then return .invalidArgument
      modify (·.cancel token callback)
      return .ok

/-- `DeliverCallback`; `valid` when the arguments are. -/
def deliverCallback (owner : PluginHandle) (token : Token) (valid : Bool) : M KeelResult := do
  if owner = 0 ∨ token = 0 ∨ !valid then return .invalidArgument
  let s ← get
  match s.callbacks[token]? with
  | none => return .notFound
  | some callback =>
      if callback.provider ≠ owner then return .invalidArgument
      if callback.persistent then return .invalidArgument
      let a := callback.script
      if !s.callable a then
        let _ ← cancelCallback owner token
        return .notFound
      if s.managing || !s.idle || s.state a != .running then return .busy
      modify (·.note (.run token owner a true))
      let _ ← cancelCallback owner token
      let (success, _) ← invoke a (.delivered token)
      return if success then .ok else .engineFailure

def retainCallback (owner : PluginHandle) (token : Token) : M KeelResult := do
  if owner = 0 ∨ token = 0 then return .invalidArgument
  let s ← get
  match s.callbacks[token]? with
  | none => return .notFound
  | some callback =>
      if callback.provider ≠ owner then return .invalidArgument
      if !s.callable callback.script then
        let _ ← cancelCallback owner token
        return .notFound
      modify (·.retain token callback)
      return .ok

/-- `SR_CALLBACK_MAX_DEPTH`. -/
def callbackMaxDepth : Nat := 8

/-- `InvokeCallback`; `valid` when the arguments are. -/
def invokeCallback (owner : PluginHandle) (token : Token) (valid : Bool) :
    M (KeelResult × Int) := do
  if owner = 0 ∨ token = 0 then return (.invalidArgument, 0)
  let s ← get
  match s.callbacks[token]? with
  | none => return (.notFound, 0)
  | some callback =>
      if callback.provider ≠ owner ∨ !callback.persistent then return (.invalidArgument, 0)
      let a := callback.script
      if !s.callable a then
        let _ ← cancelCallback owner token
        return (.notFound, 0)
      if s.managing || s.state a != .running || callbackMaxDepth ≤ s.callbackDepth then
        return (.busy, 0)
      if !valid then return (.invalidArgument, 0)
      modify (·.note (.run token owner a false))
      modify fun s => { s with callbackDepth := s.callbackDepth + 1 }
      modify (·.enter a (.invoked token))
      let r ← Code.enter
      if !r.flag then
        let _ ← cancelCallback owner token
        modify (·.fault a)
      modify (·.leave a)
      modify fun s => { s with callbackDepth := s.callbackDepth - 1 }
      return if r.flag then (.ok, r.cell) else (.engineFailure, 0)

/-! ## Questions about a script -/

/-- The script of an owner number, current or replacement. -/
def State.scriptOf (s : State) (owner : Nat) : Option Addr :=
  s.scripts.find? fun a => s.owner a == owner

/-- `NativeConsumerStatus`. -/
def State.consumerStatus (s : State) (provider : PluginHandle) (owner : Nat) : KeelResult :=
  if provider = 0 ∨ owner = 0 then .invalidArgument
  else
    match s.scriptOf owner with
    | none => .notFound
    | some a =>
        if ∃ r ∈ s.providersOf a, (s.providers[r]?.map Provider.owner) = some provider then
          match s.state a with
          | .running => .ok
          | .paused => .busy
          | .loading => .busy
          | _ => .notFound
        else .invalidArgument

/-- The generation is known, and is not a candidate that starts. -/
def State.settled (s : State) (owner : Nat) : Bool :=
  decide (owner < s.nextOwner) &&
    !s.preparing.any fun a => s.owner a == owner && s.state a == .loading

def consumerStatus (provider : PluginHandle) (owner : Nat) : M KeelResult := do
  let s ← get
  let answer := s.consumerStatus provider owner
  modify (·.note (.status provider owner answer (s.settled owner)))
  return answer

/-- `ConsumerPlayer`: a handle of the script for a connection. -/
def consumerPlayer (provider : PluginHandle) (owner : Nat) (slot : Int) (generation : Nat) :
    M (KeelResult × HandleId) := do
  if slot < 0 ∨ generation = 0 then return (.invalidArgument, 0)
  let s ← get
  let status := s.consumerStatus provider owner
  if status ≠ .ok then return (status, 0)
  if s.managing then return (.busy, 0)
  let r ← reply
  if r.result ≠ .ok then return (r.result, 0)
  if r.player.connection ≠ generation then return (.notFound, 0)
  match s.scriptOf owner with
  | none => return (.notFound, 0)
  | some a =>
      tryCatch (do return (.ok, ← playerHandle a r.player)) fun
        | .nativeError => return (.busy, 0)
        | x => throw x

end Source2Root.Foundation
