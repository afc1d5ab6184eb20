import Source2Root.Foundation.Types

/-!
# The state of the plugin manager

The members of `sr::Foundation`, the members of every `Script` object column by
column, what the host holds on its behalf, and some bookkeeping that the source
does not have and nothing in the model decides on: the order in which things
happened, the calls that are under way, the lookups that failed.

A table of the host changes together with Foundation's own table: no foreign
code runs between the host's answer and the change that follows it.
-/

set_option autoImplicit false

namespace Source2Root.Foundation

/-- Why a function of a script is called. -/
inductive Reason where
  | start
  | stop
  | command (name : String) (handle : HandleId) (arguments : List Char)
  | commandMenu (name : String)
  | event (name : String)
  | timer (serial : Nat)
  | back
  | selection
  | delivered (token : Token)
  | invoked (token : Token)
deriving DecidableEq, Repr

/-- What happened, with what was the case at that moment. -/
inductive Happening where
  | called (script : Addr) (reason : Reason) (state : PluginState) (managing : Bool)
  | captured (token : Token) (provider : PluginHandle) (script : Addr)
  | retained (token : Token) (provider : PluginHandle)
  | cancelled (token : Token)
  | run (token : Token) (provider : PluginHandle) (script : Addr) (oneShot : Bool)
  | bound (script : Addr) (provider : PluginHandle)
  /-- `settled`: the generation is known, and is not a candidate that starts. -/
  | status (provider : PluginHandle) (owner : Nat) (answer : KeelResult) (settled : Bool)
  | acquire (service : String) (version users : Nat)
  | release (service : String) (version users : Nat)
  | created (holder : Nat) (script : Addr) (registration : Registration)
  | destroyed (holder : Nat) (held : Bool)
  | opened (session : Session) (player : Player) (native : Bool)
  | closed (session : Session)
  | chose (session : Session) (index : Nat) (expires now : Int)
  | selected (session : Session) (index : Nat) (display : NativeDisplay)
      (current : Option Player) (allowed : Bool)
  | timerCreated (serial : Nat) (script : Addr) (delay ran : Int)
  | fired (serial : Nat) (script : Addr) (ran : Int)
  | removed (name : String) (owners : Finset Addr)
  | ticked
  | asked (request : PendingMap)
  /-- `idle` and the owner and the state of the slot's current script are the
  manager's at that moment. -/
  | mapCall (request : PendingMap) (idle : Bool) (current : Option (Nat × PluginState))
  | failed (owner : Nat) (state : PluginState)
  | pausing (owner : Nat)
  | cleaning (owner : Nat)
  | newMap
  | suspended
deriving DecidableEq

/-- The lookups the source makes with `at`, `Get` or `std::get` on something it
takes to be there. -/
inductive Lookup where
  | commandOwners
  | eventOwners
  | listenerSlot
  | handler
  | command
  | provider
  | slot
  | variable
  | player
  | timer
  | menu
  | item
  | display
  | nativeDisplay
  | rounds
deriving DecidableEq, Repr

structure State where
  slots : Std.ExtTreeMap String Slot := ∅
  commands : Std.ExtTreeMap String (Finset Addr) := ∅
  events : Std.ExtTreeMap String (Finset Addr) := ∅
  convars : Std.ExtTreeMap String Variable := ∅
  providers : Std.ExtTreeMap Registration Provider := ∅
  callbacks : Std.ExtTreeMap Token ExtensionCallback := ∅
  handles : Handles Resource := {}
  displays : Std.ExtTreeMap Int Display := ∅
  nativeDisplays : Std.ExtTreeMap Int NativeDisplay := ∅
  pendingMap : Option PendingMap := none
  permissions : Permissions := {}
  publicTrigger : List Char := ['!']
  silentTrigger : List Char := ['/']
  voice : Voice.Service := {}
  nextOwner : Nat := 1
  nextProvider : Registration := 1
  nextSession : Session := 1
  nextLoad : Nat := 1
  nextCallback : Token := 1
  managing : Bool := false
  callbackDepth : Nat := 0
  menuCallDepth : Nat := 0
  now : Int := 0
  nextVoice : Int := 0
  /-- `PawnRuntime::depth_`. -/
  depth : Nat := 0
  -- the members of the scripts
  manifest : Addr → Manifest := fun _ => {}
  manifestPath : Addr → Path := fun _ => {}
  owner : Addr → Nat := fun _ => 0
  loadOrder : Addr → Nat := fun _ => 0
  state : Addr → PluginState := fun _ => .loading
  suspendedAt : Addr → Int := fun _ => 0
  active : Addr → Nat := fun _ => 0
  faults : Addr → Nat := fun _ => 0
  stopNotified : Addr → Bool := fun _ => false
  gagsOf : Addr → Std.ExtTreeMap Int Player := fun _ => ∅
  commandsOf : Addr → Std.ExtTreeMap String Command := fun _ => ∅
  convarsOf : Addr → Std.ExtTreeMap String HandleId := fun _ => ∅
  eventsOf : Addr → Std.ExtTreeMap String Function := fun _ => ∅
  providersOf : Addr → Finset Registration := fun _ => ∅
  callbacksOf : Addr → Finset Token := fun _ => ∅
  vm : Addr → Bool := fun _ => false
  -- the other objects on the heap
  values : Nat → ExtensionValue := fun _ => {}
  /-- `Provider::active`. -/
  providerActive : Registration → Nat := fun _ => 0
  -- the host
  hostCommands : Finset String := ∅
  hostEvents : Finset String := ∅
  hostConVars : Finset String := ∅
  leases : Finset (String × Nat) := ∅
  world : Voice.World := {}
  -- bookkeeping
  /-- The next address of a script. -/
  fresh : Addr := 1
  freshValue : Nat := 1
  nextTimer : Nat := 1
  /-- The candidate of the load or reload under way, until a slot takes it. -/
  preparing : Option Addr := none
  /-- The `NativeInvocation` objects on the stack, the innermost first. -/
  invocations : List (Addr × Registration) := []
  /-- Values taken out of the handle table whose destruction is still to come. -/
  doomed : Finset Nat := ∅
  /-- Who created an extension value, through which registration. -/
  creator : Nat → Addr × Registration := fun _ => (0, 0)
  /-- The definition a script gave when it came to own a ConVar. -/
  declared : Addr → Std.ExtTreeMap String ConVarDefinition := fun _ => ∅
  /-- The cleanup of the script has come to retire its handles. -/
  swept : Addr → Bool := fun _ => false
  /-- Ticked time in which the script was running. -/
  ran : Addr → Int := fun _ => 0
  journal : List Happening := []
  missed : List Lookup := []

namespace State

variable (s : State)

def note (e : Happening) : State := { s with journal := s.journal ++ [e] }

def setState (a : Addr) (state : PluginState) : State :=
  { s with state := Function.update s.state a state }

/-! ## Calls -/

/-- `Invoke` up to the call. -/
def enter (a : Addr) (reason : Reason) : State :=
  { s with
    active := Function.update s.active a (s.active a + 1)
    depth := s.depth + 1
    journal := s.journal ++ [.called a reason (s.state a) s.managing] }

def leave (a : Addr) : State :=
  { s with
    active := Function.update s.active a (s.active a - 1)
    depth := s.depth - 1 }

/-- `CancelMap`; owner zero is any owner. -/
def cancelMap (owner : Nat) : State :=
  { s with pendingMap := s.pendingMap.filter fun request => owner != 0 && request.owner != owner }

/-- A call of the script failed: its pending map change goes, and the third
fault retires it. -/
def fault (a : Addr) : State :=
  let later := if s.faults a + 1 ≥ 3 then .retiring else s.state a
  let s := (s.cancelMap (s.owner a)).note (.failed (s.owner a) later)
  { s with
    faults := Function.update s.faults a (s.faults a + 1)
    state := if s.faults a + 1 ≥ 3 then Function.update s.state a .retiring else s.state }

def askMap (a : Addr) (name : String) : State :=
  let request : PendingMap := { owner := s.owner a, plugin := (s.manifest a).id, name }
  { s with pendingMap := some request, journal := s.journal ++ [.asked request] }

/-- The request is taken off to be carried out. -/
def takeMap (request : PendingMap) : State :=
  { s with
    pendingMap := none
    journal := s.journal ++ [.mapCall request (s.depth == 0)
      (s.slots[request.plugin]?.map fun slot => (s.owner slot.current, s.state slot.current))] }

def pauseAt (a : Addr) : State :=
  { ((s.cancelMap (s.owner a)).setState a .paused).note (.pausing (s.owner a)) with
    suspendedAt := Function.update s.suspendedAt a s.now }

/-- A native of a provider is called by a script. -/
def extEnter (a : Addr) (r : Registration) : State :=
  { s with
    providerActive := Function.update s.providerActive r (s.providerActive r + 1)
    invocations := (a, r) :: s.invocations }

def extLeave (r : Registration) : State :=
  { s with
    providerActive := Function.update s.providerActive r (s.providerActive r - 1)
    invocations := s.invocations.tail }

/-! ## Users of services -/

def nativeUsers (displays : Std.ExtTreeMap Int NativeDisplay) (service : String) (version : Nat) :
    Nat :=
  (displays.toList.filter fun (_, d) => d.service == service && d.version == version).length

def scriptUsers (providers : Std.ExtTreeMap Registration Provider) (service : String)
    (version : Nat) : Nat :=
  (providers.toList.map fun (_, p) =>
    if p.service = service ∧ p.version = version then p.users else 0).sum

/-- `ServiceUsers`. -/
def serviceUsers (service : String) (version : Nat) : Nat :=
  scriptUsers s.providers service version + nativeUsers s.nativeDisplays service version

/-- A script comes to use a provider; `acquired` when the host gave the lease. -/
def bindProvider (a : Addr) (r : Registration) (p : Provider) (acquired : Bool) : State :=
  { s with
    providers := s.providers.insert r { p with users := p.users + 1 }
    providersOf := Function.update s.providersOf a (insert r (s.providersOf a))
    leases := if acquired then insert (p.service, p.version) s.leases else s.leases
    journal := s.journal ++ [.bound a p.owner] }

/-- A script stops using a provider; `released` when the host took the lease back. -/
def freeProvider (a : Addr) (r : Registration) (p : Provider) (released : Bool) : State :=
  { s with
    providers := s.providers.insert r { p with users := p.users - 1 }
    providersOf := Function.update s.providersOf a ((s.providersOf a).erase r)
    leases := if released then s.leases.erase (p.service, p.version) else s.leases }

def openNative (slot : Int) (d : NativeDisplay) (acquired : Bool) : State :=
  { s with
    nextSession := s.nextSession + 1
    nativeDisplays := s.nativeDisplays.insert slot d
    leases := if acquired then insert (d.service, d.version) s.leases else s.leases
    journal := s.journal ++ [.opened d.session d.player true] }

def closeNative (slot : Int) (d : NativeDisplay) (released : Bool) : State :=
  { s with
    nativeDisplays := s.nativeDisplays.erase slot
    leases := if released then s.leases.erase (d.service, d.version) else s.leases
    journal := s.journal ++ [.closed d.session] }

def setNative (slot : Int) (d : NativeDisplay) : State :=
  { s with nativeDisplays := s.nativeDisplays.insert slot d }

/-- The callback of a native menu is taken out of its record to be called; `seen`
is the player the host reported just before. -/
def selectNative (slot : Int) (d : NativeDisplay) (index : Nat) (seen : Option Player) : State :=
  { s with
    nativeDisplays := s.nativeDisplays.insert slot { d with callback := false, active := true }
    journal := s.journal ++ [.selected d.session index d seen
      (seen.any fun current => s.permissions.allows current d.menu.permission)] }

/-! ## Commands, events -/

/-- Adds an owner under a name. -/
def addOwner (table : Std.ExtTreeMap String (Finset Addr)) (name : String) (a : Addr) :
    Std.ExtTreeMap String (Finset Addr) :=
  table.insert name (insert a (table[name]?.getD ∅))

/-- Removes one of the owners under a name, and the name with the last. -/
def dropOwner (table : Std.ExtTreeMap String (Finset Addr)) (name : String) (owners : Finset Addr)
    (a : Addr) : Std.ExtTreeMap String (Finset Addr) :=
  let left := owners.erase a
  if left = ∅ then table.erase name else table.insert name left

def addCommand (a : Addr) (name : String) (command : Command) (registered : Bool) : State :=
  { s with
    commands := addOwner s.commands name a
    commandsOf := Function.update s.commandsOf a ((s.commandsOf a).insert name command)
    hostCommands := if registered then insert name s.hostCommands else s.hostCommands }

def dropCommand (a : Addr) (name : String) (owners : Finset Addr) (removed : Bool) : State :=
  { s with
    commands := dropOwner s.commands name owners a
    commandsOf := Function.update s.commandsOf a ((s.commandsOf a).erase name)
    hostCommands := if removed then s.hostCommands.erase name else s.hostCommands
    journal := if removed then s.journal ++ [.removed name owners] else s.journal }

def addEvent (a : Addr) (name : String) (callback : Function) (registered : Bool) : State :=
  { s with
    events := addOwner s.events name a
    eventsOf := Function.update s.eventsOf a ((s.eventsOf a).insert name callback)
    hostEvents := if registered then insert name s.hostEvents else s.hostEvents }

def dropEvent (a : Addr) (name : String) (owners : Finset Addr) (removed : Bool) : State :=
  { s with
    events := dropOwner s.events name owners a
    eventsOf := Function.update s.eventsOf a ((s.eventsOf a).erase name)
    hostEvents := if removed then s.hostEvents.erase name else s.hostEvents
    journal := if removed then s.journal ++ [.removed name owners] else s.journal }

/-! ## ConVars -/

/-- `created` when the host made the ConVar for this first owner. -/
def addConVar (a : Addr) (definition : ConVarDefinition) (handle : HandleId) (v : Variable)
    (created : Bool) : State :=
  let name := definition.name
  { s with
    convars := s.convars.insert name { v with owners := insert a v.owners }
    convarsOf := Function.update s.convarsOf a ((s.convarsOf a).insert name handle)
    declared := Function.update s.declared a ((s.declared a).insert name definition)
    hostConVars := if created then insert name s.hostConVars else s.hostConVars }

def dropConVar (a : Addr) (name : String) (v : Variable) (released : Bool) : State :=
  let left := v.owners.erase a
  { s with
    convars :=
      if left = ∅ then s.convars.erase name else s.convars.insert name { v with owners := left }
    convarsOf := Function.update s.convarsOf a ((s.convarsOf a).erase name)
    hostConVars := if released then s.hostConVars.erase name else s.hostConVars
    journal := if released then s.journal ++ [.removed name v.owners] else s.journal }

def sweep (a : Addr) : State := { s with swept := Function.update s.swept a true }

/-! ## Callbacks -/

def capture (a : Addr) (provider : PluginHandle) (function : Function) : State :=
  { s with
    callbacks := s.callbacks.insert s.nextCallback { script := a, provider, function }
    callbacksOf := Function.update s.callbacksOf a (insert s.nextCallback (s.callbacksOf a))
    nextCallback := (s.nextCallback + 1) % 2 ^ 64
    journal := s.journal ++ [.captured s.nextCallback provider a] }

def cancel (token : Token) (callback : ExtensionCallback) : State :=
  { s with
    callbacks := s.callbacks.erase token
    callbacksOf := Function.update s.callbacksOf callback.script
      ((s.callbacksOf callback.script).erase token)
    journal := s.journal ++ [.cancelled token] }

def retain (token : Token) (callback : ExtensionCallback) : State :=
  { s with
    callbacks := s.callbacks.insert token { callback with persistent := true }
    journal := s.journal ++ [.retained token callback.provider] }

/-- Cleanup forgets every token of the script. -/
def dropCallbacks (a : Addr) : State :=
  { s with
    callbacks := s.callbacks.filter fun token _ => token ∉ s.callbacksOf a
    callbacksOf := Function.update s.callbacksOf a ∅
    journal := s.journal ++ ((s.callbacksOf a).sort (· ≤ ·)).map Happening.cancelled }

/-! ## Extension values -/

/-- The script still uses the provider the value came from, and the host's lease
on its service is held. -/
def holds (holder : Nat) : Bool :=
  let (a, r) := s.creator holder
  match s.providers[r]? with
  | some p => decide (r ∈ s.providersOf a ∧ (p.service, p.version) ∈ s.leases)
  | none => false

/-- The values among those taken out of the table that `~ExtensionValue` destroys. -/
def holders (values : List Resource) : List Nat :=
  values.filterMap fun
    | .extension e => some e.holder
    | _ => none

def destroy (holder : Nat) : State :=
  { s with
    doomed := s.doomed.erase holder
    journal := s.journal ++ [.destroyed holder (s.holds holder)] }

/-! ## Displays -/

def setDisplay (slot : Int) (d : Display) : State :=
  { s with displays := s.displays.insert slot d }

/-- The menu of a display goes together with the display. -/
def closeMenu (slot : Int) (handles : Handles Resource) : State :=
  { s with handles, displays := s.displays.erase slot }

/-- `CurrentMenu`; zero is none. -/
def currentMenu (player : Player) : Session :=
  match (s.nativeDisplays[player.slot]?).filter
      (fun d => d.player.sameConnection player && !d.closing) with
  | some d => d.session
  | none =>
      match (s.displays[player.slot]?).filter (·.player.sameConnection player) with
      | some d => d.session
      | none => 0

/-! ## Objects that come and go -/

/-- A new `Script` in a state, with nothing of its own. -/
def newScript (m : Manifest) (path : Path) (owner : Nat) (state : PluginState) : State :=
  let a := s.fresh
  { s with
    fresh := s.fresh + 1
    manifest := Function.update s.manifest a m
    manifestPath := Function.update s.manifestPath a path
    owner := Function.update s.owner a owner
    loadOrder := Function.update s.loadOrder a 0
    state := Function.update s.state a state
    suspendedAt := Function.update s.suspendedAt a 0
    active := Function.update s.active a 0
    faults := Function.update s.faults a 0
    stopNotified := Function.update s.stopNotified a false
    gagsOf := Function.update s.gagsOf a ∅
    commandsOf := Function.update s.commandsOf a ∅
    convarsOf := Function.update s.convarsOf a ∅
    eventsOf := Function.update s.eventsOf a ∅
    providersOf := Function.update s.providersOf a ∅
    callbacksOf := Function.update s.callbacksOf a ∅
    vm := Function.update s.vm a false
    ran := Function.update s.ran a 0 }

/-- The scripts of the slots, in the order the source visits them. -/
def scripts : List Addr :=
  s.slots.toList.flatMap fun (_, slot) => slot.current :: slot.replacement.toList

end State

end Source2Root.Foundation
