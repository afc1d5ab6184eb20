import Source2Root.Foundation.Menus

/-!
# Loading, unloading and replacing scripts

`Cleanup`, `Prepare` and the operations of plugin management.  A management
operation refuses to start while another one is under way.
-/

set_option autoImplicit false

namespace Source2Root.Foundation

open Reentrant

/-! ## Dependencies -/

/-- The scripts of a slot, the current one first. -/
def Slot.scripts (slot : Slot) : List Addr := slot.current :: slot.replacement.toList

/-- The first loop of `CheckDependencies`: nobody who is loaded needs a newer
version. -/
def State.wanted (s : State) (m : Manifest) : Bool :=
  s.slots.toList.all fun (id, slot) =>
    id == m.id || slot.scripts.all fun a =>
      !s.vm a ||
        match (s.manifest a).dependencies[m.id]? with
        | some required => !m.version.before required
        | none => true

/-- The second loop: what the script needs is running. -/
def State.supplied (s : State) (m : Manifest) : Bool :=
  m.dependencies.toList.all fun (id, version) =>
    match s.slots[id]? with
    | some slot =>
        s.state slot.current == .running && !(s.manifest slot.current).version.before version
    | none => false

/-- The identifiers that the loaded scripts of a slot depend on. -/
def State.needs (s : State) (id : String) : List String :=
  match s.slots[id]? with
  | some slot =>
      (slot.scripts.filter s.vm).flatMap fun a => (s.manifest a).dependencies.keys
  | none => []

/-- The last loop: whether the search from the pending identifiers meets `id`.
Every round takes one identifier off, and each known one adds its needs once. -/
def State.meets (s : State) (id : String) : Nat → List String → List String → Bool
  | 0, _, _ => false
  | _, _, [] => false
  | fuel + 1, visited, next :: pending =>
      if next = id then true
      else if next ∈ visited then s.meets id fuel visited pending
      else s.meets id fuel (next :: visited) ((s.needs next).reverse ++ pending)

/-- The edges of the dependency graph, counted with the start. -/
def State.searchFuel (s : State) (m : Manifest) : Nat :=
  m.dependencies.size + (s.slots.toList.map fun (id, _) => (s.needs id).length).sum + 1

/-- `CheckDependencies`. -/
def State.checkDependencies (s : State) (m : Manifest) : Bool :=
  s.wanted m && s.supplied m && !s.meets m.id (s.searchFuel m) [] m.dependencies.keys.reverse

/-- `Dependent`: somebody else who is loaded depends on the plugin. -/
def State.dependent (s : State) (id : String) (runningOnly : Bool) : Bool :=
  s.slots.toList.any fun (other, slot) =>
    other != id && slot.scripts.any fun a =>
      s.vm a && (s.manifest a).dependencies.contains id &&
        (!runningOnly || s.state a != .paused)

/-! ## Cleanup -/

/-- `CloseConVar`. -/
def closeConVar (a : Addr) (name : String) : M Bool := do
  let s ← get
  match (s.convarsOf a)[name]?, s.convars[name]? with
  | some handle, some v =>
      let last : Bool := v.owners.card == 1 && v.native != 0
      if last then
        let result ← host
        if result ≠ .ok ∧ result ≠ .notFound then return false
      modify (·.dropConVar a name v last)
      if (← get).handles.contains handle (s.owner a) ConVarType then
        removeHandle handle (s.owner a) ConVarType
      return true
  | _, _ => return false

def closeConVars (a : Addr) : List String → Bool → M Bool
  | [], success => return success
  | name :: rest, success => do
      let closed ← closeConVar a name
      closeConVars a rest (success && closed)

def removeCommands (a : Addr) : List String → Bool → M Bool
  | [], success => return success
  | name :: rest, success => do
      let owners ← expect .commandOwners (← get).commands[name]?
      if owners.card = 1 then
        if (← host) ≠ .ok then removeCommands a rest false
        else
          modify (·.dropCommand a name owners true)
          removeCommands a rest success
      else
        modify (·.dropCommand a name owners false)
        removeCommands a rest success

def removeEvents (a : Addr) : List String → Bool → M Bool
  | [], success => return success
  | name :: rest, success => do
      let owners ← expect .eventOwners (← get).events[name]?
      if owners.card = 1 then
        if (← host) ≠ .ok then removeEvents a rest false
        else
          modify (·.dropEvent a name owners true)
          removeEvents a rest success
      else
        modify (·.dropEvent a name owners false)
        removeEvents a rest success

def releaseProviders (a : Addr) : List Registration → Bool → M Bool
  | [], success => return success
  | r :: rest, success => do
      let s ← get
      let p ← expect .provider s.providers[r]?
      if s.providerActive r ≠ 0 then releaseProviders a rest false
      else
        let users := s.serviceUsers p.service p.version
        if users = 1 then
          modify (·.note (.release p.service p.version users))
          if (← host) ≠ .ok then releaseProviders a rest false
          else
            modify (·.freeProvider a r p true)
            releaseProviders a rest success
        else
          modify (·.freeProvider a r p false)
          releaseProviders a rest success

/-- `OnPluginStop`, which a script sees once; `r.flag` tells whether it has one. -/
def notifyStop (a : Addr) : M Unit := do
  let s ← get
  if s.vm a && !s.stopNotified a then
    modify fun s => { s with stopNotified := Function.update s.stopNotified a true }
    let r ← reply
    if r.flag then
      let _ ← invoke a .stop

/-- What `Cleanup` gives back to the host and to extensions, in order. -/
def releaseOwned (a : Addr) (success : Bool) : M Bool := do
  let success ← closeConVars a ((← get).convarsOf a).keys success
  let success ← removeCommands a ((← get).commandsOf a).keys success
  let success ← removeEvents a ((← get).eventsOf a).keys success
  retireHandles ((← get).owner a) ExtensionType
  let success ← releaseProviders a (((← get).providersOf a).sort (· ≤ ·)) success
  modify (·.sweep a)
  retireHandles ((← get).owner a) 0
  return success

def cleanup (a : Addr) : M Bool := do
  modify fun s => (s.cancelMap (s.owner a)).note (.cleaning (s.owner a))
  if (← get).active a ≠ 0 then return false
  notifyStop a
  modify (·.dropCallbacks a)
  if !(← clearMenus a) then return false
  modify fun s => { s with gagsOf := Function.update s.gagsOf a ∅ }
  let released ← voiceCall (Voice.release ((← get).owner a))
  if !(← releaseOwned a released) then return false
  modify fun s => { s with vm := Function.update s.vm a false }
  return true

/-! ## Preparing a script -/

/-- `Manifest::Read`: what the file holds is the environment's. -/
def readManifest (path : Path) : M Manifest := do
  match (← reply).manifest with
  | some m => if m.accepted path then return m else throw .runtimeError
  | none => throw .runtimeError

/-- The loop of `Bind` over the providers; `r.flag` tells whether the script
uses the native. -/
def bindProviders (a : Addr) : List Registration → M Unit
  | [] => pure ()
  | r :: rest => do
      if (← reply).flag then
        let s ← get
        let p ← expect .provider s.providers[r]?
        let users := s.serviceUsers p.service p.version
        if users = 0 then
          if (← acquireProvider p.service p.version users) ≠ .ok then throw .nativeError
          modify (·.bindProvider a r p true)
        else modify (·.bindProvider a r p false)
        if !(← reply).flag then throw .runtimeError
      bindProviders a rest

/-- The part of `Prepare` whose failure is cleaned up: the bytecode is loaded and
bound, every native found, and `OnPluginStart` returns true. -/
def startCandidate (a : Addr) : M Unit := do
  if !(← reply).flag then throw .runtimeError
  modify fun s => { s with vm := Function.update s.vm a true }
  if !(← reply).flag then throw .runtimeError
  bindProviders a (← get).providers.keys
  if !(← reply).flag then throw .runtimeError
  let (success, result) ← invoke a .start
  if !success ∨ result ≠ 1 then throw .runtimeError

def State.setStopNotified (s : State) (a : Addr) : State :=
  { s with stopNotified := Function.update s.stopNotified a true }

/-- The candidate, known to nobody but the operation under way. -/
def State.prepare (s : State) (m : Manifest) (path : Path) : State :=
  let s' := s.newScript m path s.nextOwner .loading
  { s' with
    nextOwner := s.nextOwner + 1
    suspendedAt := Function.update s'.suspendedAt s.fresh s.now
    preparing := some s.fresh }

/-- A current script that a load may replace. -/
def State.replaceable (s : State) (id : String) : Bool :=
  match s.slots[id]? with
  | some slot => s.state slot.current == .disabled || s.state slot.current == .failed
  | none => true

def prepare (path : Path) (replacement : Bool) : M Addr := do
  let m ← readManifest path
  let s ← get
  if !replacement && !s.replaceable m.id then throw .runtimeError
  if !s.checkDependencies m then throw .runtimeError
  if s.nextOwner = maxUInt64 then throw .runtimeError
  modify (·.prepare m path)
  let a := s.fresh
  try startCandidate a
  catch _ =>
    modify fun s => (s.setState a .retiring).setStopNotified a
    if ← cleanup a then modify (·.setState a .failed)
  return a

/-! ## Loading -/

/-- A slot takes the candidate as its current script. -/
def State.place (s : State) (a : Addr) (ready : Bool) : State :=
  let id := (s.manifest a).id
  let slot : Slot :=
    match s.slots[id]? with
    | some slot => { slot with current := a }
    | none => { current := a }
  { s with
    slots := s.slots.insert id slot
    preparing := none
    state := if ready then Function.update s.state a .running else s.state
    loadOrder := if ready then Function.update s.loadOrder a s.nextLoad else s.loadOrder
    nextLoad := if ready then s.nextLoad + 1 else s.nextLoad }

/-- A script that is only a record of a file: it failed or is disabled. -/
def State.placeRecord (s : State) (id : String) (m : Manifest) (path : Path) (state : PluginState) :
    State :=
  let s' := s.newScript m path 0 state
  { s' with slots := s.slots.insert id { current := s.fresh } }

def State.rewriteRecord (s : State) (a : Addr) (m : Manifest) (path : Path) : State :=
  { s with
    manifest := Function.update s.manifest a m
    manifestPath := Function.update s.manifestPath a path
    state := Function.update s.state a .failed }

/-- `RecordFailure`. -/
def recordFailure (path : Path) : M Unit := do
  let id := path.directory
  if !validIdentifier id then return
  let r ← reply
  let s ← get
  match s.slots[id]? with
  | none =>
      let m := (r.manifest.filter (·.accepted path)).getD { id }
      modify (·.placeRecord id m path .failed)
  | some slot =>
      if s.vm slot.current || slot.replacement.isSome then return
      let m := (r.manifest.filter (·.accepted path)).getD { s.manifest slot.current with id }
      modify (·.rewriteRecord slot.current m path)

/-- The part of `LoadScript` inside its `try`. -/
def loadFresh (path : Path) : M Bool := do
  let a ← prepare path false
  let ready := (← get).state a == .loading
  modify (·.place a ready)
  return ready

def loadScript (path : Path) : M Bool :=
  tryCatch (loadFresh path) fun _ => do
    recordFailure path
    return false

/-- `ManagementScope`. -/
def manage (m : M Bool) : M Bool := do
  if (← get).managing then return false
  modify fun s => { s with managing := true }
  m.finally_ fun s => { s with managing := false }

def load (path : Path) : M Bool := manage (loadScript path)

/-! ## Unloading -/

def State.setSlot (s : State) (id : String) (slot : Slot) : State :=
  { s with slots := s.slots.insert id slot }

/-- The current script of a slot is cleaned up for good. -/
def unloadCurrent (id : String) : M Bool := do
  let slot ← expect .slot (← get).slots[id]?
  modify (·.setState slot.current .retiring)
  if !(← cleanup slot.current) then return false
  modify (·.setState slot.current .disabled)
  return true

def unloadScript (id : String) : M Bool := do
  let s ← get
  match s.slots[id]? with
  | none => return false
  | some slot =>
      if s.dependent id false then return false
      match slot.replacement with
      | some b =>
          modify (·.setState b .retiring)
          if !(← cleanup b) then return false
          modify (·.setSlot id { slot with replacement := none })
          unloadCurrent id
      | none => unloadCurrent id

def unload (id : String) : M Bool := manage (unloadScript id)

/-- One pass of `UnloadAllScripts` over the recorded order. -/
def unloadPass : List String → List String → Bool → M (Bool × List String)
  | [], attempted, progress => return (progress, attempted)
  | id :: rest, attempted, progress => do
      let s ← get
      let slot ← expect .slot s.slots[id]?
      if !(slot.scripts.any s.vm) || attempted.contains id || s.dependent id false then
        unloadPass rest attempted progress
      else
        let unloaded ← unloadScript id
        unloadPass rest (id :: attempted) (progress || unloaded)

/-- Passes as long as one unloads something. -/
def unloadPasses (order : List String) : Nat → List String → M Unit
  | 0, _ => miss .rounds
  | fuel + 1, attempted => do
      let (progress, attempted) ← unloadPass order attempted false
      if progress then unloadPasses order fuel attempted

/-- The identifiers by load order, the last one first. -/
def State.unloadOrder (s : State) : List String :=
  ((s.slots.toList.map fun (id, slot) => (s.loadOrder slot.current, id)).mergeSort
    fun x y => y.1 < x.1 || (x.1 == y.1 && y.2 ≤ x.2)).map Prod.snd

def unloadAllScripts : M Bool := do
  let order := (← get).unloadOrder
  unloadPasses order (order.length + 1) []
  let s ← get
  return s.slots.toList.all fun (_, slot) => !slot.scripts.any s.vm

def unloadAll : M Bool := manage do
  if !(← get).idle then return false
  unloadAllScripts

/-! ## Replacing -/

/-- `ResumeTimers`: the time a script was suspended does not count. -/
def resumeTimers (a : Addr) : M Unit := do
  let s ← get
  let owner := s.owner a
  let elapsed := s.now - s.suspendedAt a
  (s.handles.owned owner TimerType).forM fun id => do
    let timer ← expect .timer ((← get).timer id owner)
    putHandle id (.timer { timer with due := timer.due + elapsed })

/-- The replacement becomes the current script. -/
def State.swap (s : State) (id : String) (slot : Slot) (b : Addr) : State :=
  { s with
    slots := s.slots.insert id { slot with current := b, replacement := none }
    suspendedAt := Function.update s.suspendedAt b s.now
    state := Function.update s.state b slot.replacementState
    loadOrder := Function.update s.loadOrder b s.nextLoad
    nextLoad := s.nextLoad + 1 }

/-- A slot keeps the candidate as its replacement. -/
def State.stage (s : State) (id : String) (slot : Slot) (a : Addr) : State :=
  { s with slots := s.slots.insert id { slot with replacement := some a }, preparing := none }

/-- The old script goes and the staged one takes its place. -/
def replaceCurrent (id : String) (b : Addr) : M Bool := do
  let s ← get
  let slot ← expect .slot s.slots[id]?
  if s.state b ≠ .loading then
    if ← cleanup b then modify (·.setSlot id { slot with replacement := none })
    return false
  if !s.checkDependencies (s.manifest b) then return false
  modify (·.setState slot.current .retiring)
  if !(← cleanup slot.current) then return false
  resumeTimers b
  modify (·.swap id slot b)
  return true

/-- The candidate of a reload is there; one that is not ready to run is cleaned up
or, when that fails, kept as the replacement. -/
def stageCandidate (id : String) (slot : Slot) (a : Addr) : M Bool := do
  if ((← get).manifest a).id ≠ id then modify (·.setState a .retiring)
  if (← get).state a ≠ .loading then
    if ← cleanup a then modify fun s => { s with preparing := none }
    else modify (·.stage id slot a)
    return false
  modify (·.stage id slot a)
  replaceCurrent id a

/-- The part of `ReloadScript` inside its `try`, for a slot without a replacement. -/
def reloadFresh (id : String) (slot : Slot) : M Bool := do
  let s ← get
  let slot := { slot with
    replacementState := if s.state slot.current = .paused then .paused else .running }
  modify (·.setSlot id slot)
  let a ← prepare (s.manifestPath slot.current) true
  stageCandidate id slot a

def reloadSlot (id : String) (slot : Slot) : M Bool :=
  match slot.replacement with
  | some b => replaceCurrent id b
  | none => reloadFresh id slot

def reloadScript (id : String) : M Bool := do
  let s ← get
  match s.slots[id]? with
  | none => return false
  | some slot =>
      if s.active slot.current ≠ 0 then return false
      tryCatch (reloadSlot id slot) fun _ => return false

def reload (id : String) : M Bool := manage (reloadScript id)

/-! ## Pausing -/

def pauseScript (id : String) : M Bool := do
  let s ← get
  match s.slots[id]? with
  | none => return false
  | some slot =>
      let a := slot.current
      if slot.replacement.isSome then return false
      if s.state a = .paused then clearMenus a
      else
        if s.state a ≠ .running ∨ s.active a ≠ 0 then return false
        if s.dependent id true then return false
        modify (·.pauseAt a)
        clearMenus a

def pause (id : String) : M Bool := manage (pauseScript id)

def resumeScript (id : String) : M Bool := do
  let s ← get
  match s.slots[id]? with
  | none => return false
  | some slot =>
      let a := slot.current
      if slot.replacement.isSome then return false
      if s.state a ≠ .paused then return false
      if !s.checkDependencies (s.manifest a) then return false
      if !(← clearMenus a) then return false
      resumeTimers a
      modify (·.setState a .running)
      return true

def resume (id : String) : M Bool := manage (resumeScript id)

def retryScript (id : String) : M Bool := do
  let s ← get
  match s.slots[id]? with
  | none => return false
  | some slot =>
      if s.state slot.current ≠ .failed ∨ slot.replacement.isSome then return false
      loadScript (s.manifestPath slot.current)

def retry (id : String) : M Bool := manage (retryScript id)

/-! ## Discovering and refreshing -/

structure Pending where
  manifest : Manifest
  path : Path
  replacement : Bool

/-- The part inside the `try` of the loop over the loaded scripts; the answers
tell whether the files could be read and whether the bytecode is the same. -/
def compareFiles (pending : Std.ExtTreeMap String Pending × Bool) (id : String) (known : Manifest)
    (path : Path) : M (Std.ExtTreeMap String Pending × Bool) := do
  let m ← readManifest path
  let r ← reply
  if r.result ≠ .ok then throw .runtimeError
  if m.source = known.source ∧ r.flag then return pending
  return (pending.1.insertIfNew id { manifest := m, path, replacement := true }, pending.2)

/-- A loaded script whose files may have changed. -/
def refreshOne (pending : Std.ExtTreeMap String Pending × Bool) (id : String) :
    M (Std.ExtTreeMap String Pending × Bool) := do
  let s ← get
  match s.slots[id]? with
  | none => return pending
  | some slot =>
      let a := slot.current
      if s.state a = .disabled ∨ s.state a = .failed then return pending
      if slot.replacement.isSome ∨ (s.state a ≠ .running ∧ s.state a ≠ .paused) then
        return (pending.1, false)
      tryCatch (compareFiles pending id (s.manifest a) (s.manifestPath a)) fun _ =>
        return (pending.1, false)

/-- The part inside the `try` of the loop over the directory's entries. -/
def discoverNew (pending : Std.ExtTreeMap String Pending × Bool) (id : String) (path : Path) :
    M (Std.ExtTreeMap String Pending × Bool) := do
  let m ← readManifest path
  if !m.enabled then
    modify (·.placeRecord id m path .disabled)
    return pending
  return (pending.1.insertIfNew id { manifest := m, path, replacement := false }, pending.2)

/-- An entry of the plugin directory that no slot knows. -/
def discoverOne (place : String) (pending : Std.ExtTreeMap String Pending × Bool)
    (entry : String × Bool) : M (Std.ExtTreeMap String Pending × Bool) := do
  let (id, directory) := entry
  if !directory || (← get).slots.contains id then return pending
  let path : Path := { place, directory := id }
  tryCatch (discoverNew pending id path) fun _ => do
    recordFailure path
    return (pending.1, false)

/-- One pass over the pending plugins: those that wait for no other are tried. -/
def loadPass : List (String × Pending) → Std.ExtTreeMap String Pending → Bool → Bool →
    M (Std.ExtTreeMap String Pending × Bool × Bool)
  | [], pending, progress, success => return (pending, progress, success)
  | (id, item) :: rest, pending, progress, success => do
      if item.manifest.dependencies.keys.any pending.contains then
        loadPass rest pending progress success
      else
        let ready ← if item.replacement then reloadScript id else loadScript item.path
        loadPass rest (pending.erase id) true (success && ready)

def loadPasses : Nat → Std.ExtTreeMap String Pending → Bool →
    M (Std.ExtTreeMap String Pending × Bool)
  | 0, pending, success => return (pending, success)
  | fuel + 1, pending, success => do
      let (pending, progress, success) ← loadPass pending.toList pending false success
      if progress && !pending.isEmpty then loadPasses fuel pending success
      else return (pending, success)

/-- `DiscoverScripts`; the directory's entries are the environment's. -/
def discoverScripts (place : String) (refresh : Bool) : M Bool := do
  let s ← get
  let known := if refresh then s.slots.keys else []
  let pending ← known.foldlM refreshOne (∅, true)
  let r ← reply
  let pending ← r.entries.foldlM (discoverOne place) pending
  let success := pending.2 && r.flag
  let (left, success) ← loadPasses (pending.1.size + 1) pending.1 success
  left.toList.forM fun (_, item) => if item.replacement then pure () else recordFailure item.path
  return success && left.isEmpty

def discover (place : String) : M Bool := manage (discoverScripts place false)

def refresh (place : String) : M Bool := manage do
  if !(← get).idle then return false
  discoverScripts place true

/-! ## Shutting down, pausing the whole -/

def closeNativeDisplays : List Int → Bool → M Bool
  | [], success => return success
  | slot :: rest, success => do
      let closed ← closeNativeDisplay slot none
      closeNativeDisplays rest (success && closed)

def shutdown : M Bool := manage do
  if !(← get).idle then return false
  let closed ← closeNativeDisplays (← get).nativeDisplays.keys true
  let unloaded ← unloadAllScripts
  let released ← voiceCall (Voice.release 0)
  return closed && unloaded && released

def clearAll : List Addr → Bool → M Bool
  | [], success => return success
  | a :: rest, success => do
      let cleared ← clearMenus a
      clearAll rest (success && cleared)

/-- `PreparePause`. -/
def preparePause : M Bool := do
  if !(← get).idle then return false
  let cleared ← clearAll (← get).scripts true
  let closed ← closeNativeDisplays (← get).nativeDisplays.keys cleared
  if !closed then return false
  if !(← voiceCall Voice.suspend) then return false
  modify fun s => (s.cancelMap 0).note .suspended
  return true

end Source2Root.Foundation
