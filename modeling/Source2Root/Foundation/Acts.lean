import Source2Root.Foundation.Runs

/-!
# The single changes of the state

Everything the manager does is made of the changes listed here.  Each comes with
the guard under which the code makes it, and with a kind: a change somebody may
make while a management operation is under way, a change that the cleanup of a
script makes, or one that only the management operation itself makes.
-/

set_option autoImplicit false

namespace Source2Root.Foundation

inductive Kind where
  | quiet
  | cleaning (a : Addr)
  | managing
deriving DecidableEq

namespace State

variable (s : State)

/-! ## Guards -/

/-- What `Limit` counts. -/
def load (a : Addr) : Nat :=
  (s.handles.owned (s.owner a) 0).length + (s.commandsOf a).size + (s.eventsOf a).size +
    (s.callbacksOf a).card

/-- `Limit` lets the script make a new thing. -/
structure Making (a : Addr) : Prop where
  awake : s.state a = .running ∨ (s.state a = .loading ∧ s.active a ≠ 0)
  room : s.load a < 128

/-- No function of the script runs, and none is called any more. -/
structure Still (a : Addr) : Prop where
  inactive : s.active a = 0
  loading : s.state a ≠ .loading
  running : s.state a ≠ .running
  paused : s.state a ≠ .paused

/-- A function of the script runs, or it is being cleaned up. -/
def Permit (a : Addr) (k : Kind) : Prop :=
  (k = .quiet ∧ s.active a ≠ 0) ∨ (k = .cleaning a ∧ s.Still a)

/-- Nothing in any table is the script's. -/
structure Bare (a : Addr) : Prop where
  inactive : s.active a = 0
  commands : s.commandsOf a = ∅
  events : s.eventsOf a = ∅
  convars : s.convarsOf a = ∅
  providers : s.providersOf a = ∅
  callbacks : s.callbacksOf a = ∅
  gags : s.gagsOf a = ∅
  handles : s.handles.owned (s.owner a) 0 = []

/-- A callback is called right after it was taken. -/
def Entitled (a : Addr) : Reason → Prop
  | .delivered token => s.managing = false ∧ ∃ before provider, s.journal =
      before ++ [.run token provider a true, .cancelled token]
  | .invoked token => s.managing = false ∧ ∃ before provider, s.journal =
      before ++ [.run token provider a false]
  | _ => True

def Current (a : Addr) : Prop :=
  ∃ id : String, ∃ slot : Slot, s.slots[id]? = some slot ∧ a = slot.current

/-- Where the script is. -/
def Placed (a : Addr) : Prop :=
  ∃ id : String, ∃ slot : Slot, s.slots[id]? = some slot ∧ a ∈ slot.scripts

/-- The item was chosen, in time, and it is enabled. -/
def Chosen (d : NativeDisplay) (index : Nat) : Prop :=
  (∃ item, d.menu.items[index]? = some item ∧ item.enabled = true) ∧
    ∃ expires now, .chose d.session index expires now ∈ s.journal ∧ now < expires

/-! ## What the acts do -/

def resetVm (a : Addr) : State := { s with vm := Function.update s.vm a false }

def loadVm (a : Addr) : State := { s with vm := Function.update s.vm a true }

def beginCleanup (a : Addr) : State := (s.cancelMap (s.owner a)).note (.cleaning (s.owner a))

end State

/-! ## The flags of a native menu -/

/-- How the record of a native menu changes in place. -/
inductive Marked (now : Int) (d : NativeDisplay) : NativeDisplay → Prop where
  | closing (idle : d.active = false) : Marked now d { d with closing := true }
  | cleared (idle : d.active = false) (closing : d.closing = true) :
      Marked now d { d with cleared := true }
  | abandoned (idle : d.active = false) :
      Marked now d { d with cleared := true, closing := true }
  | used (input : MenuInput) (idle : d.active = false) (opened : d.closing = false)
      (inTime : now < d.expires) :
      Marked now d { d with expires := now + d.timeout, menu := (d.menu.input input).2 }

/-! ## The acts -/

inductive Act : Kind → State → State → Prop where
  /-- The one lookup of the source that can fail. -/
  | miss {s : State} : Act .quiet s { s with missed := s.missed ++ [.listenerSlot] }
  -- calls
  | enter {s : State} (a : Addr) (reason : Reason) (running : s.state a = .running)
      (loaded : s.vm a = true) (entitled : s.Entitled a reason) : Act .quiet s (s.enter a reason)
  | enterStart {s : State} (a : Addr) (candidate : s.preparing = some a)
      (loading : s.state a = .loading) (loaded : s.vm a = true) :
      Act .managing s (s.enter a .start)
  | enterStop {s : State} (a : Addr) (still : s.Still a) (retiring : s.state a = .retiring)
      (loaded : s.vm a = true) : Act (.cleaning a) s (s.enter a .stop)
  | leave {s : State} (a : Addr) (active : s.active a ≠ 0)
      (outside : s.active a = 1 → ∀ r, (a, r) ∉ s.invocations) : Act .quiet s (s.leave a)
  | fault {s : State} (a : Addr) (active : s.active a ≠ 0) : Act .quiet s (s.fault a)
  | extEnter {s : State} (a : Addr) (r : Registration) (active : s.active a ≠ 0)
      (bound : r ∈ s.providersOf a) : Act .quiet s (s.extEnter a r)
  | extLeave {s : State} (a : Addr) (r : Registration) (rest : List (Addr × Registration))
      (top : s.invocations = (a, r) :: rest) (active : s.providerActive r ≠ 0) :
      Act .quiet s (s.extLeave r)
  | deeper {s : State} (depth : s.callbackDepth < callbackMaxDepth) :
      Act .quiet s { s with callbackDepth := s.callbackDepth + 1 }
  | shallower {s : State} (depth : s.callbackDepth ≠ 0) :
      Act .quiet s { s with callbackDepth := s.callbackDepth - 1 }
  | menuDeeper {s : State} : Act .quiet s { s with menuCallDepth := s.menuCallDepth + 1 }
  | menuShallower {s : State} : Act .quiet s { s with menuCallDepth := s.menuCallDepth - 1 }
  -- the clock, the map, settings
  | advance {s : State} (now : Int) (idle : s.depth = 0) : Act .quiet s (s.advance now)
  | nextVoice {s : State} (at_ : Int) : Act .quiet s { s with nextVoice := at_ }
  | cancelMap {s : State} (owner : Nat) : Act .quiet s (s.cancelMap owner)
  | newMap {s : State} : Act .quiet s ((s.cancelMap 0).note .newMap)
  | suspended {s : State} : Act .quiet s ((s.cancelMap 0).note .suspended)
  | takeMap {s : State} (request : PendingMap) (pending : s.pendingMap = some request)
      (ticked : s.journal.getLast? = some .ticked) (idle : s.depth = 0)
      (asks : ∃ slot : Slot, s.slots[request.plugin]? = some slot ∧
        s.owner slot.current = request.owner ∧ s.state slot.current = .running) :
      Act .quiet s (s.takeMap request)
  | askMap {s : State} (a : Addr) (name : String) (running : s.state a = .running)
      (active : s.active a ≠ 0) (free : s.pendingMap = none) : Act .quiet s (s.askMap a name)
  | permissions {s : State} (permissions : Permissions) : Act .quiet s { s with permissions }
  | configure {s : State} (settings : Settings.CoreSettings)
      (changed : (∃ name value, s.settings.set name value = .ok settings) ∨
        ∃ values, s.settings.setAll values = .ok settings) :
      Act .quiet s (s.configure settings)
  | voice {s : State} (world : Voice.World) (voice : Voice.Service) :
      Act .quiet s { s with world, voice }
  -- leases, providers
  | acquire {s : State} (service : String) (version : Nat)
      (unused : s.serviceUsers service version = 0) :
      Act .quiet s (s.note (.acquire service version 0))
  | release {s : State} (service : String) (version : Nat)
      (last : s.serviceUsers service version = 1) :
      Act .quiet s (s.note (.release service version 1))
  | addProvider {s : State} (p : Provider) (unused : p.users = 0)
      (number : s.nextProvider ≠ maxUInt64) : Act .quiet s (s.addProvider p)
  | eraseProvider {s : State} (r : Registration) (p : Provider) (there : s.providers[r]? = some p)
      (unused : p.users = 0) (inactive : s.providerActive r = 0) :
      Act .quiet s { s with providers := s.providers.erase r }
  | bindProvider {s : State} (a : Addr) (r : Registration) (p : Provider) (acquired : Bool)
      (candidate : s.preparing = some a) (loading : s.state a = .loading) (loaded : s.vm a = true)
      (there : s.providers[r]? = some p) (unbound : r ∉ s.providersOf a)
      (first : acquired = decide (s.serviceUsers p.service p.version = 0)) :
      Act .managing s (s.bindProvider a r p acquired)
  | freeProvider {s : State} (a : Addr) (r : Registration) (p : Provider) (released : Bool)
      (still : s.Still a) (there : s.providers[r]? = some p) (bound : r ∈ s.providersOf a)
      (inactive : s.providerActive r = 0)
      (last : released = decide (s.serviceUsers p.service p.version = 1)) :
      Act (.cleaning a) s (s.freeProvider a r p released)
  -- native menus
  | skipSession {s : State} : Act .quiet s { s with nextSession := s.nextSession + 1 }
  | openNative {s : State} (slot : Int) (d : NativeDisplay) (acquired : Bool)
      (free : s.nativeDisplays[slot]? = none) (dark : s.displays[slot]? = none)
      (session : d.session = s.nextSession) (there : d.player.slot = slot)
      (filled : d.menu.items ≠ []) (top : d.menu.selected = 0)
      (fresh : d.callback = true ∧ d.active = false ∧ d.closing = false ∧ d.cleared = false)
      (first : acquired = decide (s.serviceUsers d.service d.version = 0)) :
      Act .quiet s (s.openNative slot d acquired)
  | markNative {s : State} (slot : Int) (d d' : NativeDisplay)
      (there : s.nativeDisplays[slot]? = some d) (marked : Marked s.now d d') :
      Act .quiet s (s.setNative slot d')
  | chose {s : State} (slot : Int) (d : NativeDisplay) (index : Nat) (expires : Int)
      (there : s.nativeDisplays[slot]? = some d) (inTime : s.now < expires)
      (opened : d.closing = false)
      (enabled : ∃ item, d.menu.items[index]? = some item ∧ item.enabled = true) :
      Act .quiet s (s.note (.chose d.session index expires s.now))
  | selectNative {s : State} (slot : Int) (d : NativeDisplay) (index : Nat) (current : Player)
      (there : s.nativeDisplays[slot]? = some d) (chosen : s.Chosen d index)
      (closing : d.closing = true)
      (cleared : d.cleared = true) (idle : d.active = false) (callback : d.callback = true)
      (same : current.sameConnection d.player = true)
      (permitted : s.permissions.allows current d.menu.permission = true) :
      Act .quiet s (s.selectNative slot d index (some current))
  | returnNative {s : State} (slot : Int) (d : NativeDisplay)
      (there : s.nativeDisplays[slot]? = some d) (active : d.active = true) :
      Act .quiet s (s.setNative slot { d with active := false })
  | closeNative {s : State} (slot : Int) (d : NativeDisplay) (released : Bool)
      (there : s.nativeDisplays[slot]? = some d) (idle : d.active = false)
      (closing : d.closing = true)
      (last : released = decide (s.serviceUsers d.service d.version = 1)) :
      Act .quiet s (s.closeNative slot d released)
  -- script menus
  | addDisplay {s : State} (a : Addr) (id handle : HandleId) (player : Player) (timeout : Int)
      (menu : ScriptMenu) (running : s.state a = .running) (loaded : s.vm a = true)
      (free : s.displays[player.slot]? = none) (dark : s.nativeDisplays[player.slot]? = none)
      (live : s.menu id (s.owner a) = some menu) (filled : menu.menu.items ≠ [])
      (unshown : s.shows a id = false) :
      Act .quiet s (s.addDisplay a id handle player timeout)
  | expire {s : State} (slot : Int) (d : Display) (expires : Int)
      (there : s.displays[slot]? = some d) :
      Act .quiet s (s.setDisplay slot { d with expires })
  | closeMenu {s : State} (slot : Int) (d : Display) (value : Resource) (handles : Handles Resource)
      (there : s.displays[slot]? = some d)
      (removed : s.handles.remove d.menu (s.owner d.script) MenuType = .ok (value, handles)) :
      Act .quiet s (s.closeMenu slot handles)
  | clearDisplays {s : State} : Act .quiet s { s with displays := ∅ }
  -- handles
  | addHandle {s : State} (a : Addr) (value : Resource) (id : HandleId) (handles : Handles Resource)
      (making : s.Making a) (loaded : s.vm a = true)
      (plain : (∃ player, value = .player player) ∨ (∃ file, value = .configFile file) ∨
        ∃ menu : ScriptMenu, value = .menu menu ∧ menu.menu.items = [] ∧ menu.menu.selected = 0)
      (added : s.handles.add (s.owner a) value.type value = .ok (id, handles)) :
      Act .quiet s { s with handles }
  | addTimer {s : State} (a : Addr) (timer : Timer) (delay : Int) (id : HandleId)
      (handles : Handles Resource) (making : s.Making a) (loaded : s.vm a = true)
      (positive : 0 < delay)
      (due : timer.due = s.now + delay) (serial : timer.serial = s.nextTimer)
      (target : timer.target = 0 ∨
        timer.acrossMaps = false ∧ ∃ player, s.player timer.target (s.owner a) = some player)
      (added : s.handles.add (s.owner a) TimerType (.timer timer) = .ok (id, handles)) :
      Act .quiet s (s.addTimer a handles delay)
  | createResource {s : State} (a : Addr) (r : Registration) (p : Provider) (type : Nat)
      (value : ExtensionValue) (id : HandleId) (handles : Handles Resource) (making : s.Making a)
      (bound : r ∈ s.providersOf a) (there : s.providers[r]? = some p) (owned : value.owned = true)
      (added : s.handles.add (s.owner a) ExtensionType
        (.extension { provider := p.owner, type, holder := s.freshValue }) = .ok (id, handles)) :
      Act .quiet s (s.createResource a r handles value)
  | removeHandle {s : State} (a : Addr) (id : HandleId) (type : Nat) (value : Resource)
      (handles : Handles Resource) (plain : type ≠ ConVarType)
      (hidden : type = MenuType →
        ∀ (slot : Int) (d : Display), s.displays[slot]? = some d → d.menu ≠ id)
      (removed : s.handles.remove id (s.owner a) type = .ok (value, handles)) :
      Act .quiet s (s.detached handles [value])
  | retirePlayers {s : State} (a : Addr) :
      Act .quiet s (s.detached (s.handles.retire (s.owner a) PlayerType).2
        (s.handles.retire (s.owner a) PlayerType).1)
  | retireMenus {s : State} (a : Addr)
      (undisplayed : ∀ (slot : Int) (d : Display), s.displays[slot]? = some d → d.script ≠ a) :
      Act .quiet s (s.detached (s.handles.retire (s.owner a) MenuType).2
        (s.handles.retire (s.owner a) MenuType).1)
  | retireResources {s : State} (a : Addr) (still : s.Still a) :
      Act (.cleaning a) s
        (s.detached (s.handles.retire (s.owner a) ExtensionType).2
          (s.handles.retire (s.owner a) ExtensionType).1)
  | sweep {s : State} (a : Addr) (still : s.Still a) : Act (.cleaning a) s (s.sweep a)
  | retireRest {s : State} (a : Addr) (still : s.Still a) (swept : s.swept a = true)
      (undisplayed : ∀ (slot : Int) (d : Display), s.displays[slot]? = some d → d.script ≠ a) :
      Act (.cleaning a) s (s.detached (s.handles.retire (s.owner a) 0).2
        (s.handles.retire (s.owner a) 0).1)
  | destroy {s : State} (h : Nat) : Act .quiet s (s.destroy h)
  | putMenu {s : State} (a : Addr) (id : HandleId) (before after : ScriptMenu)
      (there : s.menu id (s.owner a) = some before)
      (inside : after.menu.selected < after.menu.items.length) :
      Act .quiet s { s with handles := s.handles.put id (.menu after) }
  | putFile {s : State} (a : Addr) (id : HandleId) (before after : ConfigFile)
      (there : s.handles.get id (s.owner a) ConfigFileType = .ok (.configFile before)) :
      Act .quiet s { s with handles := s.handles.put id (.configFile after) }
  | putTimer {s : State} (a : Addr) (id : HandleId) (timer : Timer) (elapsed : Int)
      (there : s.timer id (s.owner a) = some timer) :
      Act .managing s
        { s with handles := s.handles.put id (.timer { timer with due := timer.due + elapsed }) }
  | fired {s : State} (a : Addr) (id : HandleId) (timer : Timer) (running : s.state a = .running)
      (live : s.timer id (s.owner a) = some timer) (due : timer.due ≤ s.now) :
      Act .quiet s (s.note (.fired timer.serial a (s.ran a)))
  -- commands, events, ConVars
  | addCommand {s : State} (a : Addr) (name : String) (command : Command) (registered : Bool)
      (making : s.Making a) (loaded : s.vm a = true) (unowned : name ∉ s.commandsOf a)
      (ours : ∀ owners, s.commands[name]? = some owners →
        ∀ b ∈ owners, (s.manifest b).id = (s.manifest a).id)
      (first : registered = decide (name ∉ s.commands)) :
      Act .quiet s (s.addCommand a name command registered)
  | putCommand {s : State} (a : Addr) (name : String) (command : Command)
      (active : s.active a ≠ 0) (owned : name ∈ s.commandsOf a) :
      Act .quiet s { s with
        commandsOf := Function.update s.commandsOf a ((s.commandsOf a).insert name command) }
  | dropCommand {s : State} (a : Addr) (name : String) (owners : Finset Addr) (removed : Bool)
      (still : s.Still a) (owned : name ∈ s.commandsOf a) (there : s.commands[name]? = some owners)
      (last : removed = decide (owners.card = 1)) :
      Act (.cleaning a) s (s.dropCommand a name owners removed)
  | addEvent {s : State} (a : Addr) (name : String) (callback : Function) (registered : Bool)
      (making : s.Making a) (loaded : s.vm a = true) (unowned : name ∉ s.eventsOf a)
      (first : registered = decide (name ∉ s.events)) :
      Act .quiet s (s.addEvent a name callback registered)
  | dropEvent {s : State} (a : Addr) (name : String) (owners : Finset Addr) (removed : Bool)
      (still : s.Still a) (owned : name ∈ s.eventsOf a) (there : s.events[name]? = some owners)
      (last : removed = decide (owners.card = 1)) :
      Act (.cleaning a) s (s.dropEvent a name owners removed)
  /-- The handle and the entry come together: nobody else runs between the two. -/
  | addConVar {s : State} (a : Addr) (definition : ConVarDefinition) (id : HandleId)
      (handles : Handles Resource) (v : Variable) (created : Bool) (making : s.Making a)
      (loaded : s.vm a = true) (unowned : definition.name ∉ s.convarsOf a)
      (ours : ∀ b ∈ v.owners, (s.manifest b).id = (s.manifest a).id)
      (same : v.definition = definition)
      (known : if created then s.convars[definition.name]? = none ∧ v.owners = ∅
        else s.convars[definition.name]? = some v)
      (added : s.handles.add (s.owner a) ConVarType (.conVar definition.name) = .ok (id, handles)) :
      Act .quiet s (State.addConVar { s with handles } a definition id v created)
  /-- A ConVar that the host did not create: its handle comes and goes. -/
  | flashConVar {s : State} (a : Addr) (name : String) (id : HandleId)
      (handles left : Handles Resource) (making : s.Making a)
      (added : s.handles.add (s.owner a) ConVarType (.conVar name) = .ok (id, handles))
      (removed : handles.remove id (s.owner a) ConVarType = .ok (.conVar name, left)) :
      Act .quiet s { s with handles := left }
  /-- The entry and the handle go together, if the handle is still there. -/
  | dropConVar {s : State} {k : Kind} (a : Addr) (name : String) (id : HandleId) (v : Variable)
      (released : Bool) (handles : Handles Resource)
      (permit : s.Permit a k) (owned : (s.convarsOf a)[name]? = some id)
      (there : s.convars[name]? = some v)
      (last : released = decide (v.owners.card = 1 ∧ v.native ≠ 0))
      (removed : (∃ value, s.handles.remove id (s.owner a) ConVarType = .ok (value, handles)) ∨
        (∀ value, s.handles.look id ≠ some { owner := s.owner a, type := ConVarType, value }) ∧
          handles = s.handles) :
      Act k s { s.dropConVar a name v released with handles }
  -- callbacks
  | capture {s : State} (a : Addr) (r : Registration) (p : Provider) (function : Function)
      (making : s.Making a) (loaded : s.vm a = true) (bound : r ∈ s.providersOf a)
      (there : s.providers[r]? = some p) (token : s.nextCallback ≠ 0) :
      Act .quiet s (s.capture a p.owner function)
  | cancel {s : State} (token : Token) (callback : ExtensionCallback)
      (there : s.callbacks[token]? = some callback) : Act .quiet s (s.cancel token callback)
  | retain {s : State} (token : Token) (callback : ExtensionCallback)
      (there : s.callbacks[token]? = some callback) : Act .quiet s (s.retain token callback)
  | run {s : State} (token : Token) (callback : ExtensionCallback) (oneShot : Bool)
      (there : s.callbacks[token]? = some callback) (running : s.state callback.script = .running)
      (unmanaged : s.managing = false) (kind : oneShot = !callback.persistent) :
      Act .quiet s (s.note (.run token callback.provider callback.script oneShot))
  | dropCallbacks {s : State} (a : Addr) (still : s.Still a) :
      Act (.cleaning a) s (s.dropCallbacks a)
  | status {s : State} (provider : PluginHandle) (owner : Nat) :
      Act .quiet s
        (s.note (.status provider owner (s.consumerStatus provider owner) (s.settled owner)))
  -- gags
  | setGag {s : State} (a : Addr) (player : Player) (running : s.state a = .running) :
      Act .quiet s { s with
        gagsOf := Function.update s.gagsOf a ((s.gagsOf a).insert player.slot player) }
  | eraseGag {s : State} (a : Addr) (slot : Int) :
      Act .quiet s { s with gagsOf := Function.update s.gagsOf a ((s.gagsOf a).erase slot) }
  | clearGags {s : State} (a : Addr) :
      Act .quiet s { s with gagsOf := Function.update s.gagsOf a ∅ }
  -- cleanup
  | beginCleanup {s : State} (a : Addr) (loading : s.state a ≠ .loading)
      (running : s.state a ≠ .running) (paused : s.state a ≠ .paused) :
      Act .managing s (s.beginCleanup a)
  | stopNotify {s : State} (a : Addr) (still : s.Still a) :
      Act (.cleaning a) s (s.setStopNotified a)
  | resetVm {s : State} (a : Addr) (still : s.Still a) (bare : s.Bare a) :
      Act (.cleaning a) s (s.resetVm a)
  -- management
  | manage {s : State} (free : s.managing = false) : Act .managing s { s with managing := true }
  | unmanage {s : State} (managing : s.managing = true) (settled : s.preparing = none) :
      Act .managing s { s with managing := false }
  | prepare {s : State} (m : Manifest) (path : Path) (managing : s.managing = true)
      (settled : s.preparing = none) (owners : s.nextOwner ≠ maxUInt64)
      (accepted : m.accepted path = true) :
      Act .managing s (s.prepare m path)
  | loadVm {s : State} (a : Addr) (candidate : s.preparing = some a)
      (loading : s.state a = .loading) (unloaded : s.vm a = false) : Act .managing s (s.loadVm a)
  | giveUp {s : State} (a : Addr) (candidate : s.preparing = some a) (inactive : s.active a = 0) :
      Act .managing s ((s.setState a .retiring).setStopNotified a)
  | failCandidate {s : State} (a : Addr) (candidate : s.preparing = some a)
      (unloaded : s.vm a = false) : Act .managing s (s.setState a .failed)
  | dropCandidate {s : State} (a : Addr) (candidate : s.preparing = some a)
      (unloaded : s.vm a = false) (settled : s.state a ≠ .loading) :
      Act .managing s { s with preparing := none }
  | place {s : State} (a : Addr) (ready : Bool) (candidate : s.preparing = some a)
      (inactive : s.active a = 0) (replaceable : s.replaceable (s.manifest a).id = true)
      (loaded : ready = true → s.vm a = true) (kind : ready = decide (s.state a = .loading)) :
      Act .managing s (s.place a ready)
  | placeRecord {s : State} (id : String) (m : Manifest) (path : Path) (state : PluginState)
      (managing : s.managing = true) (named : m.id = id) (free : s.slots[id]? = none)
      (unloaded : state = .failed ∨ state = .disabled) :
      Act .managing s (s.placeRecord id m path state)
  | rewriteRecord {s : State} (id : String) (slot : Slot) (m : Manifest) (path : Path)
      (managing : s.managing = true) (there : s.slots[id]? = some slot) (named : m.id = id)
      (unloaded : s.vm slot.current = false) (single : slot.replacement = none) :
      Act .managing s (s.rewriteRecord slot.current m path)
  | retire {s : State} (a : Addr) (managing : s.managing = true) (placed : s.Placed a) :
      Act .managing s (s.setState a .retiring)
  | disable {s : State} (a : Addr) (managing : s.managing = true) (current : s.Current a)
      (unloaded : s.vm a = false) : Act .managing s (s.setState a .disabled)
  | dropReplacement {s : State} (id : String) (slot : Slot) (b : Addr)
      (managing : s.managing = true) (there : s.slots[id]? = some slot)
      (staged : slot.replacement = some b) (unloaded : s.vm b = false) :
      Act .managing s (s.setSlot id { slot with replacement := none })
  | replacementState {s : State} (id : String) (slot : Slot) (state : PluginState)
      (managing : s.managing = true) (there : s.slots[id]? = some slot)
      (kind : state = .paused ∨ state = .running) (single : slot.replacement = none) :
      Act .managing s (s.setSlot id { slot with replacementState := state })
  | retireCandidate {s : State} (a : Addr) (candidate : s.preparing = some a) :
      Act .managing s (s.setState a .retiring)
  | stage {s : State} (id : String) (slot : Slot) (a : Addr) (candidate : s.preparing = some a)
      (there : s.slots[id]? = some slot) (single : slot.replacement = none)
      (named : s.state a = .loading → (s.manifest a).id = id) (inactive : s.active a = 0)
      (loaded : s.state a = .loading → s.vm a = true) : Act .managing s (s.stage id slot a)
  | swap {s : State} (id : String) (slot : Slot) (b : Addr) (managing : s.managing = true)
      (there : s.slots[id]? = some slot) (staged : slot.replacement = some b)
      (loading : s.state b = .loading) (inactive : s.active slot.current = 0)
      (unloaded : s.vm slot.current = false) : Act .managing s (s.swap id slot b)
  | pause {s : State} (a : Addr) (managing : s.managing = true) (current : s.Current a)
      (running : s.state a = .running) (inactive : s.active a = 0) : Act .managing s (s.pauseAt a)
  | resume {s : State} (a : Addr) (managing : s.managing = true) (current : s.Current a)
      (paused : s.state a = .paused) : Act .managing s (s.setState a .running)

end Source2Root.Foundation
