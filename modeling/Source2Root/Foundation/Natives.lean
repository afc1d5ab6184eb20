import Source2Root.Foundation.Players
import Source2Root.Settings

/-!
# The natives that scripts call

Every native is given what its arguments decode to; a native whose arguments do
not decode does nothing.  Natives that only read and answer are left out.
-/

set_option autoImplicit false

namespace Source2Root.Foundation

open Reentrant

/-! ## Commands, events -/

/-- The name is owned by another plugin. -/
def State.foreign (s : State) (owners : Finset Addr) (a : Addr) : Bool :=
  decide (∃ b ∈ owners, (s.manifest b).id ≠ (s.manifest a).id)

def control (c : Char) : Bool := c.toNat < 32 || c.toNat == 127

def validCommand (name permission : String) : Bool :=
  name.startsWith "sr_" && validIdentifier name && 4 ≤ name.toList.length &&
    validPermission permission

def validUsage (name usage : String) : Bool :=
  (usage == "" || usage == name || usage.startsWith (name ++ " ")) && !usage.toList.any control

def registerCommand (a : Addr) (name permission : String) (callback : Function) (usage : String) :
    M Bool := do
  limit a
  if !validCommand name permission then throw .nativeError
  if !validUsage name usage then throw .nativeError
  let s ← get
  if (s.commandsOf a).contains name then return false
  let command : Command := { permission, callback, usage := if usage = "" then name else usage }
  match s.commands[name]? with
  | some owners =>
      if s.foreign owners a then return false
      modify (·.addCommand a name command false)
      return true
  | none =>
      if (← host) ≠ .ok then return false
      modify (·.addCommand a name command true)
      return true

def listenEvent (a : Addr) (name : String) (callback : Function) : M Bool := do
  limit a
  if name ≠ "round_start" then throw .nativeError
  let s ← get
  if (s.eventsOf a).contains name then return false
  if s.events.contains name then
    modify (·.addEvent a name callback false)
    return true
  if (← host) ≠ .ok then return false
  modify (·.addEvent a name callback true)
  return true

/-- `SetCommandMenu`. -/
def setCommandMenu (a : Addr) (name : String) (callback : Function) : M Bool := do
  let s ← get
  if s.state a ≠ .loading ∧ s.state a ≠ .running then return false
  match (s.commandsOf a)[name]? with
  | none => return false
  | some command =>
      modify fun s => { s with
        commandsOf := Function.update s.commandsOf a
          ((s.commandsOf a).insert name { command with menu := some callback }) }
      return true

/-- `CommandOwner`: a running owner of the command. -/
def State.commandOwner (s : State) (name : String) : Option Addr :=
  match s.commands[name]? with
  | some owners => (owners.sort (· ≤ ·)).find? fun a => s.state a == .running
  | none => none

/-- `OpenCommandMenu`. -/
def openCommandMenu (a : Addr) (handle : HandleId) (name : String) : M Bool := do
  if (← get).state a ≠ .running then return false
  if handle = 0 then return false
  match ← resolvePlayer a handle with
  | .error _ => return false
  | .ok caller =>
      let s ← get
      match s.commandOwner name with
      | none => return false
      | some owner =>
          let command ← expect .command (s.commandsOf owner)[name]?
          if command.menu.isNone then return false
          if !s.permissions.allows caller command.permission then return false
          if s.menuCallDepth ≥ 8 then return false
          let _ ← playerHandle owner caller
          modify fun s => { s with menuCallDepth := s.menuCallDepth + 1 }
          let (success, _) ← invoke owner (.commandMenu name)
          modify fun s => { s with menuCallDepth := s.menuCallDepth - 1 }
          return success

/-! ## Timers -/

/-- A timer joins the table. -/
def State.addTimer (s : State) (a : Addr) (handles : Handles Resource) (delay : Int) : State :=
  { s with
    handles
    nextTimer := s.nextTimer + 1
    journal := s.journal ++ [.timerCreated s.nextTimer a delay (s.ran a)] }

/-- The target of a timer, when it is to have one, is a player who is there. -/
def targetThere (a : Addr) (target : HandleId) : M Bool := do
  if target = 0 then return true
  match ← resolvePlayer a target with
  | .ok _ => return true
  | .error _ => return false

def createTimer (a : Addr) (count : Int) (callback : Function) (target : HandleId)
    (acrossMaps : Int) : M HandleId := do
  limit a
  if count < 1 ∨ count > 3600000 then throw .nativeError
  if !(← targetThere a target) then return 0
  if (acrossMaps ≠ 0 ∧ acrossMaps ≠ 1) ∨ (acrossMaps ≠ 0 ∧ target ≠ 0) then throw .nativeError
  let s ← get
  let delay := milliseconds count
  let timer : Timer :=
    { due := s.now + delay, callback, target, acrossMaps := acrossMaps == 1
      serial := s.nextTimer }
  match s.handles.add (s.owner a) TimerType (.timer timer) with
  | .ok (id, handles) =>
      modify (·.addTimer a handles delay)
      return id
  | .error _ => throw .runtimeError

def cancelTimer (a : Addr) (id : HandleId) : M Unit := do
  removeHandle id ((← get).owner a) TimerType

/-! ## Menus -/

def createMenu (a : Addr) (title permission : String) (callback : Function)
    (back : Option Function) : M HandleId := do
  limit a
  if title = "" ∨ !validPermission permission then throw .nativeError
  addHandle ((← get).owner a) (.menu { menu := { title, permission }, callback, back })

def getMenu (a : Addr) (id : HandleId) : M ScriptMenu := do
  match ← getHandle id ((← get).owner a) MenuType with
  | .menu menu => return menu
  | _ => throw .runtimeError

/-- The script shows this menu to somebody. -/
def State.shows (s : State) (a : Addr) (id : HandleId) : Bool :=
  s.displays.toList.any fun (_, d) => d.script == a && d.menu == id

def addMenuItem (a : Addr) (id : HandleId) (text : String) (enabled value : Int) : M Unit := do
  let menu ← getMenu a id
  if menu.menu.items.length ≥ 128 then throw .nativeError
  if (← get).shows a id then throw .nativeError
  if text = "" ∨ (enabled ≠ 0 ∧ enabled ≠ 1) then throw .nativeError
  if value < -1 then throw .nativeError
  let items := menu.menu.items ++ [{ text, enabled := enabled == 1, value }]
  putHandle id (.menu { menu with menu := { menu.menu with items } })

/-- The display of a menu that was just rendered. -/
def State.addDisplay (s : State) (a : Addr) (id handle : HandleId) (player : Player)
    (timeout : Int) : State :=
  let d : Display :=
    { session := s.nextSession, script := a, menu := id, playerHandle := handle, player
      expires := s.now + timeout, timeout }
  { s with
    nextSession := s.nextSession + 1
    displays := s.displays.insertIfNew player.slot d
    journal := s.journal ++ [.opened s.nextSession player false] }

def showMenu (a : Addr) (id handle : HandleId) (timeout : Int) : M Bool := do
  limit a
  let menu ← getMenu a id
  match ← resolvePlayer a handle with
  | .error _ => return false
  | .ok player =>
      if !(← allowed a handle menu.menu.permission) then return false
      if timeout < 250 ∨ timeout > 120000 ∨ menu.menu.items.isEmpty then throw .nativeError
      if (← get).shows a id then throw .nativeError
      if (← get).state a ≠ .running then return false
      if !(← closeDisplay player.slot) then return false
      if (← get).nextSession = maxUInt64 then throw .nativeError
      putHandle id (.menu { menu with menu := { menu.menu with selected := 0 } })
      if (← host) ≠ .ok then return false
      modify (·.addDisplay a id handle player (milliseconds timeout))
      return true

/-- The displays of a menu are closed one after the other, up to the first that
cannot be. -/
def closeDisplays : List Int → M Bool
  | [] => return true
  | slot :: rest => do
      if !(← closeDisplay slot) then return false
      closeDisplays rest

def closeMenu (a : Addr) (id : HandleId) : M Bool := do
  let _ ← getMenu a id
  let s ← get
  let shown := (s.displays.toList.filter fun (_, d) => d.script == a && d.menu == id).map Prod.fst
  if !(← closeDisplays shown) then return false
  if (← get).handles.contains id (s.owner a) MenuType then removeHandle id (s.owner a) MenuType
  return true

/-! ## ConVars -/

/-- The order of finite floats, by their bits. -/
def floatKey (bits : BitVec 32) : Int :=
  let magnitude : Int := ((bits.toNat % 2 ^ 31 : Nat) : Int)
  if bits.toNat < 2 ^ 31 then magnitude else -magnitude

def finiteFloat (bits : BitVec 32) : Bool := bits.toNat / 2 ^ 23 % 2 ^ 8 != 255

/-- `ValidateConVar` accepts the definition. -/
def ConVarDefinition.valid (d : ConVarDefinition) : Bool :=
  d.name.startsWith "sr_" && 4 ≤ d.name.toList.length && validIdentifier d.name &&
    d.description.utf8ByteSize ≤ 512 &&
    match d.initial, d.minimum, d.maximum with
    | .string text, _, _ => text.utf8ByteSize ≤ 512
    | .float value, .float minimum, .float maximum =>
        finiteFloat value && finiteFloat minimum && finiteFloat maximum &&
          floatKey minimum ≤ floatKey value && floatKey value ≤ floatKey maximum
    | .cell value, .cell minimum, .cell maximum => minimum ≤ value && value ≤ maximum
    | _, _, _ => false

def createConVar (a : Addr) (definition : ConVarDefinition) : M HandleId := do
  limit a
  if !definition.valid then throw .nativeError
  let s ← get
  let name := definition.name
  if (s.convarsOf a).contains name then return 0
  match s.convars[name]? with
  | some v =>
      if s.foreign v.owners a then return 0
      if v.definition ≠ definition then return 0
      let handle ← addHandle (s.owner a) (.conVar name)
      modify (·.addConVar a definition handle v false)
      return handle
  | none =>
      let handle ← addHandle (s.owner a) (.conVar name)
      let r ← reply
      if r.result ≠ .ok then
        removeHandle handle (s.owner a) ConVarType
        return 0
      modify (·.addConVar a definition handle { definition, native := r.native } true)
      return handle

def getConVar (a : Addr) (handle : HandleId) : M String := do
  match ← getHandle handle ((← get).owner a) ConVarType with
  | .conVar name => return name
  | _ => throw .runtimeError

def ConVarValue.sameKind : ConVarValue → ConVarValue → Bool
  | .cell _, .cell _ => true
  | .float _, .float _ => true
  | .string _, .string _ => true
  | _, _ => false

/-- `WriteConVar`; the engine may act on the new value before it answers. -/
def writeConVar (a : Addr) (handle : HandleId) (value : ConVarValue) : M Bool := do
  let name ← getConVar a handle
  let s ← get
  let v ← expect .variable s.convars[name]?
  if s.state a ≠ .running then return false
  if !value.sameKind v.definition.initial then return false
  match value with
  | .float bits => if !finiteFloat bits then throw .nativeError
  | .string text => if text.utf8ByteSize > 512 then throw .nativeError
  | .cell _ => pure ()
  let r ← Code.enter
  return r.result = .ok

/-- The native `CloseConVar`. -/
def closeConVarNative (a : Addr) (handle : HandleId) : M Bool := do
  closeConVar a (← getConVar a handle)

/-! ## Players, communication, the server -/

/-- An order to the engine about a player; the engine may act on it before it
answers. -/
def playerAction (a : Addr) (handle : HandleId) : M Bool := do
  if (← get).state a ≠ .running then return false
  match ← resolvePlayer a handle with
  | .error _ => return false
  | .ok _ => return (← Code.enter).result = .ok

/-- `GetPlayers` and `FindTargets`: the host's list of players, or a choice from it. -/
def findTargets (a : Addr) (capacity : Int) : M (Except String (List HandleId)) := do
  makePlayerHandles a (← reply).players capacity

def setPlayerMuted (a : Addr) (handle : HandleId) (muted : Bool) : M Bool := do
  if (← get).state a ≠ .running then return false
  match ← resolvePlayer a handle with
  | .error _ => return false
  | .ok player => voiceCall (Voice.set ((← get).owner a) player muted)

def setPlayerGagged (a : Addr) (handle : HandleId) (gagged : Bool) : M Bool := do
  if (← get).state a ≠ .running then return false
  match ← resolvePlayer a handle with
  | .error _ => return false
  | .ok player =>
      modify fun s => { s with
        gagsOf := Function.update s.gagsOf a
          (if gagged then (s.gagsOf a).insert player.slot player
          else (s.gagsOf a).erase player.slot) }
      return true

def validMapName (name : String) : Bool :=
  name != "" && name.toList.length ≤ 64 && name.toList.all fun c => lowerOrDigit c || c == '_'

/-- The native `ChangeMap`: the change waits for the next tick. -/
def changeMap (a : Addr) (name : String) : M Bool := do
  if (← get).state a ≠ .running then return false
  if !validMapName name then return false
  if (← get).pendingMap.isSome then return false
  let r ← reply
  if r.result ≠ .ok ∨ !r.flag then return false
  modify (·.askMap a name)
  return true

def restartRound (a : Addr) (seconds : Int) : M Bool := do
  if (← get).state a ≠ .running then return false
  if seconds < 1 ∨ seconds > 60 then return false
  return (← Code.enter).result = .ok

/-- The loop of `Permissions::Load` is the environment's: the files give a table
or an error. -/
def reloadPermissions : M Unit := do
  match (← reply).permissions with
  | some permissions => modify fun s => { s with permissions }
  | none => throw .runtimeError

def reloadAdmins (a : Addr) (handle : HandleId) : M Bool := do
  if !(← allowed a handle "admin.reloadadmins") then return false
  tryCatch (do reloadPermissions; return true) fun _ => return false

/-! ## Settings -/

/-- The triggers as core settings; the level of debugging and what is shown of an activity
are not read here. -/
def State.settings (s : State) : Settings.CoreSettings :=
  { publicTrigger := s.publicTrigger, silentTrigger := s.silentTrigger }

def State.configure (s : State) (settings : Settings.CoreSettings) : State :=
  { s with publicTrigger := settings.publicTrigger, silentTrigger := settings.silentTrigger }

def setSetting (name value : List Char) : M Bool := do
  match (← get).settings.set name value with
  | .ok settings =>
      modify (·.configure settings)
      return true
  | .error _ => return false

def setSettings (values : Settings.Field → List Char) : M Bool := do
  match (← get).settings.setAll values with
  | .ok settings =>
      modify (·.configure settings)
      return true
  | .error _ => return false

/-! ## Configuration files -/

def validFileName (name : String) : Bool :=
  let chars := name.toList
  chars.head?.any (· != '.') && chars.length ≤ 64 && dotted chars &&
    chars.all fun c =>
      lowerOrDigit c || ('A' ≤ c && c ≤ 'Z') || c == '_' || c == '-' || c == '.'

def openConfigFile (a : Addr) (name : String) : M HandleId := do
  limit a
  if !validFileName name then return 0
  let s ← get
  if (s.handles.owned (s.owner a) ConfigFileType).length ≥ 8 then return 0
  let r ← reply
  if !r.flag then return 0
  match s.handles.add (s.owner a) ConfigFileType (.configFile { text := r.text }) with
  | .ok (id, handles) =>
      modify fun s => { s with handles }
      return id
  | .error _ => return 0

/-- The line at the cursor without its end, and where the next one starts. -/
def ConfigFile.line (file : ConfigFile) : List Char × Nat :=
  let rest := file.text.drop file.cursor
  let line := rest.takeWhile (· != '\n')
  let next := file.cursor + if line.length = rest.length then line.length else line.length + 1
  (if line.getLast? = some '\r' then line.dropLast else line, next)

/-- Zero at the end of the file, minus one when the line is too long. -/
def readConfigLine (a : Addr) (id : HandleId) (capacity : Nat) : M (Int × List Char) := do
  match ← getHandle id ((← get).owner a) ConfigFileType with
  | .configFile file =>
      if file.cursor = file.text.length then return (0, [])
      let (line, next) := file.line
      if line.length ≥ capacity then return (-1, [])
      putHandle id (.configFile { file with cursor := next })
      return (1, line)
  | _ => throw .runtimeError

def closeConfigFile (a : Addr) (id : HandleId) : M Unit := do
  removeHandle id ((← get).owner a) ConfigFileType

end Source2Root.Foundation
