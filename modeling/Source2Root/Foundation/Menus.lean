import Source2Root.Foundation.Code

/-!
# Menus on the screens of players

Script menus (`displays_`) and menus of extensions (`native_displays_`): how
they are opened, cleared and closed, what a button does, and what a tick does
to them.  A loop over one of the tables only ever erases the entry it is at.
-/

set_option autoImplicit false

namespace Source2Root.Foundation

open Reentrant

/-! ## Closing -/

/-- The screen is cleared, unless it is already; `none` when that has to be
tried again, otherwise the selection that is left, and the player seen. -/
def clearNative (slot : Int) (d : NativeDisplay) (selected : Option Nat) :
    M (Option (Option Nat × Option Player)) := do
  if d.cleared then return some (selected, none)
  let r ← reply
  if r.result = .notFound ∨ (r.result = .ok ∧ !r.player.sameConnection d.player) then
    modify (·.setNative slot { d with cleared := true })
    return some (none, none)
  if r.result ≠ .ok then return none
  if (← host) ≠ .ok then return none
  modify (·.setNative slot { d with cleared := true })
  if (← get).permissions.allows r.player d.menu.permission then
    return some (selected, some r.player)
  else return some (none, some r.player)

/-- The callback of the record runs, once. -/
def selectNative (slot : Int) (d : NativeDisplay) (index : Nat) (seen : Option Player) :
    M Unit := do
  modify (·.selectNative slot d index seen)
  let _ ← Code.enter
  let after ← expect .nativeDisplay (← get).nativeDisplays[slot]?
  modify (·.setNative slot { after with active := false })

/-- The record goes, with its share of the lease. -/
def releaseNative (slot : Int) : M Bool := do
  let s ← get
  let d ← expect .nativeDisplay s.nativeDisplays[slot]?
  let users := s.serviceUsers d.service d.version
  if users = 1 then
    modify (·.note (.release d.service d.version users))
    if (← host) ≠ .ok then return false
  modify (·.closeNative slot d (users = 1))
  return true

/-- The rest of `CloseNativeDisplay` for a record that is marked as closing. -/
def finishNative (slot : Int) (d : NativeDisplay) (selected : Option Nat) : M Bool := do
  match ← clearNative slot d selected with
  | none => return false
  | some (left, seen) =>
      match left with
      | some index =>
          if d.callback then selectNative slot { d with cleared := true } index seen
      | none => pure ()
      releaseNative slot

/-- `CloseNativeDisplay`; a selection is an index into the items. -/
def closeNativeDisplay (slot : Int) (selected : Option Nat) : M Bool := do
  match (← get).nativeDisplays[slot]? with
  | none => return true
  | some d =>
      if d.active then return false
      let d := { d with closing := true }
      modify (·.setNative slot d)
      finishNative slot d selected

/-- The screen is not the manager's to clear. -/
def abandonNative (slot : Int) (d : NativeDisplay) : M Bool := do
  modify (·.setNative slot { d with cleared := true })
  closeNativeDisplay slot none

/-- The `retire` of `CloseDisplay`: the display and its menu go. -/
def retireDisplay (slot : Int) (d : Display) : M Unit := do
  let s ← get
  match s.handles.remove d.menu (s.owner d.script) MenuType with
  | .ok (_, handles) => modify (·.closeMenu slot handles)
  | .error _ => miss .menu

def closeDisplay (slot : Int) : M Bool := do
  if !(← closeNativeDisplay slot none) then return false
  match (← get).displays[slot]? with
  | none => return true
  | some d =>
      let r ← reply
      if r.result = .notFound ∨ (r.result = .ok ∧ !r.player.sameConnection d.player) then
        retireDisplay slot d
        return true
      if r.result ≠ .ok then return false
      if (← host) ≠ .ok then return false
      retireDisplay slot d
      return true

/-- The slots on which the script shows a menu. -/
def State.shownBy (s : State) (a : Addr) : List Int :=
  (s.displays.toList.filter fun (_, d) => d.script == a).map Prod.fst

def closeOwnedMenus (a : Addr) : M Unit := do
  ((← get).shownBy a).forM fun slot => do let _ ← closeDisplay slot

/-- `ClearMenus`. -/
def clearMenus (a : Addr) : M Bool := do
  closeOwnedMenus a
  return ((← get).shownBy a).isEmpty

/-! ## Menus of extensions -/

/-- What `OpenNativeMenu` is given. -/
structure MenuSpec where
  compatible : Bool := true
  title : String := ""
  permission : String := ""
  items : List MenuItem := []
  /-- A text is missing or too long, or an enabled flag is not a truth value. -/
  itemsValid : Bool := true
  service : String := ""
  version : Nat := 0
  callback : Bool := true
  timeout : Int := 0

def MenuSpec.valid (spec : MenuSpec) : Bool :=
  spec.items.length != 0 && spec.items.length ≤ 32 && spec.callback && spec.version != 0 &&
    spec.title.utf8ByteSize ≤ 96 && spec.title != "" && spec.permission.utf8ByteSize ≤ 96 &&
    validPermission spec.permission && spec.service != "" && spec.service.utf8ByteSize ≤ 96 &&
    250 ≤ spec.timeout && spec.timeout ≤ 120000

/-- The lease of a service, asked for when nobody used it so far. -/
def acquireProvider (service : String) (version users : Nat) : M KeelResult := do
  modify (·.note (.acquire service version users))
  host

/-- The screen of a menu that joined the table. -/
def renderNative (slot : Int) (session : Session) : M (KeelResult × Session) := do
  let result ← host
  if result ≠ .ok then
    let d ← expect .nativeDisplay (← get).nativeDisplays[slot]?
    if !(← abandonNative slot d) then return (result, session)
    return (result, 0)
  return (.ok, session)

/-- `OpenNativeMenu` for a connection, given by its generation; the record joins
the table once the lease is there. -/
def openNativeMenu (owner : PluginHandle) (generation : Nat) (spec : MenuSpec) :
    M (KeelResult × Session) := do
  if !spec.compatible then return (.incompatible, 0)
  if owner = 0 ∨ generation = 0 ∨ !spec.valid then return (.invalidArgument, 0)
  let r ← reply
  if r.result ≠ .ok then return (r.result, 0)
  let player := r.player
  if player.connection ≠ generation then return (.notFound, 0)
  if !(← get).permissions.allows player spec.permission then return (.notReady, 0)
  if (← get).nextSession = maxUInt64 then return (.busy, 0)
  if !spec.itemsValid then return (.invalidArgument, 0)
  if !(← closeDisplay player.slot) then return (.busy, 0)
  let s ← get
  let users := s.serviceUsers spec.service spec.version
  let timeout := milliseconds spec.timeout
  let d : NativeDisplay :=
    { session := s.nextSession, owner, player
      menu := { title := spec.title, permission := spec.permission
                items := spec.items.map fun item => { item with value := -1 } }
      service := spec.service, version := spec.version
      expires := s.now + timeout, timeout }
  if users = 0 then
    let result ← acquireProvider spec.service spec.version users
    if result ≠ .ok then
      modify fun s => { s with nextSession := s.nextSession + 1 }
      return (result, 0)
  modify (·.openNative player.slot d (users = 0))
  renderNative player.slot d.session

/-- `CloseNativeMenu`. -/
def closeNativeMenu (owner : PluginHandle) (session : Session) : M KeelResult := do
  match (← get).nativeDisplays.toList.find? (·.2.session == session) with
  | none => return .notFound
  | some (slot, d) =>
      if d.owner ≠ owner then return .invalidArgument
      if ← closeNativeDisplay slot none then return .ok
      return .busy

/-- `NativeMenuInput`. -/
def nativeMenuInput (player : Player) (session : Session) (input : MenuInput) : M Bool := do
  let s ← get
  match s.nativeDisplays[player.slot]? with
  | none => return false
  | some d =>
      if d.session ≠ session ∨ !d.player.sameConnection player ∨ d.active ∨ d.closing then
        return false
      let r ← reply
      if r.result ≠ .ok then return false
      if !r.player.sameConnection d.player ∨ d.expires ≤ s.now ∨
          !s.permissions.allows r.player d.menu.permission then
        let _ ← closeNativeDisplay player.slot none
        return false
      let (action, menu) := d.menu.input input
      modify (·.setNative player.slot { d with expires := s.now + d.timeout, menu })
      match action with
      | .cancelled => closeNativeDisplay player.slot none
      | .selected =>
          modify (·.note (.chose session menu.selected d.expires s.now))
          closeNativeDisplay player.slot (some menu.selected)
      | .changed =>
          if (← host) = .ok then return true
          if (← get).currentMenu player = session then
            let _ ← closeNativeDisplay player.slot none
          return false
      | .none => return false

/-- The body of the loop of `TickNativeMenus`. -/
def tickNative (slot : Int) : M Unit := do
  let s ← get
  match s.nativeDisplays[slot]? with
  | none => pure ()
  | some d =>
      if d.active then return
      if d.closing ∨ d.expires ≤ s.now then
        let _ ← closeNativeDisplay slot none
        return
      let r ← reply
      if r.result = .notFound ∨ (r.result = .ok ∧ !r.player.sameConnection d.player) then
        let _ ← abandonNative slot d
        return
      if r.result ≠ .ok then return
      if !s.permissions.allows r.player d.menu.permission then
        let _ ← closeNativeDisplay slot none
        return
      if (← host) ≠ .ok then
        let _ ← closeNativeDisplay slot none

def tickNativeMenus : M Unit := do
  (← get).nativeDisplays.keys.forM tickNative

/-! ## Menus of scripts -/

/-- What `MenuInput` does once the menu has taken the button. -/
def menuAction (player : Player) (session : Session) (d : Display) (menu : ScriptMenu)
    (action : MenuAction) (left : Menu) : M Bool := do
  putHandle d.menu (.menu { menu with menu := left })
  match action with
  | .cancelled => closeDisplay player.slot
  | .selected =>
      let _ ← expect .item left.items[left.selected]?
      if !(← closeDisplay player.slot) then return false
      return (← invoke d.script .selection).1
  | .changed =>
      if (← host) = .ok then return true
      if (← get).currentMenu player = session then
        let found ← expect .display (← get).displays[player.slot]?
        modify fun s => s.setDisplay player.slot { found with expires := s.now }
        let _ ← closeDisplay player.slot
      return false
  | .none => return false

/-- `MenuInput` for a menu that the record and the caller agree on. -/
def scriptMenuInput (player : Player) (session : Session) (input : MenuInput) (d : Display) :
    M Bool := do
  let s ← get
  if s.state d.script ≠ .running ∨ d.expires ≤ s.now then
    let _ ← closeDisplay player.slot
    return false
  let menu ← expect .menu (s.menu d.menu (s.owner d.script))
  if !(← allowed d.script d.playerHandle menu.menu.permission) then
    let _ ← closeDisplay player.slot
    return false
  let d := { d with expires := s.now + d.timeout }
  modify (·.setDisplay player.slot d)
  match input, menu.back with
  | .back, some _ =>
      modify (·.setDisplay player.slot { d with expires := s.now })
      if !(← closeDisplay player.slot) then return false
      return (← invoke d.script .back).1
  | _, _ =>
      let (action, left) := menu.menu.input input
      menuAction player session d menu action left

def menuInput (player : Player) (session : Session) (input : MenuInput) : M Bool := do
  let s ← get
  if s.nativeDisplays.contains player.slot then nativeMenuInput player session input
  else
    match s.displays[player.slot]? with
    | none => return false
    | some d =>
        if d.session ≠ session ∨ !d.player.sameConnection player then return false
        scriptMenuInput player session input d

/-- The players and sessions `PollMenuInput` reads buttons for. -/
def State.pollable (s : State) : List (Player × Session) :=
  ((s.displays.toList.filter fun (_, d) => s.state d.script == .running).map
      fun (_, d) => (d.player, d.session)) ++
    ((s.nativeDisplays.toList.filter fun (_, d) => !d.active && !d.closing).map
      fun (_, d) => (d.player, d.session))

/-- The body of the loop of `PollMenuInput`.  Which buttons mean what is fixed by
the host's header: the answer is the action they come to. -/
def pollOne (item : Player × Session) : M Unit := do
  let (player, session) := item
  if (← get).currentMenu player ≠ session then return
  let r ← reply
  match r.input with
  | some action => let _ ← menuInput player session action
  | none => pure ()

def pollMenuInput : M Unit := do
  (← get).pollable.forM pollOne

/-- The body of the loop over the displays in `Tick`. -/
def tickDisplay (slot : Int) : M Unit := do
  let s ← get
  match s.displays[slot]? with
  | none => pure ()
  | some d =>
      if d.expires ≤ s.now ∨ s.state d.script ≠ .running then
        let _ ← closeDisplay slot
        return
      let r ← reply
      if r.result = .notFound ∨ (r.result = .ok ∧ !r.player.sameConnection d.player) then
        retireDisplay slot d
        return
      if r.result ≠ .ok then return
      let menu ← expect .menu (s.menu d.menu (s.owner d.script))
      if !s.permissions.allows r.player menu.menu.permission then
        modify (·.setDisplay slot { d with expires := s.now })
        let _ ← closeDisplay slot
        return
      if (← host) ≠ .ok then
        modify (·.setDisplay slot { d with expires := s.now })
        let _ ← closeDisplay slot

def tickDisplays : M Unit := do
  (← get).displays.keys.forM tickDisplay

end Source2Root.Foundation
