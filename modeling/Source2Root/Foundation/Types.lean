import Source2Root.Handles
import Source2Root.Voice

/-!
# The records of the plugin manager

The types `sr::Foundation` keeps in its tables, with the pure functions on them.
A `Script` object is known by its address, a function of a script and a plugin
of the host by a number.  Texts that nothing decides on (names, titles of log
lines, help) are left out; times are nanoseconds of the steady clock.
-/

set_option autoImplicit false

namespace Source2Root.Foundation

/-- A `Script*`; an address is not used again. -/
abbrev Addr := Nat

/-- A `SourcePawn::IPluginFunction*` that is not null. -/
abbrev Function := Nat

/-- `KeelPluginHandle`; zero is nobody. -/
abbrev PluginHandle := Nat

abbrev Registration := Nat

abbrev Token := Nat

abbrev Session := Nat

def maxUInt64 : Nat := 2 ^ 64 - 1

def milliseconds (count : Int) : Int := count * 1000000

/-! ## Identifiers, permissions -/

def lowerOrDigit (c : Char) : Bool := ('a' ≤ c && c ≤ 'z') || ('0' ≤ c && c ≤ '9')

def validIdentifier (text : String) : Bool :=
  text.toList ≠ [] && text.toList.length ≤ 64 &&
    text.toList.all fun c => lowerOrDigit c || c == '_' || c == '-'

/-- No two dots in a row. -/
def dotted : List Char → Bool
  | '.' :: '.' :: _ => false
  | _ :: rest => dotted rest
  | [] => true

def validPermission (text : String) : Bool :=
  let chars := text.toList
  chars.length ≤ 96 && (chars == [] ||
    (chars.head? != some '.' && chars.getLast? != some '.' && dotted chars &&
      chars.all fun c => lowerOrDigit c || c == '_' || c == '.' || c == '-'))

def individualBase : Nat := 76561197960265728

def validSteamIdentity (value : Nat) : Bool :=
  individualBase < value && value ≤ individualBase + (2 ^ 32 - 1)

structure Admin where
  permissions : Finset String := ∅
  root : Bool := false

structure Permissions where
  admins : Std.ExtTreeMap Nat Admin := ∅

def authenticated (player : Player) : Bool :=
  0 ≤ player.slot && player.connection != 0 && player.authenticated && !player.bot &&
    validSteamIdentity player.steamId

def Permissions.find (p : Permissions) (player : Player) : Option Admin :=
  if authenticated player then p.admins[player.steamId]? else none

def Permissions.allows (p : Permissions) (player : Player) (permission : String) : Bool :=
  if !validPermission permission then false
  else if permission = "" then true
  else
    match p.find player with
    | some admin => admin.root || decide (permission ∈ admin.permissions)
    | none => false

/-! ## Manifests -/

inductive PluginState where
  | loading
  | running
  | retiring
  | disabled
  | failed
  | paused
deriving DecidableEq, Repr

/-- What `Version` reads from a text. -/
structure Version where
  major : Nat := 0
  minor : Nat := 0
  patch : Nat := 0
deriving DecidableEq, Repr

/-- `std::array`'s `operator<`. -/
def Version.before (v w : Version) : Bool :=
  if v.major ≠ w.major then v.major < w.major
  else if v.minor ≠ w.minor then v.minor < w.minor
  else v.patch < w.patch

structure Manifest where
  id : String := ""
  version : Version := {}
  source : String := ""
  enabled : Bool := true
  dependencies : Std.ExtTreeMap String Version := ∅

/-- The path of a manifest: the directory it is in, and where that is. -/
structure Path where
  place : String := ""
  directory : String := ""
deriving DecidableEq, Repr

/-- The checks of `Manifest::Read` that later decisions rest on. -/
def Manifest.accepted (m : Manifest) (path : Path) : Bool :=
  validIdentifier m.id && path.directory == m.id && !m.dependencies.contains m.id

/-! ## Menus -/

structure MenuItem where
  text : String := ""
  enabled : Bool := true
  value : Int := -1
deriving DecidableEq, Repr

inductive MenuInput where
  | up
  | down
  | select
  | back
deriving DecidableEq, Repr

inductive MenuAction where
  | none
  | changed
  | selected
  | cancelled
deriving DecidableEq, Repr

structure Menu where
  title : String := ""
  permission : String := ""
  items : List MenuItem := []
  selected : Nat := 0
deriving DecidableEq, Repr

def Menu.itemsPerPage : Nat := 3

/-- `Menu::Input`; the action, and the menu it leaves. -/
def Menu.input (menu : Menu) (input : MenuInput) : MenuAction × Menu :=
  if menu.items.isEmpty then (if input = .back then .cancelled else .none, menu)
  else
    let selected := min menu.selected (menu.items.length - 1)
    let menu := { menu with selected }
    match input with
    | .select =>
        (if (menu.items[selected]?.map MenuItem.enabled).getD false then .selected else .none, menu)
    | .back =>
        if selected / Menu.itemsPerPage = 0 then (.cancelled, menu)
        else
          (.changed,
            { menu with selected := (selected / Menu.itemsPerPage - 1) * Menu.itemsPerPage })
    | .up =>
        (.changed,
          { menu with selected := if selected = 0 then menu.items.length - 1 else selected - 1 })
    | .down => (.changed, { menu with selected := (selected + 1) % menu.items.length })

theorem Menu.input_items (menu : Menu) (input : MenuInput) :
    (menu.input input).2.items = menu.items := by
  unfold Menu.input
  split
  · rfl
  · cases input with
    | up => rfl
    | down => rfl
    | select => rfl
    | back =>
        simp only
        split <;> rfl

theorem Menu.input_permission (menu : Menu) (input : MenuInput) :
    (menu.input input).2.permission = menu.permission := by
  unfold Menu.input
  split
  · rfl
  · cases input with
    | up => rfl
    | down => rfl
    | select => rfl
    | back =>
        simp only
        split <;> rfl

/-- The selected index stays inside the list. -/
theorem Menu.input_selected {menu : Menu} (filled : menu.items ≠ []) (input : MenuInput) :
    (menu.input input).2.selected < menu.items.length := by
  have positive := List.length_pos_iff.mpr filled
  have empty : menu.items.isEmpty = false := by simpa using filled
  unfold Menu.input
  rw [if_neg (by simp [empty])]
  cases input with
  | up =>
      simp only
      split <;> omega
  | down => exact Nat.mod_lt _ positive
  | select =>
      simp only
      omega
  | back =>
      simp only
      split
      · simp only
        omega
      · simp only [Menu.itemsPerPage]
        omega

/-- A selection is of an enabled item. -/
theorem Menu.input_enabled {menu : Menu} {input : MenuInput}
    (selected : (menu.input input).1 = .selected) :
    ∃ item, menu.items[(menu.input input).2.selected]? = some item ∧ item.enabled = true := by
  unfold Menu.input at selected ⊢
  by_cases empty : menu.items.isEmpty = true
  · rw [if_pos empty] at selected
    split at selected <;> simp at selected
  · rw [if_neg empty] at selected ⊢
    cases input with
    | up => simp at selected
    | down => simp at selected
    | back =>
        simp only at selected
        split at selected <;> simp at selected
    | select =>
        simp only at selected ⊢
        cases there : menu.items[min menu.selected (menu.items.length - 1)]? with
        | none => simp [there] at selected
        | some item =>
            refine ⟨item, rfl, ?_⟩
            by_cases enabled : item.enabled = true
            · exact enabled
            · simp [there, enabled] at selected

/-! ## What scripts own -/

/-- `serial` numbers the timers in the order of their creation; the source has
no such number. -/
structure Timer where
  due : Int
  callback : Function
  target : HandleId
  acrossMaps : Bool := false
  serial : Nat := 0
deriving DecidableEq, Repr

structure ScriptMenu where
  menu : Menu
  callback : Function
  back : Option Function := none
deriving DecidableEq, Repr

structure ConfigFile where
  text : List Char := []
  cursor : Nat := 0
deriving DecidableEq, Repr

/-- `holder` is the address of the `ExtensionValue`. -/
structure ExtensionResource where
  provider : PluginHandle
  type : Nat
  holder : Nat
deriving DecidableEq, Repr

inductive Resource where
  | player (player : Player)
  | timer (timer : Timer)
  | menu (menu : ScriptMenu)
  | conVar (name : String)
  | configFile (file : ConfigFile)
  | extension (resource : ExtensionResource)
deriving DecidableEq, Repr

instance : Inhabited Resource := ⟨.player {}⟩

def PlayerType : Nat := 1
def TimerType : Nat := 2
def MenuType : Nat := 3
def ConVarType : Nat := 4
def ConfigFileType : Nat := 5
def ExtensionType : Nat := 6

/-- The type number a value of this kind is kept under. -/
def Resource.type : Resource → Nat
  | .player _ => PlayerType
  | .timer _ => TimerType
  | .menu _ => MenuType
  | .conVar _ => ConVarType
  | .configFile _ => ConfigFileType
  | .extension _ => ExtensionType

/-- `ExtensionValue`. -/
structure ExtensionValue where
  data : Nat := 0
  destroy : Function := 0
  owned : Bool := false
deriving DecidableEq, Repr

structure Command where
  permission : String
  callback : Function
  usage : String
  menu : Option Function := none
deriving DecidableEq, Repr

/-- A value of a ConVar; a float is its bits. -/
inductive ConVarValue where
  | cell (value : Int)
  | float (bits : BitVec 32)
  | string (value : String)
deriving DecidableEq, Repr

structure ConVarDefinition where
  name : String
  description : String := ""
  initial : ConVarValue
  minimum : ConVarValue
  maximum : ConVarValue
deriving DecidableEq, Repr

structure Variable where
  definition : ConVarDefinition
  native : Nat := 0
  owners : Finset Addr := ∅

/-- `users` is stored, as in the source; how often the provider is being called
is kept with the calls themselves. -/
structure Provider where
  owner : PluginHandle
  name : String
  service : String
  version : Nat
  argc : Nat := 0
  users : Nat := 0
  contextual : Bool := false
deriving DecidableEq, Repr

structure ExtensionCallback where
  script : Addr
  provider : PluginHandle
  function : Function
  persistent : Bool := false
deriving DecidableEq, Repr

structure Display where
  session : Session
  script : Addr
  menu : HandleId
  playerHandle : HandleId
  player : Player
  expires : Int
  timeout : Int
deriving DecidableEq, Repr

/-- `callback` is false once it has been taken out of the record. -/
structure NativeDisplay where
  session : Session
  owner : PluginHandle
  player : Player
  menu : Menu
  service : String
  version : Nat
  callback : Bool := true
  expires : Int
  timeout : Int
  active : Bool := false
  closing : Bool := false
  cleared : Bool := false
deriving DecidableEq, Repr

structure Slot where
  current : Addr
  replacement : Option Addr := none
  replacementState : PluginState := .running
deriving DecidableEq, Repr

structure PendingMap where
  owner : Nat
  plugin : String
  name : String
deriving DecidableEq, Repr

end Source2Root.Foundation
