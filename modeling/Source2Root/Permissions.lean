import Source2Root.Bans
import Source2Root.Identity
import Source2Root.KeyValues
import Source2Root.Loading

/-!
# Administrators and groups

`permissions.cpp`: the two configuration texts, the table of administrators they
make and what the table allows.  A player's permissions are those of the group of
the entry for the player's account.
-/

set_option autoImplicit false

namespace Source2Root.KeyValues

/-- One `KeyValue`. -/
inductive KeyValue where
  | value (name value : Text)
  | object (name : Text) (children : Entries)
deriving DecidableEq, Repr

def KeyValue.name : KeyValue → Text
  | .value name _ => name
  | .object name _ => name

/-- The entries one after the other. -/
def Entries.items : Entries → List KeyValue
  | .nil => []
  | .value name text rest => .value name text :: rest.items
  | .object name children rest => .object name children :: rest.items

/-- `children`; a value has none. -/
def KeyValue.children : KeyValue → List KeyValue
  | .value _ _ => []
  | .object _ children => children.items

def KeyValue.isObject : KeyValue → Bool
  | .value _ _ => false
  | .object _ _ => true

end Source2Root.KeyValues

namespace Source2Root.Admins

open KeyValues (KeyValue Entries forbidden)

/-! ## Names -/

def lowerByte (c : Char) : Char :=
  if 65 ≤ c.toNat ∧ c.toNat ≤ 90 then Char.ofNat (c.toNat + 32) else c

/-- `Lower`. -/
def lower (text : Text) : Text := text.map lowerByte

def permissionByte (c : Char) : Bool :=
  97 ≤ c.toNat && c.toNat ≤ 122 || 48 ≤ c.toNat && c.toNat ≤ 57 || c == '_' || c == '.' || c == '-'

/-- The loop of `ValidPermission`; `dot` is whether the last byte was one. -/
def permissionBytes (dot : Bool) : Text → Bool
  | [] => true
  | c :: rest => permissionByte c && !(c == '.' && dot) && permissionBytes (c == '.') rest

def validPermission (text : Text) : Bool :=
  if 96 < text.length then false
  else if text = [] then true
  else if text.head? = some '.' ∨ text.getLast? = some '.' then false
  else permissionBytes false text

/-- `std::from_chars` for an `int` that has to take the whole text. -/
def intFromChars : Text → Option Int
  | '-' :: digits =>
      if digits ≠ [] ∧ digits.all isDigit = true ∧ digitsValue digits ≤ 2 ^ 31 then
        some (-(digitsValue digits : Int))
      else none
  | digits =>
      if digits ≠ [] ∧ digits.all isDigit = true ∧ digitsValue digits < 2 ^ 31 then
        some (digitsValue digits)
      else none

/-! ## Reading the texts -/

/-- What opening and reading a file gives: its content, or what the system says. -/
abbrev Reading := Except String Text

def readKeyValues (file : String) : Reading → Except String Entries
  | .ok content => KeyValues.readFile file content
  | .error what => .error (file ++ ": " ++ what)

/-- `Root`. -/
def root (file name : String) (reading : Reading) : Except Text (List KeyValue) :=
  match readKeyValues file reading with
  | .error e => .error e.toList
  | .ok entries =>
      match entries.items with
      | [.object entry children] =>
          if lower entry = lower name.toList then .ok children.items
          else .error (file ++ " must contain one " ++ name ++ " object").toList
      | _ => .error (file ++ " must contain one " ++ name ++ " object").toList

abbrev Fields := List (Text × KeyValue)

/-- A child as a field, if there is a field of this name. -/
def readField (entry : Text) (allowed : List Text) (child : KeyValue) :
    Except Text (Text × KeyValue) :=
  if allowed.contains (lower child.name) then .ok (lower child.name, child)
  else .error (entry ++ ": unknown field ".toList ++ child.name)

def repeatedField (entry : Text) (child : KeyValue) (_ : Text) : Text :=
  entry ++ ": duplicate field ".toList ++ child.name

/-- `Properties`. -/
def properties (entry : KeyValue) (allowed : List Text) : Except Text Fields :=
  if !entry.isObject then .error (entry.name ++ " must be an object".toList)
  else Loading.load (readField entry.name allowed) (repeatedField entry.name) none entry.children

/-- `Scalar`. -/
def scalar (fields : Fields) (name : String) : Except Text Text :=
  match fields.lookup name.toList with
  | none => .error ("missing field " ++ name).toList
  | some (.object _ _) => .error (name ++ " must be a string value").toList
  | some (.value _ value) => .ok value

/-- `ImmunityValue`. -/
def immunityValue (fields : Fields) (fallback : Int) : Except Text Int :=
  match fields.lookup "immunity".toList with
  | none => .ok fallback
  | some _ =>
      match scalar fields "immunity" with
      | .error e => .error e
      | .ok text =>
          match intFromChars text with
          | none => .error "immunity must be an integer from 0 to 2147483647".toList
          | some value =>
              if value < 0 then .error "immunity must be an integer from 0 to 2147483647".toList
              else .ok value

/-! ## Groups -/

structure Group where
  name : Text
  permissions : List Text
  immunity : Int
  root : Bool
deriving DecidableEq, Repr

abbrev Groups := List (Text × Group)

/-- A permission with the value 1. -/
def readPermission (entry : Text) : KeyValue → Except Text (Text × Unit)
  | .object _ _ => .error (entry ++ ": each named permission must have value 1".toList)
  | .value name value =>
      if name = [] ∨ validPermission name = false ∨ value ≠ ['1'] then
        .error (entry ++ ": each named permission must have value 1".toList)
      else .ok (name, ())

def repeatedPermission (entry : Text) (permission : KeyValue) (_ : Text) : Text :=
  entry ++ ": duplicate permission ".toList ++ permission.name

/-- The permissions a group lists. -/
def listed (entry : Text) (fields : Fields) : Except Text (List Text) :=
  match fields.lookup "permissions".toList with
  | none => .ok []
  | some (.value _ _) => .error (entry ++ ": permissions must be an object".toList)
  | some (.object _ children) =>
      (Loading.load (readPermission entry) (repeatedPermission entry) none children.items).map
        fun permissions => permissions.map Prod.fst

def printable (text : Text) : Bool := !text.any forbidden

/-- An entry of the group file, with the name to find it by. -/
def readGroup (entry : KeyValue) : Except Text (Text × Group) :=
  let key := lower entry.name
  if key = [] ∨ 64 < key.length ∨ printable key = false then
    .error "group names accept 1..64 printable bytes".toList
  else
    match properties entry ["immunity".toList, "permissions".toList] with
    | .error e => .error e
    | .ok fields =>
        match immunityValue fields 0 with
        | .error e => .error e
        | .ok immunity =>
            match listed entry.name fields with
            | .error e => .error e
            | .ok permissions =>
                .ok (key, { name := entry.name, permissions, immunity, root := key = "root".toList })

def repeatedGroup (entry : KeyValue) (_ : Text) : Text := "duplicate group name: ".toList ++ entry.name

def readGroups (entries : List KeyValue) : Except Text Groups :=
  Loading.load readGroup repeatedGroup
    (some (128, "administrator configuration exceeds 128 groups".toList)) entries

/-! ## Administrators -/

structure Admin where
  label : Text
  group : Text
  permissions : List Text
  immunity : Int
  root : Bool
deriving DecidableEq, Repr

abbrev Table := List (Nat × Admin)

/-- An entry of the administrator file, with the account it is for. -/
def readAdmin (groups : Groups) (entry : KeyValue) : Except Text (Nat × Admin) :=
  if 128 < entry.name.length ∨ printable entry.name = false then
    .error "administrator label accepts at most 128 printable bytes".toList
  else
    match properties entry ["identity".toList, "group".toList, "immunity".toList] with
    | .error e => .error e
    | .ok fields =>
        match scalar fields "identity" with
        | .error e => .error e
        | .ok text =>
            match parseSteamIdentity text with
            | .error e => .error e.toList
            | .ok identity =>
                match scalar fields "group" with
                | .error e => .error e
                | .ok name =>
                    match groups.lookup (lower name) with
                    | none => .error (entry.name ++ ": unknown administrator group".toList)
                    | some group =>
                        match immunityValue fields group.immunity with
                        | .error e => .error e
                        | .ok immunity =>
                            .ok (identity, { label := entry.name, group := group.name,
                                             permissions := group.permissions, immunity,
                                             root := group.root })

def repeatedAdmin (_ : KeyValue) (identity : Nat) : Text :=
  "duplicate administrator identity: ".toList ++ decimal identity

def readAdmins (groups : Groups) (entries : List KeyValue) : Except Text Table :=
  Loading.load (readAdmin groups) repeatedAdmin
    (some (4096, "administrator configuration exceeds 4096 administrators".toList)) entries

/-! ## The table in force -/

/-- The directory of the two files: which are there and what reading them gives.
`legacy` is whether one of the files of the earlier format is there. -/
structure Directory where
  admins : Option Reading
  groups : Option Reading
  legacy : Bool := false

structure Permissions where
  admins : Table := []
deriving DecidableEq, Repr

/-- `Permissions::Load`. -/
def Permissions.load (p : Permissions) (directory : Directory) : Permissions × Except Text Unit :=
  match directory.admins, directory.groups with
  | none, none =>
      if directory.legacy then
        (p, .error ("legacy administrator configuration requires migration to admins.cfg and " ++
          "admin_groups.cfg").toList)
      else ({ p with admins := [] }, .ok ())
  | some admin_file, some group_file =>
      match root "admin_groups.cfg" "Groups" group_file with
      | .error e => (p, .error e)
      | .ok group_entries =>
          match readGroups group_entries with
          | .error e => (p, .error e)
          | .ok groups =>
              match root "admins.cfg" "Admins" admin_file with
              | .error e => (p, .error e)
              | .ok admin_entries =>
                  match readAdmins groups admin_entries with
                  | .error e => (p, .error e)
                  | .ok admins => ({ p with admins }, .ok ())
  | _, _ => (p, .error "admins.cfg and admin_groups.cfg must both be present".toList)

/-- `Authenticated`. -/
def authenticated (player : Player) : Bool :=
  0 ≤ player.slot && player.connection != 0 && player.authenticated && !player.bot &&
    validSteamIdentity player.steamId

def Permissions.find (p : Permissions) (player : Player) : Option Admin :=
  if authenticated player then p.admins.lookup player.steamId else none

def Permissions.immunity (p : Permissions) (player : Player) : Int :=
  match p.find player with
  | some admin => admin.immunity
  | none => 0

def Permissions.allows (p : Permissions) (player : Player) (permission : Text) : Bool :=
  if !validPermission permission then false
  else if permission = [] then true
  else
    match p.find player with
    | some admin => admin.root || admin.permissions.contains permission
    | none => false

/-- `CanTarget`; no caller is the server console. -/
def Permissions.canTarget (p : Permissions) (caller : Option Player) (target : Player)
    (permission : Text) : Bool :=
  if !validPermission permission || target.slot < 0 || target.connection == 0 then false
  else
    match caller with
    | none => true
    | some caller =>
        if !authenticated caller || !p.allows caller permission then false
        else if !target.bot && !authenticated target then false
        else if caller.sameConnection target && caller.steamId == target.steamId then true
        else p.immunity target < p.immunity caller

def Permissions.canTargetIdentity (p : Permissions) (caller : Option Player) (target : Nat)
    (permission : Text) : Bool :=
  if !validPermission permission || !validSteamIdentity target then false
  else
    match caller with
    | none => true
    | some caller =>
        if !authenticated caller || !p.allows caller permission then false
        else if caller.steamId == target then true
        else
          let target_immunity :=
            match p.admins.lookup target with
            | some admin => admin.immunity
            | none => 0
          target_immunity < p.immunity caller

end Source2Root.Admins
