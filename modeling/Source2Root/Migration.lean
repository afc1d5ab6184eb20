import Source2Root.Permissions
import Source2Root.Python.Json

/-!
# The migration of earlier administrator files

`migrate_admins.py`: an administrator file of one of the two earlier formats, read as
JSON, becomes the two configuration texts of the core.  A `str` is the list of its code
points.  What the tool refuses with an exception is `none`.
-/

set_option autoImplicit false

namespace Source2Root.Python

mutual

/-- Every `str` of the value has an encoding. -/
def Value.encodable : Value → Bool
  | .string text => (encode text).isSome
  | .array items => encodableItems items
  | .object members => encodableMembers members
  | .null | .boolean _ | .integer _ | .number _ _ => true

def Value.encodableItems : List Value → Bool
  | [] => true
  | v :: rest => v.encodable && encodableItems rest

def Value.encodableMembers : Value.Members → Bool
  | [] => true
  | m :: rest => encodableMember m && encodableMembers rest

def Value.encodableMember : Str × Value → Bool
  | (key, v) => (encode key).isSome && v.encodable

end

end Source2Root.Python

namespace Source2Root.Migration

open Python

/-! ## The pieces -/

/-- `BASE`. -/
def individualBase : Nat := 76561197960265728

def commandNames : List Str :=
  ["help", "admin", "who", "reloadadmins", "kick", "ban", "unban", "slap", "slay", "mute", "unmute",
    "gag", "ungag", "silence", "unsilence", "say", "map", "restart"].map str

def renamed (name : Str) : Str :=
  if name = str "admin" then str "menu" else if name = str "map" then str "changemap" else name

/-- `COMMAND_PERMISSIONS`. -/
def commandPermissions : List (Str × Str) :=
  commandNames.map fun name => (name, str "admin." ++ renamed name)

def lowerPoint (c : Nat) : Nat := if 65 ≤ c ∧ c ≤ 90 then c + 32 else c

def lower (value : Str) : Str := value.map lowerPoint

/-- `int` of decimal digits; of more than 4300 it is refused. -/
def number (digits : Str) : Option Nat :=
  if digits ≠ [] ∧ digits.all Python.isDigit = true ∧ digits.length ≤ 4300 then some (intOf digits)
  else none

/-- What `identity` reads before it checks the range. -/
def account (value : Str) : Option Nat :=
  if (str "STEAM_").isPrefixOf value then
    match value.drop 6 with
    | realm :: first :: parity :: second :: half =>
        if (realm = 48 ∨ realm = 49) ∧ first = 58 ∧ (parity = 48 ∨ parity = 49) ∧ second = 58 then
          (number half).map fun half => individualBase + (half * 2 + (parity - 48))
        else none
    | _ => none
  else if (str "[U:1:").isPrefixOf value then
    if value.getLast? = some 93 then
      (number (value.drop 5).dropLast).map fun account => individualBase + account
    else none
  else number value

/-- `identity`; its text is the decimal one of this. -/
def identity : Option Value → Option Nat
  | some (.string value) =>
      (account value).bind fun result =>
        if individualBase < result ∧ result ≤ individualBase + 0xffffffff then some result else none
  | _ => none

def control (c : Nat) : Bool := c < 32 || c == 127

/-- `text`. -/
def text (value : Option Value) (limit : Nat) : Option Str :=
  match value with
  | some (.string s) =>
      (encode s).bind fun bytes =>
        if s ≠ [] ∧ bytes.length ≤ limit ∧ s.any control = false then some s else none
  | _ => none

/-- `immunity`. -/
def immunity : Value → Option Nat
  | .integer n => if 0 ≤ n ∧ n ≤ 2147483647 then some n.toNat else none
  | _ => none

def nameUnit (c : Nat) : Bool :=
  97 ≤ c && c ≤ 122 || 48 ≤ c && c ≤ 57 || c == 95 || c == 45

/-- `named_permission`: names with a point between each two of them. -/
def namedPermission : Value → Option Str
  | .string s =>
      if s.length ≤ 96 ∧ (s.splitOn 46).all (fun name => name ≠ [] && name.all nameUnit) = true then
        some s
      else none
  | _ => none

/-- `sorted(set(values))`. -/
def sortedSet (values : List Str) : List Str :=
  values.dedup.mergeSort fun a b => decide (a ≤ b)

/-- The items of a `dict` with other keys than these. -/
def without (keys : List Str) (members : Value.Members) : Value.Members :=
  members.filter fun item => !keys.contains item.1

/-- `extra[key] = unknown`, where there is anything unknown. -/
def unconverted (key : Str) (unknown extra : Value.Members) : Value.Members :=
  if unknown = [] then extra else Dict.assign key (.object unknown) extra

/-! ## What is read -/

/-- `(name, immunity, permissions)`. -/
structure Group where
  name : Str
  immunity : Nat
  permissions : List Str
deriving DecidableEq, Repr

/-- `(label, account, group, level)`. -/
structure Admin where
  label : Str
  account : Nat
  group : Str
  immunity : Nat
deriving DecidableEq, Repr

/-- `groups`, by their keys in the order of insertion. -/
abbrev Groups := List (Str × Group)

/-- `read`. -/
def read (raw : Text) (maximum : Nat) : Option Value.Members :=
  if raw.length > maximum then none
  else
    (decode raw).bind fun decoded =>
      (loads (if decoded.head? = some 0xfeff then decoded.tail else decoded)).bind fun data =>
        match data with
        | .object members =>
            match Dict.find (str "schema") members with
            | some (.integer 1) => some members
            | _ => none
        | _ => none

/-- What one value of a group of the native format grants. -/
def commandPermission : Value → Option (List Str)
  | .string value =>
      if value = str "*" then some (commandPermissions.map Prod.snd)
      else (commandPermissions.lookup value).map fun permission => [permission]
  | _ => none

/-- The group that an item of `data["groups"]` is. -/
def readGroup (item : Str × Value) : Option Group :=
  match item.2 with
  | .object group =>
      match Dict.find (str "permissions") group with
      | some (.array values) =>
          (text (some (.string item.1)) 64).bind fun name =>
            (values.mapM commandPermission).bind fun permissions =>
              (immunity ((Dict.find (str "immunity") group).getD (.integer 0))).map fun level =>
                { name, immunity := level, permissions := sortedSet permissions.flatten }
      | _ => none
  | _ => none

/-- One round of the loop over `data["groups"]`. -/
def addGroup (groups : Groups) (item : Str × Value) : Option Groups :=
  (readGroup item).bind fun group =>
    if groups.lookup (lower item.1) = none then some (groups ++ [(lower item.1, group)]) else none

/-- What of the groups is not converted. -/
def groupExtra (extra : Value.Members) : Str × Value → Value.Members
  | (name, .object group) =>
      unconverted (str "groups/" ++ name)
        (without [str "permissions", str "immunity"] group) extra
  | _ => extra

def mapName : Value → Option Str
  | .string s =>
      if 1 ≤ s.length ∧ s.length ≤ 64 ∧
          s.all (fun c => 97 ≤ c && c ≤ 122 || 48 ≤ c && c ≤ 57 || c == 95) = true then some s
      else none
  | _ => none

/-- `converted`: the activity that is shown, and the maps. -/
structure Converted where
  activity : Nat := 13
  maps : List Str := []
deriving DecidableEq, Repr

/-- The settings of the native format. -/
def readConverted (data : Value.Members) : Option Converted :=
  match (Dict.find (str "announce_actions") data).getD (.boolean true),
      (Dict.find (str "allowed_maps") data).getD (.array []) with
  | .boolean announce, .array maps =>
      if maps.length > 1024 then none
      else (maps.mapM mapName).map fun maps => { activity := if announce then 13 else 0, maps }
  | _, _ => none

/-- What the loop over the entries keeps. -/
structure Progress where
  groups : Groups := []
  admins : List Admin := []
  imported : List (List Str × Str) := []
  extra : Value.Members := []

/-- The group of an entry of the native format. -/
def namedGroup (p : Progress) (entry : Value.Members) : Option (Progress × Group) :=
  (text (Dict.find (str "group") entry) 64).bind fun name =>
    (p.groups.lookup (lower name)).map fun group => (p, group)

def importedName (account : Nat) : Str := str "imported_" ++ Python.decimal account

/-- `groups.setdefault`. -/
def Progress.setDefault (p : Progress) (name : Str) (permissions : List Str) : Progress × Group :=
  match p.groups.lookup name with
  | some group => (p, group)
  | none =>
      ({ p with groups := p.groups ++ [(name, { name, immunity := 0, permissions })] },
        { name, immunity := 0, permissions })

/-- The group that stands for these permissions, for an entry of this account. -/
def Progress.importGroup (p : Progress) (account : Nat) (permissions : List Str) :
    Progress × Group :=
  match p.imported.lookup permissions with
  | some name => p.setDefault name permissions
  | none =>
      { p with imported := p.imported ++ [(permissions, importedName account)] }.setDefault
        (importedName account) permissions

/-- The group of an entry of the other format. -/
def permittedGroup (p : Progress) (account : Nat) (entry : Value.Members) :
    Option (Progress × Group) :=
  match Dict.find (str "permissions") entry with
  | some (.array values) =>
      (values.mapM namedPermission).map fun names => p.importGroup account (sortedSet names)
  | _ => none

def identityKey (native : Bool) : Str := if native then str "steamid" else str "identity"

/-- The administrator that an entry makes, in a group. -/
def readAdmin (account : Nat) (group : Group) (entry : Value.Members) : Option Admin :=
  (text (some ((Dict.find (str "name") entry).getD (.string (Python.decimal account)))) 128).bind
    fun label =>
      (immunity ((Dict.find (str "immunity") entry).getD (.integer group.immunity))).map
        fun level => { label, account, group := group.name, immunity := level }

def entryExtra (native : Bool) (index : Nat) (entry extra : Value.Members) : Value.Members :=
  unconverted (str "admins/" ++ Python.decimal index)
    (without (if native then [str "steamid", str "group", str "immunity", str "name"]
      else [str "identity", str "permissions", str "immunity", str "name"]) entry) extra

/-- One round of the loop over `data["admins"]`. -/
def addEntry (native : Bool) (p : Progress) : Value → Option Progress
  | .object entry =>
      (identity (Dict.find (identityKey native) entry)).bind fun account =>
        if p.admins.any (fun admin => admin.account == account) then none
        else
          (if native then namedGroup p entry else permittedGroup p account entry).bind
            fun (p, group) =>
              (readAdmin account group entry).map fun admin =>
                { p with
                  admins := p.admins ++ [admin]
                  extra := entryExtra native p.admins.length entry p.extra }
  | _ => none

structure Outcome where
  converted : Converted
  groups : List Group
  admins : List Admin
deriving DecidableEq, Repr

/-- `sorted(groups.values())`: no two have one name. -/
def sortedGroups (groups : Groups) : List Group :=
  (groups.map Prod.snd).mergeSort fun a b => decide (a.name ≤ b.name)

/-- Where the loop over the entries starts. -/
def start (data : Value.Members) : Option (Converted × Progress) :=
  match Dict.find (str "groups") data with
  | none => some ({}, { extra := without [str "schema", str "groups", str "admins"] data })
  | some (.object items) =>
      (readConverted data).bind fun converted =>
        (items.foldlM addGroup []).map fun groups =>
          (converted, { groups, extra := items.foldl groupExtra (without [str "schema",
            str "groups", str "admins", str "announce_actions", str "allowed_maps"] data) })
  | some _ => none

def native (data : Value.Members) : Bool := (Dict.find (str "groups") data).isSome

/-- `prepare` of what was read, up to what it writes; what is not converted has to have
an encoding. -/
def convert (data : Value.Members) (entries : List Value) : Option Outcome :=
  if entries.length > 4096 then none
  else
    (start data).bind fun (converted, p) =>
      (entries.foldlM (addEntry (native data)) p).bind fun p =>
        if p.groups.length > 128 ∨ Value.encodableMembers p.extra = false then none
        else some { converted, groups := sortedGroups p.groups, admins := p.admins }

/-! ## What is written -/

/-- `quote`: two replacements. -/
def quote (value : Str) : Str :=
  let slashes := value.flatMap fun c => if c = 92 then [92, 92] else [c]
  34 :: (slashes.flatMap (fun c => if c = 34 then [92, 34] else [c]) ++ [34])

def indent (n : Nat) (line : Str) : Str := List.replicate n 32 ++ line

def Group.lines (group : Group) : List Str :=
  indent 4 (quote group.name) :: indent 4 (str "\x7b") ::
    indent 8 (str "\"immunity\" " ++ quote (Python.decimal group.immunity)) ::
    ((if lower group.name ≠ str "root" ∧ group.permissions ≠ [] then
        indent 8 (str "\"permissions\"") :: indent 8 (str "\x7b") ::
          (group.permissions.map (fun value => indent 12 (quote value ++ str " \"1\"")) ++
            [indent 8 (str "\x7d")])
      else []) ++ [indent 4 (str "\x7d")])

def Admin.lines (admin : Admin) : List Str :=
  [indent 4 (quote admin.label), indent 4 (str "\x7b"),
    indent 8 (str "\"identity\" " ++ quote (Python.decimal admin.account)),
    indent 8 (str "\"group\" " ++ quote admin.group),
    indent 8 (str "\"immunity\" " ++ quote (Python.decimal admin.immunity)), indent 4 (str "\x7d")]

/-- `"\n".join`. -/
def joinLines (lines : List Str) : Str := List.intercalate [10] lines

def Outcome.groupText (m : Outcome) : Str :=
  joinLines (str "\"Groups\"" :: str "\x7b" :: (m.groups.flatMap Group.lines ++ [str "\x7d", []]))

def Outcome.adminText (m : Outcome) : Str :=
  joinLines (str "\"Admins\"" :: str "\x7b" :: (m.admins.flatMap Admin.lines ++ [str "\x7d", []]))

def Outcome.mapText (m : Outcome) : Str := joinLines m.converted.maps ++ [10]

def Outcome.settingsText (m : Outcome) : Str :=
  str "sr_show_activity " ++ Python.decimal m.converted.activity ++ str
    "\nsr_chat_public_trigger \"!\"\nsr_chat_silent_trigger \"/\"\nsr_debug 0\n"

/-- The files that the core and its plugins read. -/
structure Files where
  admins : Text
  groups : Text
  maps : Text
  settings : Text
deriving DecidableEq, Repr

def Outcome.files (m : Outcome) : Option Files :=
  (encode m.adminText).bind fun admins => (encode m.groupText).bind fun groups =>
    (encode m.mapText).bind fun maps => (encode m.settingsText).map fun settings =>
      { admins, groups, maps, settings }

/-- The `entries` of an administrator file. -/
def entriesOf (data : Value.Members) : Option (List Value) :=
  match Dict.find (str "admins") data with
  | some (.array entries) => some entries
  | _ => none

/-- `prepare` of an administrator file with this content. -/
def prepare (raw : Text) : Option Files :=
  (read raw (1024 * 1024)).bind fun data => (entriesOf data).bind fun entries =>
    (convert data entries).bind Outcome.files

end Source2Root.Migration
