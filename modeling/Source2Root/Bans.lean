import Mathlib
import Source2Root.Utc

/-!
# The ban store

`bans.cpp` with `identity.cpp`, on a POSIX system.  The JSON library is a
parameter.  What a file-system call answers is given in advance (`ReadReplies`,
`WriteReplies`); what it does to the ban file is modelled, so a file that was
written half-way is one.  A save edits the document of the file as it was read,
so the map, the remembered text and the file are three copies.
-/

set_option autoImplicit false

namespace Source2Root

/-! ## Steam identities -/

def IndividualBase : Nat := 76561197960265728

def validSteamIdentity (value : Nat) : Bool :=
  IndividualBase < value && value ≤ IndividualBase + 4294967295

def steamNumber (text : Text) : Except String Nat :=
  match fromChars text with
  | some n => .ok n
  | none => .error "invalid Steam identity number"

/-- `ParseSteamIdentity`, before the last check. -/
def readSteamIdentity (text : Text) : Except String Nat :=
  if "STEAM_".toList.isPrefixOf text then
    if text.length < 11 ∨ text[6]? ≠ some '0' ∧ text[6]? ≠ some '1' ∨ text[7]? ≠ some ':' ∨
        text[8]? ≠ some '0' ∧ text[8]? ≠ some '1' ∨ text[9]? ≠ some ':' then
      .error "expected STEAM_0:Y:Z or STEAM_1:Y:Z"
    else
      match steamNumber (text.drop 10) with
      | .error e => .error e
      | .ok half =>
          if half > 4294967295 / 2 then .error "Steam account ID overflow"
          else .ok (IndividualBase + half * 2 + if text[8]? = some '1' then 1 else 0)
  else if "[U:".toList.isPrefixOf text then
    if !"[U:1:".toList.isPrefixOf text || text.getLast? != some ']' then
      .error "expected [U:1:account]"
    else
      match steamNumber ((text.drop 5).take (text.length - 6)) with
      | .error e => .error e
      | .ok account =>
          if account > 4294967295 then .error "Steam account ID overflow"
          else .ok (IndividualBase + account)
  else steamNumber text

def parseSteamIdentity (text : Text) : Except String Nat :=
  match readSteamIdentity text with
  | .error e => .error e
  | .ok result =>
      if validSteamIdentity result then .ok result
      else .error "Steam identity must be an individual public account"

/-! ## Bans -/

structure Ban where
  account : Nat
  created : Timestamp
  expires : Option Timestamp := none
  reason : Text
  actor : Text
deriving DecidableEq, Repr

def Ban.active (ban : Ban) (now : Timestamp) : Bool :=
  match ban.expires with
  | none => true
  | some expires => now < expires

abbrev BanMap := Std.ExtTreeMap Nat Ban

/-- `SafeText`. -/
def safeText (text : Text) (maximum : Nat) : Bool :=
  text != [] && text.length ≤ maximum && text.all fun c => !(c.toNat < 32 || c.toNat == 127)

def knownActor (actor : Text) : Bool :=
  actor == "server".toList || (parseSteamIdentity actor).isOk

/-- The last check on an entry of the file. -/
def Ban.fine (ban : Ban) : Bool :=
  (match ban.expires with
    | none => true
    | some expires => ban.created < expires) &&
    safeText ban.reason 256 && knownActor ban.actor

namespace Bans

inductive Error where
  | inspect (status : String)
  | missingFile
  | oversizedFile
  | unreadableFile
  | readFailed
  | jsonSize
  | jsonNesting
  | repeatedKey (key : Text)
  | jsonSyntax
  | schema
  | steamIdNotString
  | account
  | utc (invalid : Utc.Invalid)
  | expiryReasonOrActor
  | repeatedAccount
  /-- An exception of the JSON library in `ParseBans`. -/
  | invalidData
  | request
  | expiryYears
  | full
  | requestAccount
  | notLoaded
  | changedExternally
  | encoding
  | fileSize
  | createDirectory (status : String)
  | createTemporary (status : String)
  | saveFailed
  | directoryDurability
  | directorySync
  /-- An exception that nobody catches. -/
  | thrown
deriving DecidableEq, Repr

/-- The text of an error; the library's own words follow the data and encoding ones. -/
def Error.message (path : String) : Error → String
  | .inspect status => "Cannot inspect ban database: " ++ status
  | .missingFile => "missing or invalid file: " ++ path
  | .oversizedFile => "invalid or oversized file: " ++ path
  | .unreadableFile => "cannot read " ++ path
  | .readFailed => "read failed or file grew beyond the size limit: " ++ path
  | .jsonSize => "JSON exceeds the file size limit"
  | .jsonNesting => "JSON nesting exceeds 16 levels"
  | .repeatedKey key => "duplicate JSON key: " ++ String.ofList key
  | .jsonSyntax => "invalid JSON syntax"
  | .schema => "invalid ban database schema or entry count"
  | .steamIdNotString => "ban Steam IDs must be strings"
  | .account => "invalid ban account"
  | .utc invalid => invalid.message
  | .expiryReasonOrActor => "invalid ban expiry, reason or actor"
  | .repeatedAccount => "duplicate normalized ban account"
  | .invalidData => "invalid ban data: "
  | .request => "invalid ban account, duration, reason or actor"
  | .expiryYears => "ban expiry is outside supported UTC years"
  | .full => "ban database is full"
  | .requestAccount => "invalid ban account"
  | .notLoaded => "ban database has not been loaded"
  | .changedExternally =>
      "ban file changed externally; correct it and reload Source2Root before modifying bans"
  | .encoding => "cannot encode ban database: "
  | .fileSize => "ban database exceeds the file size limit"
  | .createDirectory status => "cannot create ban directory: " ++ status
  | .createTemporary status => "cannot create temporary ban file: " ++ status
  | .saveFailed => "atomic ban save failed"
  | .directoryDurability =>
      "ban file replaced but directory durability could not be confirmed; reload before retrying"
  | .directorySync => "ban file replaced but directory sync failed; reload before retrying"
  | .thrown => ""

/-! ## Reading the file's text -/

/-- The JSON library.  `parse` gives the document as its callback meets it, or
the key that was repeated before the text turned out not to be JSON; `dump` with
an indent of two throws on a string that is not UTF-8. -/
structure Library where
  parse : Text → Except (Option Text) Json
  dump : Json → Option Text

def sizeLimit : Nat := 1048576

def entryLimit : Nat := 4096

/-- The scan for brackets outside strings, before the parser runs. -/
def nestsTooDeep (quoted escaped : Bool) (nesting : Nat) : Text → Bool
  | [] => false
  | c :: rest =>
      if quoted then
        if escaped then nestsTooDeep quoted false nesting rest
        else if c = '\\' then nestsTooDeep quoted true nesting rest
        else if c = '"' then nestsTooDeep false escaped nesting rest
        else nestsTooDeep quoted escaped nesting rest
      else if c = '"' then nestsTooDeep true escaped nesting rest
      else if c = '\x7b' ∨ c = '[' then
        if nesting + 1 > 16 then true else nestsTooDeep quoted escaped (nesting + 1) rest
      else if c = '\x7d' ∨ c = ']' then nestsTooDeep quoted escaped (nesting - 1) rest
      else nestsTooDeep quoted escaped nesting rest

def parseJson (library : Library) (contents : Text) : Except Error Json :=
  if contents.length > sizeLimit then .error .jsonSize
  else if nestsTooDeep false false 0 contents then .error .jsonNesting
  else
    match library.parse contents with
    | .error (some key) => .error (.repeatedKey key)
    | .error none => .error .jsonSyntax
    | .ok tree =>
        if tree.depth > 16 then .error .jsonNesting
        else
          match tree.repeated with
          | some key => .error (.repeatedKey key)
          | none => .ok tree.value

def at_ (key : String) (json : Json) : Except Error Json :=
  match json.member key.toList with
  | some part => .ok part
  | none => .error .invalidData

/-- `get<std::string>()`. -/
def textOf (json : Json) : Except Error Text :=
  match json with
  | .string text => .ok text
  | _ => .error .invalidData

def readUtc (json : Json) : Except Error Timestamp := do
  let text ← textOf json
  match Utc.parse text with
  | .ok time => .ok time
  | .error invalid => .error (.utc invalid)

def readExpiry (json : Json) : Except Error (Option Timestamp) :=
  match json with
  | .null => .ok none
  | json => (readUtc json).map some

def accountOf (entry : Json) : Except Error Nat := do
  let steamid ← at_ "steamid" entry
  match steamid with
  | .string text =>
      match parseSteamIdentity text with
      | .ok account => .ok account
      | .error _ => .error .account
  | _ => .error .steamIdNotString

def parseBan (entry : Json) : Except Error Ban := do
  let account ← accountOf entry
  let created ← at_ "created_utc" entry
  let created ← readUtc created
  let reason ← at_ "reason" entry
  let reason ← textOf reason
  let actor ← at_ "actor" entry
  let actor ← textOf actor
  let expires ← at_ "expires_utc" entry
  let expires ← readExpiry expires
  let ban : Ban := { account, created, expires, reason, actor }
  if ban.fine then .ok ban else .error .expiryReasonOrActor

/-- The loop of `ParseBans`. -/
def collect : List Json → BanMap → Except Error BanMap
  | [], bans => .ok bans
  | entry :: rest, bans => do
      let ban ← parseBan entry
      if bans.contains ban.account then .error .repeatedAccount
      else collect rest (bans.insert ban.account ban)

def parseDocument (document : Json) : Except Error BanMap :=
  match document with
  | .object _ => do
      let schema ← at_ "schema" document
      if schema.isOne then
        let bans ← at_ "bans" document
        match bans with
        | .array items => if items.length > entryLimit then .error .schema else collect items ∅
        | _ => .error .schema
      else .error .schema
  | _ => .error .schema

def parseBans (library : Library) (contents : Text) : Except Error BanMap := do
  let document ← parseJson library contents
  parseDocument document

/-! ## The file system -/

inductive Node where
  | absent
  | regular (text : Text)
  /-- A directory, a device and the like. -/
  | other
deriving DecidableEq, Repr

/-- The ban file, and the temporary files that could not be removed. -/
structure Disk where
  file : Node := .absent
  strays : List Text := []
deriving DecidableEq, Repr

structure ReadReplies where
  regular : Bool := true
  sized : Bool := true
  opened : Bool := true
  read : Bool := true
deriving Repr

def read (disk : Disk) (replies : ReadReplies) : Except Error Text :=
  match disk.file with
  | .regular text =>
      if !replies.regular then .error .missingFile
      else if !replies.sized || text.length > sizeLimit then .error .oversizedFile
      else if !replies.opened then .error .unreadableFile
      else if !replies.read then .error .readFailed
      else .ok text
  | .absent | .other => .error .missingFile

inductive WriteReply where
  | interrupted
  | wrote (count : Nat)
  | failed
deriving Repr

structure WriteReplies where
  directories : Bool := true
  created : Bool := true
  /-- The answers of `write`; after the last of them it fails. -/
  writes : List WriteReply := []
  synced : Bool := true
  closed : Bool := true
  renamed : Bool := true
  unlinked : Bool := true
  directoryOpened : Bool := true
  directorySynced : Bool := true
  directoryClosed : Bool := true
  status : String := ""
deriving Repr

/-- What the loop of `write` puts into the file, and whether that is all. -/
def writeAll : List WriteReply → Text → Text × Bool
  | _, [] => ([], true)
  | [], _ :: _ => ([], false)
  | .interrupted :: replies, c :: rest => writeAll replies (c :: rest)
  | .failed :: _, _ :: _ => ([], false)
  | .wrote 0 :: _, _ :: _ => ([], false)
  | .wrote (count + 1) :: replies, c :: rest =>
      let (text, all) := writeAll replies (rest.drop count)
      (c :: rest.take count ++ text, all)

def atomicWrite (disk : Disk) (contents : Text) (replies : WriteReplies) :
    Except Error Unit × Disk :=
  if !replies.directories then (.error (.createDirectory replies.status), disk)
  else if !replies.created then (.error (.createTemporary replies.status), disk)
  else
    let (temporary, success) := writeAll replies.writes contents
    let success := success && replies.synced
    if !success || !replies.closed || !replies.renamed then
      (.error .saveFailed,
        { disk with strays := if replies.unlinked then disk.strays else temporary :: disk.strays })
    else
      let disk := { disk with file := .regular temporary }
      if !replies.directoryOpened then (.error .directoryDurability, disk)
      else if !replies.directorySynced || !replies.directoryClosed then
        (.error .directorySync, disk)
      else (.ok (), disk)

/-! ## The store -/

structure BanStore where
  bans : BanMap := ∅
  contents : Option Text := none

structure World where
  store : BanStore := {}
  disk : Disk := {}

structure Replies where
  inspected : Bool := true
  status : String := ""
  loadRead : ReadReplies := {}
  loadWrite : WriteReplies := {}
  read : ReadReplies := {}
  write : WriteReplies := {}
deriving Repr

def initialContents : Text :=
  "\x7b\n  \"bans\": [],\n  \"schema\": 1\n\x7d\n".toList

def load (library : Library) (replies : Replies) (w : World) : Except Error Unit × World :=
  match w.store.contents with
  | some _ => (.ok (), w)
  | none =>
      if !replies.inspected then (.error (.inspect replies.status), w)
      else
        match w.disk.file with
        | .absent =>
            match atomicWrite w.disk initialContents replies.loadWrite with
            | (.error e, disk) => (.error e, { w with disk })
            | (.ok (), disk) =>
                (.ok (), { store := { bans := ∅, contents := some initialContents }, disk })
        | .regular _ | .other =>
            match read w.disk replies.loadRead with
            | .error e => (.error e, w)
            | .ok contents =>
                match parseBans library contents with
                | .error e => (.error e, w)
                | .ok bans => (.ok (), { w with store := { bans, contents := some contents } })

def activeBan (store : BanStore) (account : Nat) (now : Timestamp) : Option Ban :=
  store.bans[account]?.filter fun ban => ban.active now

/-! ### Saving -/

def utc (time : Timestamp) : Except Error Text :=
  match Utc.format time with
  | .ok text => .ok text
  | .error invalid => .error (.utc invalid)

/-- The entries of the previous document by account; the first of an account stays. -/
def originals : List Json → Std.ExtTreeMap Nat Json → Except Error (Std.ExtTreeMap Nat Json)
  | [], found => .ok found
  | entry :: rest, found =>
      match accountOf entry with
      | .error _ => .error .thrown
      | .ok account => originals rest (found.insertIfNew account entry)

def encodeExpiry (expires : Option Timestamp) : Except Error Json :=
  match expires with
  | none => .ok .null
  | some expires => (utc expires).map Json.string

def encodeBan (original : Std.ExtTreeMap Nat Json) (account : Nat) (ban : Ban) :
    Except Error Json := do
  let created ← utc ban.created
  let expiry ← encodeExpiry ban.expires
  match original.getD account (.object []) with
  | .object members =>
      let members := Json.assign "steamid".toList (.string (decimal account)) members
      let members := Json.assign "created_utc".toList (.string created) members
      let members := Json.assign "expires_utc".toList expiry members
      let members := Json.assign "reason".toList (.string ban.reason) members
      let members := Json.assign "actor".toList (.string ban.actor) members
      .ok (.object members)
  | _ => .error .thrown

def encodeAll (original : Std.ExtTreeMap Nat Json) : List (Nat × Ban) → Except Error (List Json)
  | [] => .ok []
  | (account, ban) :: rest => do
      let entry ← encodeBan original account ban
      let entries ← encodeAll original rest
      return entry :: entries

def itemsOf (document : Json) : Except Error (List Json) :=
  match document.member "bans".toList with
  | some (.array items) => .ok items
  | _ => .error .thrown

/-- The previous document with the candidate's entries. -/
def edit (document : Json) (candidate : BanMap) : Except Error Json := do
  let items ← itemsOf document
  let original ← originals items ∅
  let entries ← encodeAll original candidate.toList
  match document with
  | .object members => .ok (.object (Json.assign "bans".toList (.array entries) members))
  | _ => .error .thrown

/-- The text `SaveBans` writes for a candidate. -/
def encode (library : Library) (previous : Text) (candidate : BanMap) : Except Error Text :=
  match library.parse previous with
  | .error _ => .error .thrown
  | .ok tree => do
      let document ← edit tree.value candidate
      match library.dump document with
      | none => .error .encoding
      | some text =>
          if (text ++ ['\n']).length > sizeLimit then .error .fileSize else .ok (text ++ ['\n'])

def saveBans (library : Library) (replies : Replies) (candidate : BanMap) (w : World) :
    Except Error Unit × World :=
  match w.store.contents with
  | none => (.error .notLoaded, w)
  | some contents =>
      match read w.disk replies.read with
      | .error e => (.error e, w)
      | .ok previous =>
          if previous ≠ contents then (.error .changedExternally, w)
          else
            match encode library contents candidate with
            | .error e => (.error e, w)
            | .ok text =>
                match atomicWrite w.disk text replies.write with
                | (.error e, disk) => (.error e, { w with disk })
                | (.ok (), disk) =>
                    (.ok (), { store := { bans := candidate, contents := some text }, disk })

/-! ### Mutations -/

/-- The last second of the year 9999. -/
def lastSecond : Timestamp := 253402300799

/-- The ban `AddBan` is asked for. -/
def newBan (account minutes : Nat) (reason actor : Text) (now : Timestamp) : Except Error Ban :=
  if !validSteamIdentity account || minutes > 5256000 || !safeText reason 256 ||
      !knownActor actor then .error .request
  else do
    let _ ← utc now
    if minutes = 0 then .ok { account, created := now, reason, actor }
    else if lastSecond - now < minutes * 60 then .error .expiryYears
    else .ok { account, created := now, expires := some (now + minutes * 60), reason, actor }

def addBan (library : Library) (replies : Replies) (account minutes : Nat) (reason actor : Text)
    (now : Timestamp) (w : World) : Except Error Unit × World :=
  match load library replies w with
  | (.error e, w) => (.error e, w)
  | (.ok (), w) =>
      match newBan account minutes reason actor now with
      | .error e => (.error e, w)
      | .ok ban =>
          let candidate := w.store.bans.insert account ban
          if candidate.size > entryLimit then (.error .full, w)
          else saveBans library replies candidate w

/-- `RemoveBan`; the answer is `removed`. -/
def removeBan (library : Library) (replies : Replies) (account : Nat) (w : World) :
    Except Error Bool × World :=
  match load library replies w with
  | (.error e, w) => (.error e, w)
  | (.ok (), w) =>
      if !validSteamIdentity account then (.error .requestAccount, w)
      else if !w.store.bans.contains account then (.ok false, w)
      else
        match saveBans library replies (w.store.bans.erase account) w with
        | (.error e, w) => (.error e, w)
        | (.ok (), w) => (.ok true, w)

inductive Mutation where
  | add (account minutes : Nat) (reason actor : Text) (now : Timestamp)
  | remove (account : Nat)
deriving Repr

/-- A mutation; the answer says whether it wrote. -/
def mutate (library : Library) (replies : Replies) (w : World) :
    Mutation → Except Error Bool × World
  | .add account minutes reason actor now =>
      match addBan library replies account minutes reason actor now w with
      | (.error e, w) => (.error e, w)
      | (.ok (), w) => (.ok true, w)
  | .remove account => removeBan library replies account w

inductive Label where
  | load (replies : Replies)
  | mutate (mutation : Mutation) (replies : Replies)
  /-- Somebody else changes the file. -/
  | edit (node : Node)

def next (library : Library) (w : World) : Label → Option World
  | .load replies => some (load library replies w).2
  | .mutate mutation replies => some (mutate library replies w mutation).2
  | .edit node => some { w with disk.file := node }

end Bans

end Source2Root
