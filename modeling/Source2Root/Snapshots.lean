import Source2Root.CrashSafe
import Source2Root.Python.Json

/-!
# The store of compatibility snapshots

`compatibility_update.py`: the index `state.json`, the directories under
`releases`, and the commands that stage, select, roll back and prune.  A command
is a program over the disk, its effects those of the file system.  Nothing else
writes to the store, so no link or foreign file is ever in it; the names that
`mkstemp` and `mkdtemp` pick play no part, so a temporary file or directory is
either the one of the running command or one that an interrupted command left.
-/

set_option autoImplicit false

namespace Source2Root.Snapshots

open Source2Root.Python (Str Dict Value str)
open Source2Root.CrashSafe

def manifestLimit : Nat := 1024 * 1024

def dataLimit : Nat := 512 * 1024

def fileLimit : Nat := 128 * 1024

def indexLimit : Nat := 32 * 1024

def releaseLimit : Nat := 16

def require (condition : Prop) [Decidable condition] (message : String) : Except String Unit :=
  if condition then .ok () else .error message

/-! ## Checked values -/

/-- Lowercase letters and digits. -/
def lowerOrDigit (c : Nat) : Bool := (97 ≤ c && c ≤ 122) || (48 ≤ c && c ≤ 57)

def letterOrDigit (c : Nat) : Bool := lowerOrDigit c || (65 ≤ c && c ≤ 90)

def isDigest (text : Str) : Bool :=
  text.length = 64 && text.all fun c => (48 ≤ c && c ≤ 57) || (97 ≤ c && c ≤ 102)

/-- `[A-Za-z0-9][A-Za-z0-9_.-]{0,63}` -/
def isVersion (text : Str) : Bool :=
  text.length ≤ 64 && (text.head?.any letterOrDigit) &&
    text.all fun c => letterOrDigit c || c = 95 || c = 46 || c = 45

/-- The hash and the calendar of Python's library. -/
structure Library where
  sha256 : Text → Str
  hexdigest : ∀ raw, isDigest (sha256 raw) = true
  timestamp : Str → Option Int

def keys (value : Value) (required : List Str) : Except String (Dict Value) :=
  match value with
  | .object members =>
      if (required.all fun key => (Dict.find key members).isSome) &&
          members.all fun m => required.contains m.1 then .ok members
      else .error "Unexpected or missing fields"
  | .null | .boolean _ | .integer _ | .number _ _ | .string _ | .array _ =>
      .error "Unexpected or missing fields"

/-- `value[key]` after `keys`. -/
def field (members : Dict Value) (key : String) : Value := (Dict.find (str key) members).getD .null

def integer (value : Value) (minimum : Nat) : Except String Nat :=
  match value with
  | .integer n =>
      if minimum ≤ n ∧ n ≤ 2 ^ 63 - 1 then .ok n.toNat else .error "Integer is out of range"
  | .null | .boolean _ | .number _ _ | .string _ | .array _ | .object _ =>
      .error "Integer is out of range"

def text (value : Value) (message : String) : Except String Str :=
  match value with
  | .string text => .ok text
  | .null | .boolean _ | .integer _ | .number _ _ | .array _ | .object _ => .error message

def digest (value : Value) : Except String Str := do
  let text ← text value "Invalid SHA-256"
  require (isDigest text = true) "Invalid SHA-256"
  return text

/-- A repeated key and a constant such as `NaN` have messages of their own. -/
def decode (raw : Text) : Except String Value := do
  require (raw.length ≤ manifestLimit) "JSON exceeds the size limit"
  match (Python.decode raw).bind Python.loads with
  | none => .error "Invalid UTF-8 JSON"
  | some value =>
      require (value.depth ≤ 32) "JSON is too deeply nested"
      require (value.finite = true) "Nonfinite JSON number"
      return value

def stem (name : Str) : Str := name.takeWhile (· ≠ 46)

/-- `com0` … `com9` and `lpt0` … `lpt9` -/
def isPort (name : Str) : Bool :=
  name.length = 4 && ((str "com").isPrefixOf name || (str "lpt").isPrefixOf name) &&
    (name.drop 3).all Python.isDigit

def filename (name : Str) : Except String Unit := do
  require ((stem name).length ≤ 63 ∧ (stem name).head?.any lowerOrDigit = true ∧
      ((stem name).all fun c => lowerOrDigit c || c = 95 || c = 45) = true ∧
      (name.drop (stem name).length = str ".json" ∨ name.drop (stem name).length = str ".tsv"))
    "Data filenames must be lowercase .json or .tsv basenames"
  require (stem name ∉ [str "con", str "prn", str "aux", str "nul"] ∧ isPort (stem name) = false)
    "Reserved data filename"
  require (name ≠ str "snapshot.json") "snapshot.json is reserved for export metadata"

/-- What `configuration` accepts, with the file of trusted certificates read. -/
structure Config where
  url : Str
  product : Str
  game : Str
  platform : Str
  files : List Str
  minimumSequence : Nat
  ca : Option Text
  printable : url.length ≤ 2048 ∧ ∀ c ∈ url, 32 < c ∧ c < 127
  known : product ∈ [str "KeelS2", str "Source2Root"] ∧ game = str "cs2" ∧
    platform ∈ [str "linuxsteamrt64", str "win64"]
  filenames : (1 ≤ files.length ∧ files.length ≤ 32) ∧ files.Nodup ∧ ∀ name ∈ files, filename name = .ok ()
  minimum : 1 ≤ minimumSequence ∧ minimumSequence ≤ 2 ^ 63 - 1

section
variable (lib : Library) (config : Config)

def identity : Value :=
  .object [(str "ca_sha256", .string ((config.ca.map lib.sha256).getD (str "system"))),
    (str "files", .array ((config.files.mergeSort fun a b => decide (a ≤ b)).map .string)),
    (str "game", .string config.game), (str "platform", .string config.platform),
    (str "product", .string config.product), (str "url", .string config.url)]

/-! ## Manifests -/

structure Entry where
  name : Str
  content : Text

/-- What the store reads of an accepted manifest. -/
structure Manifest where
  sequence : Nat
  version : Str
  files : List Entry

def lineBreak (c : Nat) : Bool :=
  [10, 11, 12, 13, 0x1c, 0x1d, 0x1e, 0x85, 0x2028, 0x2029].contains c

/-- `str.splitlines` with the line that has begun. -/
def splitlinesFrom (line : Str) : Str → List Str
  | [] => if line = [] then [] else [line.reverse]
  | c :: rest =>
      if lineBreak c then
        match rest with
        | [] => [line.reverse]
        | d :: more =>
            if c = 13 ∧ d = 10 then line.reverse :: splitlinesFrom [] more
            else line.reverse :: splitlinesFrom [] (d :: more)
      else splitlinesFrom (c :: line) rest

def splitlines (content : Str) : List Str := splitlinesFrom [] content

def profileField (rows : List Str) (field expected : Str) : Except String Unit :=
  let cells := (rows.map fun row => row.splitOn 9).filter fun cells => cells.head? = some field
  require (cells = [[field, expected]])
    "Profile trust or target does not match the candidate policy"

/-- The first row and the fields of a compatibility profile. -/
def profile (content : Str) : Except String Unit := do
  let rows := splitlines content
  require (rows.head? = some (str "keels2-compatibility-profile\t1"))
    "TSV data must be a Keel compatibility profile"
  profileField rows.tail (str "status") (str "candidate-untrusted")
  profileField rows.tail (str "review") (str "required")
  profileField rows.tail (str "game") config.game
  profileField rows.tail (str "platform") config.platform

def isObject : Value → Bool
  | .object _ => true
  | .null | .boolean _ | .integer _ | .number _ _ | .string _ | .array _ => false

/-- The body of the loop over the files of a manifest; `names` and `total` are of
the files before it. -/
def entry (names : List Str) (total : Nat) (value : Value) : Except String Entry := do
  let members ← keys value [str "name", str "sha256", str "content"]
  let name ← text (field members "name") "Data filenames must be lowercase .json or .tsv basenames"
  filename name
  require (name ∈ config.files ∧ name ∉ names) "Unexpected or duplicate data filename"
  let content ← text (field members "content") "Data must be NUL-free UTF-8 text"
  require (0 ∉ content) "Data must be NUL-free UTF-8 text"
  match Python.encode content with
  | none => .error "Invalid data encoding"
  | some raw =>
      require (0 < raw.length ∧ raw.length ≤ fileLimit ∧ total + raw.length ≤ dataLimit)
        "Data exceeds snapshot limits"
      let expected ← digest (field members "sha256")
      require (lib.sha256 raw = expected) "Data hash mismatch"
      if (str ".json").isSuffixOf name then
        let data ← decode raw
        require (isObject data = true) "JSON data must contain an object"
        return { name, content := raw }
      else
        profile config content
        return { name, content := raw }

def entries (names : List Str) (total : Nat) : List Value → Except String (List Entry)
  | [] => return []
  | value :: rest => do
      let first ← entry lib config names total value
      let more ← entries (first.name :: names) (total + first.content.length) rest
      return first :: more

def items (value : Value) (message : String) : Except String (List Value) :=
  match value with
  | .array items => .ok items
  | .null | .boolean _ | .integer _ | .number _ _ | .string _ | .object _ => .error message

/-- `manifest`; a fresh one is checked against the time `now`. -/
def manifest (raw : Text) (fresh : Option Int) : Except String Manifest := do
  let value ← decode raw
  let members ← keys value [str "schema", str "product", str "game", str "platform",
    str "sequence", str "version", str "issued_at", str "expires_at", str "files"]
  require ((field members "schema").same (.integer 1) = true) "Unsupported manifest schema"
  require ((field members "product").same (.string config.product) = true)
    "Manifest does not match the configured product"
  require ((field members "game").same (.string config.game) = true)
    "Manifest does not match the configured game"
  require ((field members "platform").same (.string config.platform) = true)
    "Manifest does not match the configured platform"
  let sequence ← integer (field members "sequence")
    (if fresh.isSome then config.minimumSequence else 1)
  let version ← text (field members "version") "Invalid version label"
  require (isVersion version = true) "Invalid version label"
  let issuedAt ← text (field members "issued_at") "Timestamp must use UTC YYYY-MM-DDTHH:MM:SSZ"
  let expiresAt ← text (field members "expires_at") "Timestamp must use UTC YYYY-MM-DDTHH:MM:SSZ"
  match lib.timestamp issuedAt, lib.timestamp expiresAt with
  | some issued, some expires =>
      require (issued < expires ∧ expires ≤ issued + 30 * 86400)
        "Manifest validity must be at most 30 days"
      require (∀ now ∈ fresh, issued ≤ now + 5 * 60 ∧ now < expires)
        "Manifest has expired or is not yet valid"
      let files ← items (field members "files") "Manifest needs 1..32 files"
      require (1 ≤ files.length ∧ files.length ≤ 32) "Manifest needs 1..32 files"
      let files ← entries lib config [] 0 files
      require ((∀ name ∈ config.files, name ∈ files.map Entry.name) ∧
          ∀ e ∈ files, e.name ∈ config.files)
        "Manifest must contain the complete configured file set"
      return { sequence, version, files }
  | _, _ => .error "Invalid timestamp"

/-! ## The disk -/

structure Directory where
  manifest : Option Text
  data : Option (Dict Text)

inductive Part where
  | manifest
  | data
  | file (name : Str)

namespace Directory

def put (part : Part) (raw : Text) (directory : Directory) : Directory :=
  match part with
  | .manifest => { directory with manifest := some raw }
  | .data => { directory with data := some [] }
  | .file name => { directory with data := directory.data.map fun files => Dict.assign name raw files }

def drop (part : Part) (directory : Directory) : Directory :=
  match part with
  | .manifest => { directory with manifest := none }
  | .data => { directory with data := none }
  | .file name => { directory with data := directory.data.map fun files => Dict.remove name files }

end Directory

structure Disk where
  locked : Bool
  index : Option Text
  /-- The temporary file of the running command, and those left behind. -/
  draft : Option Text
  drafts : List Text
  releases : Dict Directory
  /-- The staging directory of the running command, and those left behind. -/
  staging : Option Directory
  stale : List Directory

namespace Disk

def empty : Disk where
  locked := false
  index := none
  draft := none
  drafts := []
  releases := []
  staging := none
  stale := []

/-- How many directories `releases` holds. -/
def directories (d : Disk) : Nat := d.releases.length + d.staging.toList.length + d.stale.length

end Disk

inductive Effect where
  | lock
  | unlock
  | makeDraft
  | writeDraft (raw : Text)
  | replaceIndex
  | dropDraft
  | makeStaging
  | create (part : Part)
  | write (part : Part) (raw : Text)
  | renameStaging (key : Str)
  | dropStaging
  | remove (key : Str) (part : Part)
  | removeDirectory (key : Str)

def Effect.apply (effect : Effect) (d : Disk) : Disk :=
  match effect with
  | .lock => { d with locked := true }
  | .unlock => { d with locked := false }
  | .makeDraft => { d with draft := some [] }
  | .writeDraft raw => { d with draft := some raw }
  | .replaceIndex => { d with index := d.draft.or d.index, draft := none }
  | .dropDraft => { d with draft := none }
  | .makeStaging => { d with staging := some { manifest := none, data := none } }
  | .create part => { d with staging := d.staging.map fun directory => directory.put part [] }
  | .write part raw => { d with staging := d.staging.map fun directory => directory.put part raw }
  | .renameStaging key =>
      { d with
        releases := (d.staging.map fun directory => Dict.assign key directory d.releases).getD d.releases
        staging := none }
  | .dropStaging => { d with staging := none }
  | .remove key part =>
      { d with
        releases := ((Dict.find key d.releases).map fun directory =>
          Dict.assign key (directory.drop part) d.releases).getD d.releases }
  | .removeDirectory key => { d with releases := Dict.remove key d.releases }

abbrev Store (α : Type) : Type := Program Effect.apply String α

/-! ## The index -/

structure Record where
  sha256 : Str
  version : Str
deriving DecidableEq

structure Document where
  highest : Nat
  selected : Option Nat
  previous : Option Nat
  releases : Dict Record

namespace Document

def empty : Document where
  highest := 0
  selected := none
  previous := none
  releases := []

def selection : Option Nat → Value
  | none => .null
  | some n => .integer n

def record (r : Record) : Value :=
  .object [(str "sha256", .string r.sha256), (str "version", .string r.version)]

def value (doc : Document) : Value :=
  .object [(str "highest", .integer doc.highest), (str "previous", selection doc.previous),
    (str "releases", .object (doc.releases.map fun r => (r.1, record r.2))),
    (str "schema", .integer 1), (str "selected", selection doc.selected),
    (str "source", identity lib config)]

/-- `encoded`; the text is ASCII, and the codec of it is Latin-1 as well. -/
def encoded (doc : Document) : Text :=
  (Python.dumps 0 (doc.value lib config) ++ [10]).map Python.byte

end Document

/-- A record of the index.  The code looks at the version only to compare it with
that of a manifest, which is a text. -/
def recordOf (value : Value) : Except String Record := do
  let members ← keys value [str "sha256", str "version"]
  let sha256 ← digest (field members "sha256")
  let version ← text (field members "version") "Snapshot identity mismatch"
  return { sha256, version }

/-- `[1-9][0-9]{0,18}` -/
def isSequence (key : Str) : Bool :=
  key.length ≤ 19 && key.all Python.isDigit && key.head?.any fun c => c ≠ 48

def recordsOf : Dict Value → Except String (Dict Record)
  | [] => return []
  | (key, value) :: rest => do
      require (isSequence key = true) "Invalid stored sequence"
      require (Python.intOf key ≤ 2 ^ 63 - 1) "Integer is out of range"
      let record ← recordOf value
      let more ← recordsOf rest
      return (key, record) :: more

def highestOf (releases : Dict Record) : Nat :=
  releases.foldr (fun r n => max (Python.intOf r.1) n) 0

def selectionOf (releases : Dict Record) (value : Value) : Except String (Option Nat) :=
  match value with
  | .null => .ok none
  | .integer n =>
      if 0 ≤ n ∧ (Dict.find (Python.decimal n.toNat) releases).isSome then .ok (some n.toNat)
      else .error "Invalid snapshot selection"
  | .boolean _ | .number _ _ | .string _ | .array _ | .object _ =>
      .error "Invalid snapshot selection"

def members (value : Value) (message : String) : Except String (Dict Value) :=
  match value with
  | .object members => .ok members
  | .null | .boolean _ | .integer _ | .number _ _ | .string _ | .array _ => .error message

/-- `state` -/
def state (d : Disk) : Except String Document :=
  match d.index with
  | none =>
      if d.directories = 0 then .ok Document.empty
      else .error "Snapshot index is missing; restore the index before updating"
  | some raw => do
      require (raw.length ≤ indexLimit) "File exceeds the size limit"
      let value ← decode raw
      let found ← keys value [str "schema", str "source", str "highest", str "selected",
        str "previous", str "releases"]
      require ((field found "schema").same (.integer 1) = true ∧
          (field found "source").same (identity lib config) = true)
        "Store belongs to another source or trust policy"
      let top ← integer (field found "highest") 0
      let listed ← members (field found "releases") "Invalid snapshot index"
      require (listed.length ≤ releaseLimit) "Invalid snapshot index"
      let releases ← recordsOf listed
      require (top = highestOf releases) "Invalid sequence history"
      let selected ← selectionOf releases (field found "selected")
      let previous ← selectionOf releases (field found "previous")
      return { highest := top, selected, previous, releases }

/-! ## Stored snapshots -/

def readFile (limit : Nat) (file : Option Text) : Except String Text :=
  match file with
  | none => .error "No such file"
  | some raw => do
      require (raw.length ≤ limit) "File exceeds the size limit"
      return raw

def verifyEntries (data : Dict Text) : List Entry → Except String Unit
  | [] => return ()
  | e :: rest => do
      let raw ← readFile fileLimit (Dict.find e.name data)
      require (raw = e.content) "Stored data differs from its manifest"
      verifyEntries data rest

/-- `verify` of the directory that a sequence has. -/
def verifyDirectory (directory : Option Directory) (sequence : Nat) (record : Record) :
    Except String Manifest := do
  let raw ← readFile manifestLimit (directory.bind Directory.manifest)
  require (lib.sha256 raw = record.sha256) "Stored manifest hash mismatch"
  let value ← manifest lib config raw none
  require (value.sequence = sequence ∧ value.version = record.version) "Snapshot identity mismatch"
  match directory.bind Directory.data with
  | none => .error "Unexpected snapshot files"
  | some data =>
      require ((∀ name ∈ config.files, (Dict.find name data).isSome) ∧ ∀ f ∈ data, f.1 ∈ config.files)
        "Snapshot data set changed"
      verifyEntries data value.files
      return value

def verify (d : Disk) (sequence : Nat) (record : Record) : Except String Manifest :=
  verifyDirectory lib config (Dict.find (Python.decimal sequence) d.releases) sequence record

/-! ## The commands -/

def readState : Store Document := do
  let d ← Program.read
  Program.lift (state lib config d)

def check (sequence : Nat) (record : Record) : Store Unit := do
  let d ← Program.read
  let _ ← Program.lift (verify lib config d sequence record)
  return ()

def save (doc : Document) : Store Unit :=
  Program.ensuring
    (do
      Program.effect .makeDraft
      Program.effect (.writeDraft (doc.encoded lib config))
      Program.effect .replaceIndex)
    (Program.effect .dropDraft)

inductive Result where
  | staged (sequence : Nat)
  | unchanged (sequence : Nat)
  | selected (sequence : Nat)
  | pruned (sequence : Nat)
deriving DecidableEq

/-- `write_new` of the manifest and of the files of a snapshot, in this order. -/
def contents (raw : Text) (value : Manifest) : List Effect :=
  [.create .data, .create .manifest, .write .manifest raw] ++
    value.files.flatMap fun e => [.create (.file e.name), .write (.file e.name) e.content]

/-- The directory of a snapshot, made complete under another name. -/
def makeDirectory (raw : Text) (value : Manifest) (key : Str) : Store Unit :=
  Program.ensuring
    (do
      Program.effect .makeStaging
      (contents raw value).forM Program.effect
      Program.effect (.renameStaging key))
    (do
      let d ← Program.read
      if d.staging.isSome then Program.effect .dropStaging)

/-- The directory of a snapshot; one that an interrupted run left is taken when it is whole. -/
def provide (raw : Text) (value : Manifest) (record : Record) : Store Unit := do
  let d ← Program.read
  if (Dict.find (Python.decimal value.sequence) d.releases).isSome then
    check lib config value.sequence record
  else
    Program.lift (require (d.directories < releaseLimit)
      "Snapshot storage limit reached; inspect incomplete staging directories")
    makeDirectory raw value (Python.decimal value.sequence)

def initialise (doc : Document) : Store Unit := do
  let d ← Program.read
  if d.index.isNone then save lib config doc

def stage (raw : Text) (now : Int) : Store Result := do
  let value ← Program.lift (manifest lib config raw (some now))
  let doc ← readState lib config
  let record : Record := { sha256 := lib.sha256 raw, version := value.version }
  Program.lift (require (doc.highest ≤ value.sequence)
    "Manifest sequence is older than the highest staged version")
  match Dict.find (Python.decimal value.sequence) doc.releases with
  | some was =>
      Program.lift (require (record = was) "The source changed an existing sequence")
      check lib config value.sequence record
      return .unchanged value.sequence
  | none =>
      Program.lift (require (doc.releases.length < releaseLimit)
        "Snapshot limit reached; prune old snapshots explicitly")
      initialise lib config doc
      provide lib config raw value record
      save lib config { doc with
        highest := value.sequence
        releases := Dict.assign (Python.decimal value.sequence) record doc.releases }
      return .staged value.sequence

def inRange (sequence minimum : Nat) : Except String Unit :=
  require (minimum ≤ sequence ∧ sequence ≤ 2 ^ 63 - 1) "Integer is out of range"

/-- The record of a sequence that is in the index. -/
def recordFor (doc : Document) (sequence : Nat) : Except String Record :=
  match Dict.find (Python.decimal sequence) doc.releases with
  | some record => .ok record
  | none => .error "Snapshot is not staged"

def select (sequence : Nat) (reviewed : Str) : Store Result := do
  Program.lift (inRange sequence config.minimumSequence)
  let doc ← readState lib config
  let record ← Program.lift (recordFor doc sequence)
  Program.lift (require (∀ n ∈ doc.selected, n ≤ sequence)
    "Use rollback to select the previous version")
  Program.lift (require (isDigest reviewed = true) "Invalid SHA-256")
  Program.lift (require (reviewed = record.sha256)
    "Review hash does not match the staged snapshot")
  check lib config sequence record
  if doc.selected ≠ some sequence then
    save lib config { doc with previous := doc.selected, selected := some sequence }
  return .selected sequence

def rollback : Store Result := do
  let doc ← readState lib config
  match doc.previous with
  | none => Program.raise "No previous selection is available"
  | some previous =>
      Program.lift (inRange previous config.minimumSequence)
      let record ← Program.lift (recordFor doc previous)
      check lib config previous record
      save lib config { doc with selected := some previous, previous := doc.selected }
      return .selected previous

/-- `shutil.rmtree`: the parts go in some order, the directory last. -/
def removeTree (key : Str) (order : List Part) : List Effect :=
  order.map (Effect.remove key) ++ [.removeDirectory key]

def prune (sequence : Nat) (order : List Part) : Store Result := do
  let doc ← readState lib config
  Program.lift (require (doc.selected ≠ some sequence ∧ doc.previous ≠ some sequence ∧
      doc.highest ≠ sequence)
    "Cannot prune the selected, rollback or highest snapshot")
  let record ← Program.lift (recordFor doc sequence)
  check lib config sequence record
  save lib config { doc with releases := Dict.remove (Python.decimal sequence) doc.releases }
  (removeTree (Python.decimal sequence) order).forM Program.effect
  return .pruned sequence

/-! ## Runs -/

inductive Command where
  | stage (raw : Text) (now : Int)
  | select (sequence : Nat) (reviewed : Str)
  | rollback
  | prune (sequence : Nat) (order : List Part)

def command : Command → Store Result
  | .stage raw now => stage lib config raw now
  | .select sequence reviewed => select lib config sequence reviewed
  | .rollback => rollback lib config
  | .prune sequence order => prune lib config sequence order

/-- `locked` -/
def holding (body : Store Result) : Store Result := do
  let d ← Program.read
  Program.lift (require (d.locked = false)
    "Snapshot store is locked; finish the other updater or inspect a stale lock")
  Program.effect .lock
  body.ensuring (Program.effect .unlock)

/-- A command that is cut off after some number of its effects, if it has more. -/
structure Step where
  command : Command
  crash : Nat

/-- What the next start finds, a stale lock removed. -/
def Disk.restarted (d : Disk) : Disk :=
  { d with
    locked := false
    draft := none
    drafts := d.draft.toList ++ d.drafts
    staging := none
    stale := d.staging.toList ++ d.stale }

def next (d : Disk) (s : Step) : Disk :=
  ((holding (command lib config s.command)).crash s.crash d).restarted

/-- The disk after a sequence of commands on a new store. -/
def reached (steps : List Step) : Disk := steps.foldl (next lib config) Disk.empty

/-- The command ran to its end and returned. -/
def Completed (d : Disk) (s : Step) (result : Result) : Prop :=
  (holding (command lib config s.command) d).1.length ≤ s.crash ∧
    (holding (command lib config s.command) d).2 = .ok result

end

end Source2Root.Snapshots
