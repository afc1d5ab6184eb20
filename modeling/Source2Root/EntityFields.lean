import Mathlib
import Source2Root.Identity
import Source2Root.NativeIntegers

/-!
# Integer fields of entities

`DecodeInteger`, `IntegerBytes`, `ParseInteger` and the integer accessors of `Entity`
in `extensions/sdktools/entities.cpp`, with the checks `Read` and `Write` make before
they hand the bytes to the host.  The host's answers are parameters; a field's memory
is what the host keeps for it.
-/

set_option autoImplicit false

namespace Source2Root.EntityFields

open Integers NativeIntegers

inductive SchemaType where
  | char
  | int8
  | uint8
  | int16
  | uint16
  | int32
  | uint32
  | int64
  | uint64
  | float32
  | float64
  | bool
  | entityHandle
  | vector3
deriving DecidableEq, Repr

/-- `ValueSize` -/
def valueSize : SchemaType → Nat
  | .char | .int8 | .uint8 | .bool => 1
  | .int16 | .uint16 => 2
  | .int32 | .uint32 | .float32 | .entityHandle => 4
  | .int64 | .uint64 | .float64 => 8
  | .vector3 => 12

/-! ## Integers and bytes -/

/-- `DecodeInteger` -/
def decodeInteger (type : SchemaType) (data : List UInt8) : Except String IntegerValue :=
  match type with
  | .char | .uint8 => .ok (.uint64 (IntType.uint8.load data).toNat)
  | .int8 => .ok (.int64 (IntType.int8.load data))
  | .uint16 => .ok (.uint64 (IntType.uint16.load data).toNat)
  | .int16 => .ok (.int64 (IntType.int16.load data))
  | .uint32 => .ok (.uint64 (IntType.uint32.load data).toNat)
  | .int32 => .ok (.int64 (IntType.int32.load data))
  | .uint64 => .ok (.uint64 (IntType.uint64.load data).toNat)
  | .int64 => .ok (.int64 (IntType.int64.load data))
  | .bool =>
      let value := IntType.uint8.load data
      if 1 < value then .error "Host returned an invalid boolean value."
      else .ok (.uint64 value.toNat)
  | _ => .error "Field is not an integer or boolean."

/-- `IntegerType` -/
def integerType (type : SchemaType) : Except String Unit :=
  match type with
  | .float32 | .float64 | .entityHandle | .vector3 => .error "Field is not an integer or boolean."
  | _ => .ok ()

/-- `EncodeInteger` -/
def encodeInteger (t : IntType) (value : IntegerValue) : Except String (List UInt8) := do
  let number ← narrow "Integer is outside the schema field's range." t value
  return t.store number (List.replicate 8 0)

/-- `IntegerBytes` -/
def integerBytes (type : SchemaType) (value : IntegerValue) : Except String (List UInt8) :=
  match type with
  | .char | .uint8 => encodeInteger .uint8 value
  | .int8 => encodeInteger .int8 value
  | .uint16 => encodeInteger .uint16 value
  | .int16 => encodeInteger .int16 value
  | .uint32 => encodeInteger .uint32 value
  | .int32 => encodeInteger .int32 value
  | .uint64 => encodeInteger .uint64 value
  | .int64 => encodeInteger .int64 value
  | .bool =>
      if ¬ (value.number = 0 ∨ value.number = 1) then .error "Boolean field requires zero or one."
      else encodeInteger .uint8 value
  | _ => .error "Field is not an integer or boolean."

/-- `ParseInteger` -/
def parseInteger (text : Text) : Except String IntegerValue :=
  parse 21 "Integer text must contain a decimal integer."
    "Integer text is invalid or outside 64-bit range." text

/-! ## Fields, entities and the host -/

/-- `KeelEntityInfo`; `sized` is that it has the size of the structure, `valid` that its
handle is not the invalid one. -/
structure KeelEntityInfo where
  sized : Bool
  index : Int
  source2Handle : Nat
  valid : Bool
  epoch : Nat
  reserved : Nat
deriving DecidableEq

/-- `Consistent` -/
def consistent (value : KeelEntityInfo) : Bool :=
  value.sized && 0 ≤ value.index && value.reserved == 0 && value.epoch != 0 && value.valid

/-- `Identity` -/
def sameIdentity (left right : KeelEntityInfo) : Bool :=
  consistent left && consistent right && left.index == right.index &&
    left.source2Handle == right.source2Handle && left.epoch == right.epoch

/-- A field as `Resolve` makes it. -/
structure Field where
  service : Nat
  handle : Nat
  type : SchemaType
  size : Nat
  sized : size = valueSize type

structure Entity where
  service : Nat
  handle : Nat
  identity : KeelEntityInfo

/-- What the host answers to one `describe`, and to the thread check before it. -/
structure Described where
  thread : KeelResult
  result : KeelResult
  current : KeelEntityInfo

/-- What the host answers during one operation. -/
structure Host where
  description : KeelResult → String
  thread : KeelResult
  /-- `WriteCapabilities`: the thread check, the answer and whether it has the numeric fields. -/
  capable : KeelResult
  capabilities : Option (KeelResult × Bool)
  before : Described
  read : KeelResult
  after : Described
  write : KeelResult

/-- The memory of the field, and `active_writes_`. -/
structure State where
  memory : List UInt8
  activeWrites : Nat

namespace Host

/-- `Check` -/
def check (host : Host) (result : KeelResult) (operation : String) : Except String Unit :=
  if result ≠ .ok then .error (operation ++ ": " ++ host.description result ++ ".") else .ok ()

/-- `Service::Thread` -/
def checkThread (host : Host) (result : KeelResult) : Except String Unit :=
  host.check result "Entity operation"

/-- `Service::Describe` without a construction -/
def describe (host : Host) (entity : Entity) (answer : Described) : Except String Unit := do
  host.checkThread answer.thread
  if entity.handle = 0 then throw "Entity handle is closed."
  host.check answer.result "Validate entity"
  if !sameIdentity entity.identity answer.current then throw "Entity identity changed."

/-- `Service::WriteCapabilities`, whether it has the numeric fields -/
def writeCapabilities (host : Host) : Except String Bool := do
  host.checkThread host.capable
  match host.capabilities with
  | none => throw "Entity write service is unavailable."
  | some (result, numeric) =>
      host.check result "Entity write capabilities"
      return numeric

end Host

section Access
variable (host : Host) (entity : Entity) (field : Field)

/-- The checks of handles and owner that `Read` and `Write` begin with. -/
def Entity.handles (size : Nat) : Except String Unit := do
  if entity.handle = 0 ∨ field.handle = 0 then throw "Entity or schema field is closed."
  if field.service ≠ entity.service ∨ field.size ≠ size then
    throw "Schema field belongs to another owner or has a different type."

/-- `Entity::Read`, into eight zero bytes. -/
def Entity.read (size : Nat) (s : State) : Except String (List UInt8) := do
  entity.handles field size
  host.describe entity host.before
  host.check host.read "Read entity field"
  host.describe entity host.after
  return s.memory.take size ++ List.replicate (8 - size) 0

/-- The checks of `Entity::Write` before the host's write. -/
def Entity.writable (size : Nat) (s : State) : Except String Unit := do
  entity.handles field size
  host.checkThread host.thread
  if 8 ≤ s.activeWrites then throw "Entity write recursion limit (8) reached."
  if !(← host.writeCapabilities) then
    throw "Entity field writes are unsupported by this game build."
  host.check host.before.result "Validate entity write"
  if !sameIdentity entity.identity host.before.current then
    throw "Entity identity changed before the write."

/-- `Entity::Write`; the host stores the bytes if it answers that it did. -/
def Entity.write (value : List UInt8) (size : Nat) (s : State) : Except String Unit × State :=
  match entity.writable host field size s with
  | .error message => (.error message, s)
  | .ok () =>
      match host.check host.write "Write entity field" with
      | .error message => (.error message, s)
      | .ok () => (.ok (), { s with memory := value.take size ++ s.memory.drop size })

/-- `Entity::SetInteger`, for a cell -/
def Entity.setInteger (cell : Int) (s : State) : Except String Unit × State :=
  match integerBytes field.type (.int64 cell) with
  | .error message => (.error message, s)
  | .ok bytes => entity.write host field bytes field.size s

/-- `Entity::SetIntegerText` -/
def Entity.setIntegerText (text : Text) (s : State) : Except String Unit × State :=
  match parseInteger text >>= integerBytes field.type with
  | .error message => (.error message, s)
  | .ok bytes => entity.write host field bytes field.size s

/-- The end of `Entity::Integer`. -/
def toCell : IntegerValue → Except String Int
  | .int64 value =>
      if 2 ^ 31 - 1 < value then .error "Integer exceeds SourcePawn cell range; use decimal text."
      else if value < -2 ^ 31 then
        .error "Integer exceeds SourcePawn cell range; use decimal text."
      else .ok value
  | .uint64 value =>
      if 2 ^ 31 - 1 < value then .error "Integer exceeds SourcePawn cell range; use decimal text."
      else .ok value

/-- `Entity::Integer` -/
def Entity.integer (s : State) : Except String Int := do
  integerType field.type
  let bytes ← entity.read host field field.size s
  toCell (← decodeInteger field.type bytes)

/-- `Entity::IntegerText` -/
def Entity.integerText (s : State) : Except String Text := do
  integerType field.type
  let bytes ← entity.read host field field.size s
  let source ← decodeInteger field.type bytes
  return source.text

end Access

/-! ## The integer fields are exact -/

/-- The kind of an integer or boolean field. -/
def SchemaType.kind : SchemaType → Option Kind
  | .bool => some .boolean
  | .char | .uint8 => some (.integer .uint8 IntType.uint8_short)
  | .int8 => some (.integer .int8 IntType.int8_short)
  | .int16 => some (.integer .int16 IntType.int16_short)
  | .uint16 => some (.integer .uint16 IntType.uint16_short)
  | .int32 => some (.integer .int32 IntType.int32_short)
  | .uint32 => some (.integer .uint32 IntType.uint32_short)
  | .int64 => some (.integer .int64 IntType.int64_short)
  | .uint64 => some (.integer .uint64 IntType.uint64_short)
  | .float32 | .float64 | .entityHandle | .vector3 => none

/-- The bytes of a field of the kind. -/
def storage : Kind → IntType
  | .boolean => .uint8
  | .integer t _ => t

theorem storage_short (k : Kind) : (storage k).bytes ≤ 8 := by
  cases k with
  | boolean => decide
  | integer t short => exact short

theorem storage_inRange {k : Kind} {n : Int} (range : k.InRange n) : (storage k).InRange n := by
  cases k with
  | boolean => exact ⟨range.1, range.2.trans (by decide)⟩
  | integer t short => exact range

theorem valueSize_kind {type : SchemaType} {k : Kind} (typed : type.kind = some k) :
    valueSize type = (storage k).bytes := by
  cases type <;> simp only [SchemaType.kind] at typed <;> cases typed <;> rfl

theorem integerType_kind {type : SchemaType} {k : Kind} (typed : type.kind = some k) :
    integerType type = .ok () := by
  cases type <;> simp only [SchemaType.kind] at typed <;> cases typed <;> rfl

theorem load_toNat {t : IntType} {data : List UInt8} (room : t.bytes ≤ data.length)
    (plain : t.signed = false) : ((t.load data).toNat : Int) = t.load data := by
  have low := (IntType.load_inRange (t := t) room).1
  rw [IntType.least, if_neg (by simp [plain])] at low
  exact Int.toNat_of_nonneg low

/-- `DecodeInteger` reads the bytes of the field's type. -/
theorem decodeInteger_number {type : SchemaType} {k : Kind} {data : List UInt8}
    (typed : type.kind = some k) (room : data.length = 8)
    (range : k.InRange ((storage k).load data)) :
    ∃ source, decodeInteger type data = .ok source ∧
      source.number = (storage k).load data := by
  have short : ∀ {t : IntType}, t.bytes ≤ 8 → t.bytes ≤ data.length := fun bound => room ▸ bound
  cases type <;> simp only [SchemaType.kind] at typed <;> cases typed
  case bool.refl =>
    have high : ¬ 1 < IntType.uint8.load data := not_lt.mpr range.2
    refine ⟨.uint64 (IntType.uint8.load data).toNat, ?_, load_toNat (short (by decide)) rfl⟩
    rw [decodeInteger, if_neg high]
  all_goals
    simp only [decodeInteger, storage, Except.ok.injEq, exists_eq_left', IntegerValue.number]
  all_goals exact load_toNat (short (by decide)) rfl

theorem encodeInteger_inRange {t : IntType} {source : IntegerValue}
    (range : t.InRange source.number) :
    encodeInteger t source = .ok (t.store source.number (List.replicate 8 0)) := by
  rw [encodeInteger, narrow_ok range]
  rfl

theorem encodeInteger_outside {t : IntType} {source : IntegerValue}
    (range : ¬ t.InRange source.number) :
    encodeInteger t source = .error "Integer is outside the schema field's range." := by
  rw [encodeInteger, narrow_error range]
  rfl

/-- `IntegerBytes` lays out a number of the kind. -/
theorem integerBytes_inRange {type : SchemaType} {k : Kind} {source : IntegerValue}
    (typed : type.kind = some k) (range : k.InRange source.number) :
    integerBytes type source = .ok ((storage k).store source.number (List.replicate 8 0)) := by
  cases type <;> simp only [SchemaType.kind] at typed <;> cases typed <;>
    simp only [integerBytes]
  case bool.refl =>
    have flag : source.number = 0 ∨ source.number = 1 := by
      obtain ⟨low, high⟩ := range
      omega
    rw [if_neg (not_not.mpr flag)]
    exact encodeInteger_inRange (storage_inRange (k := .boolean) range)
  all_goals exact encodeInteger_inRange range

/-- `IntegerBytes` refuses the other numbers. -/
theorem integerBytes_outside {type : SchemaType} {k : Kind} {source : IntegerValue}
    (typed : type.kind = some k) (range : ¬ k.InRange source.number) :
    ∃ message, integerBytes type source = .error message := by
  cases type <;> simp only [SchemaType.kind] at typed <;> cases typed <;>
    simp only [integerBytes]
  case bool.refl =>
    have flag : ¬ (source.number = 0 ∨ source.number = 1) := by
      intro flag
      apply range
      constructor <;> omega
    rw [if_pos flag]
    exact ⟨_, rfl⟩
  all_goals exact ⟨_, encodeInteger_outside range⟩

theorem toCell_inRange {source : IntegerValue} (range : IntType.int32.InRange source.number) :
    toCell source = .ok source.number := by
  have low : -2 ^ 31 ≤ source.number := range.1
  have high : source.number ≤ 2 ^ 31 - 1 := range.2
  cases source with
  | int64 value =>
      simp only [IntegerValue.number] at low high ⊢
      rw [toCell, if_neg (by omega), if_neg (by omega)]
  | uint64 value =>
      simp only [IntegerValue.number] at low high ⊢
      rw [toCell, if_neg (by omega)]

theorem toCell_outside {source : IntegerValue} (range : ¬ IntType.int32.InRange source.number) :
    ∃ message, toCell source = .error message := by
  have outside : ¬ (-2 ^ 31 ≤ source.number ∧ source.number ≤ 2 ^ 31 - 1) := range
  cases source with
  | int64 value =>
      simp only [IntegerValue.number] at outside
      rw [toCell]
      split
      · exact ⟨_, rfl⟩
      · rw [if_pos (by omega)]
        exact ⟨_, rfl⟩
  | uint64 value =>
      simp only [IntegerValue.number] at outside
      rw [toCell, if_pos (by omega)]
      exact ⟨_, rfl⟩

/-! ## Reading and writing a live field -/

/-- The answers to one `describe` of the entity while it is alive. -/
structure Alive (entity : Entity) (answer : Described) : Prop where
  thread : answer.thread = .ok
  result : answer.result = .ok
  same : sameIdentity entity.identity answer.current = true

/-- The handles are open, and the host reads. -/
structure Readable (host : Host) (entity : Entity) (field : Field) : Prop where
  entity_open : entity.handle ≠ 0
  field_open : field.handle ≠ 0
  owner : field.service = entity.service
  before : Alive entity host.before
  read : host.read = .ok
  after : Alive entity host.after

/-- The host writes too, and there are fewer than eight writes under way. -/
structure Writable (host : Host) (s : State) : Prop where
  thread : host.thread = .ok
  capable : host.capable = .ok
  capabilities : host.capabilities = some (.ok, true)
  depth : s.activeWrites < 8
  write : host.write = .ok

/-- The field has a value of the kind, which is `n`. -/
def Reads (host : Host) (entity : Entity) (field : Field) (k : Kind) (s : State) (n : Int) : Prop :=
  Readable host entity field ∧ field.type.kind = some k ∧ s.memory.length = field.size ∧
    (storage k).load s.memory = n ∧ k.InRange n

/-- Every stored integer of a field, and a boolean that is zero or one, is a value of the
field's kind. -/
theorem reads_stored {k : Kind} {host : Host} {entity : Entity}
    {field : Field} {s : State}
    (readable : Readable host entity field) (typed : field.type.kind = some k)
    (length : s.memory.length = field.size)
    (stored : k = .boolean → IntType.uint8.load s.memory = 0 ∨ IntType.uint8.load s.memory = 1) :
    Reads host entity field k s ((storage k).load s.memory) := by
  refine ⟨readable, typed, length, rfl, ?_⟩
  cases k with
  | boolean =>
      rcases stored rfl with zero | one
      · simp only [storage, zero, Kind.InRange]
        decide
      · simp only [storage, one, Kind.InRange]
        decide
  | integer t short =>
      have size := field.sized.trans (valueSize_kind typed)
      exact IntType.load_inRange (length.trans size).ge

def Writes (host : Host) (entity : Entity) (field : Field) (k : Kind) (s : State) (n : Int) :
    Prop :=
  Reads host entity field k s n ∧ Writable host s

/-- The integer accessors of a field. -/
def integerField (host : Host) (entity : Entity) (field : Field) : Accessors State where
  readText := entity.integerText host field
  writeText := entity.setIntegerText host field
  readCell := entity.integer host field
  writeCell := entity.setInteger host field

section Live
variable {host : Host} {entity : Entity} {field : Field} {k : Kind} {s : State} {n : Int}

theorem check_ok {result : KeelResult} (answered : result = .ok) (operation : String) :
    host.check result operation = .ok () := by
  rw [Host.check, if_neg (not_not.mpr answered)]

theorem describe_alive {answer : Described} (handle : entity.handle ≠ 0)
    (alive : Alive entity answer) : host.describe entity answer = .ok () := by
  simp only [Host.describe, Host.checkThread, check_ok alive.thread, check_ok alive.result,
    if_neg handle, alive.same]
  rfl

theorem handles_open (readable : Readable host entity field) :
    entity.handles field field.size = .ok () := by
  have handles : ¬ (entity.handle = 0 ∨ field.handle = 0) := by
    simp [readable.entity_open, readable.field_open]
  have owner : ¬ (field.service ≠ entity.service ∨ field.size ≠ field.size) := by
    simp [readable.owner]
  rw [Entity.handles, if_neg handles, if_neg owner]
  rfl

theorem read_live (readable : Readable host entity field) :
    entity.read host field field.size s =
      .ok (s.memory.take field.size ++ List.replicate (8 - field.size) 0) := by
  simp only [Entity.read, handles_open readable,
    describe_alive readable.entity_open readable.before, check_ok readable.read,
    describe_alive readable.entity_open readable.after]
  rfl

theorem Reads.decode (reads : Reads host entity field k s n) :
    integerType field.type = .ok () ∧ ∃ bytes source,
      entity.read host field field.size s = .ok bytes ∧
      decodeInteger field.type bytes = .ok source ∧ source.number = n := by
  obtain ⟨readable, typed, length, stored, range⟩ := reads
  have size : field.size = (storage k).bytes := field.sized.trans (valueSize_kind typed)
  have short := storage_short k
  have whole : s.memory.take field.size = s.memory := List.take_of_length_le length.le
  have room : (s.memory ++ List.replicate (8 - field.size) (0 : UInt8)).length = 8 := by
    rw [List.length_append, List.length_replicate]
    omega
  have loaded : (storage k).load (s.memory ++ List.replicate (8 - field.size) 0) = n := by
    rw [← stored, IntType.load, IntType.load, List.take_append_of_le_length (by omega)]
  obtain ⟨source, decoded, number⟩ := decodeInteger_number typed room (loaded ▸ range)
  refine ⟨integerType_kind typed, _, source, read_live readable, ?_, number.trans loaded⟩
  rw [whole]
  exact decoded

theorem Reads.integerText (reads : Reads host entity field k s n) :
    entity.integerText host field s = .ok (numberText n) := by
  obtain ⟨typed, bytes, source, read, decoded, rfl⟩ := reads.decode
  simp only [Entity.integerText, typed, read, decoded, bind, Except.bind]
  rfl

theorem Reads.integer (reads : Reads host entity field k s n) :
    ∃ source : IntegerValue, source.number = n ∧ entity.integer host field s = toCell source := by
  obtain ⟨typed, bytes, source, read, decoded, number⟩ := reads.decode
  refine ⟨source, number, ?_⟩
  simp only [Entity.integer, typed, read, decoded, bind, Except.bind]

theorem writable_live (readable : Readable host entity field) (writable : Writable host s) :
    entity.writable host field field.size s = .ok () := by
  have depth : ¬ 8 ≤ s.activeWrites := not_le.mpr writable.depth
  simp only [Entity.writable, handles_open readable, Host.checkThread, Host.writeCapabilities,
    check_ok writable.thread, check_ok writable.capable, writable.capabilities, if_neg depth,
    check_ok rfl, check_ok readable.before.result, readable.before.same]
  rfl

/-- A live field takes the bytes. -/
theorem write_live {value : List UInt8} (readable : Readable host entity field)
    (writable : Writable host s) :
    entity.write host field value field.size s =
      (.ok (), { s with memory := value.take field.size ++ s.memory.drop field.size }) := by
  rw [Entity.write, writable_live readable writable]
  simp only [check_ok writable.write]

/-- Writing a number of the kind. -/
theorem Writes.write {m : Int} (writes : Writes host entity field k s n) (range : k.InRange m) :
    ∃ s', entity.write host field ((storage k).store m (List.replicate 8 0)) field.size s =
        (.ok (), s') ∧ Writes host entity field k s' m ∧ (m = n → s' = s) := by
  obtain ⟨⟨readable, typed, length, stored, _⟩, writable⟩ := writes
  have size : field.size = (storage k).bytes := field.sized.trans (valueSize_kind typed)
  have stores : ((storage k).store m (List.replicate 8 0)).take field.size ++
      s.memory.drop field.size = (storage k).store m s.memory := by
    rw [IntType.store, size, List.take_append_of_le_length (by simp),
      List.take_of_length_le (by simp), IntType.store]
  refine ⟨_, write_live readable writable, ⟨⟨readable, typed, ?_, ?_, range⟩, ?_⟩, ?_⟩
  · rw [stores, IntType.store_length (by omega), length]
  · rw [stores, IntType.load_store (storage_inRange range)]
  · exact ⟨writable.thread, writable.capable, writable.capabilities, writable.depth,
      writable.write⟩
  · intro same
    rw [stores, same, ← stored, IntType.store_load (by omega)]

theorem setIntegerText_parsed {text : Text} {source : IntegerValue}
    (parsed : parseInteger text = .ok source) :
    entity.setIntegerText host field text s =
      match integerBytes field.type source with
      | .error message => (.error message, s)
      | .ok bytes => entity.write host field bytes field.size s := by
  rw [Entity.setIntegerText, parsed]
  rfl

/-- Only the number counts, not the member of the variant that carries it. -/
theorem integerBytes_congr {source other : IntegerValue} (same : source.number = other.number)
    (type : SchemaType) : integerBytes type source = integerBytes type other := by
  simp only [integerBytes, encodeInteger, narrow, same]

end Live

/-- The integer accessors of a field are exact, for texts of up to twenty-one bytes. -/
theorem integerField_exact (host : Host) (entity : Entity) (field : Field) (k : Kind) :
    Exact (integerField host entity field) k 21 (Reads host entity field k)
      (Writes host entity field k) where
  range := fun s n reads => reads.2.2.2.2
  reads := fun s n writes => writes.1
  readText := fun s n reads => reads.integerText
  readCell := fun s n reads range => by
    obtain ⟨source, rfl, read⟩ := reads.integer
    exact read.trans (toCell_inRange range)
  rejectCell := fun s n reads range => by
    obtain ⟨source, rfl, read⟩ := reads.integer
    obtain ⟨message, outside⟩ := toCell_outside range
    exact ⟨message, read.trans outside⟩
  writeText := fun s n text m writes accepted => by
    obtain ⟨denotes, short, range⟩ := accepted
    obtain ⟨low, high⟩ := range.bounds
    obtain ⟨source, parsed, rfl⟩ := parse_of_denotes _ _ denotes short low high
    obtain ⟨s', written, after, same⟩ := writes.write range
    refine ⟨s', ?_, after, same⟩
    show entity.setIntegerText host field text s = _
    rw [setIntegerText_parsed parsed, integerBytes_inRange writes.1.2.1 range]
    exact written
  rejectText := fun s n text writes refused => by
    cases parsed : parseInteger text with
    | error message =>
        refine ⟨message, ?_⟩
        show entity.setIntegerText host field text s = _
        rw [Entity.setIntegerText, parsed]
        rfl
    | ok source =>
        obtain ⟨denotes, short⟩ := parse_denotes parsed
        have outside : ¬ k.InRange source.number := fun range =>
          refused ⟨source.number, denotes, short, range⟩
        obtain ⟨message, failed⟩ := integerBytes_outside writes.1.2.1 outside
        refine ⟨message, ?_⟩
        show entity.setIntegerText host field text s = _
        rw [setIntegerText_parsed parsed, failed]
  writeCell := fun s n cell writes range => by
    have word : (Kind.integer .int32 IntType.int32_short).InRange cell := range
    have short := plain_length (denotes_numberText cell) (plain_numberText cell) word.bounds.1
      word.bounds.2
    obtain ⟨source, parsed, number⟩ := parse_of_denotes
      "Integer text must contain a decimal integer."
      "Integer text is invalid or outside 64-bit range." (denotes_numberText cell)
      (short.trans (by decide : 20 ≤ 21)) word.bounds.1 word.bounds.2
    have same : source.number = (IntegerValue.int64 cell).number := number
    show entity.setInteger host field cell s =
      entity.setIntegerText host field (numberText cell) s
    rw [setIntegerText_parsed parsed, integerBytes_congr same]
    rfl

end Source2Root.EntityFields
