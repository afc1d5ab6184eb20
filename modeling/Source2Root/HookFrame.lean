import Mathlib
import Source2Root.NativeIntegers

/-!
# Frames of native hooks

`extensions/dhooks/frame.cpp`: the private snapshot of a native frame that a callback
reads and edits, and `Commit`, which writes it back.  The scalar of a value is a union
of eight bytes, of which each member takes the first; a boolean takes four of them.
Reading float text is a parameter, and the getters of floats are left out.
-/

set_option autoImplicit false

namespace Source2Root.HookFrame

open Integers NativeIntegers

/-- `KeelHookValueType`; a native frame may carry a code that is none of them. -/
inductive ValueType where
  | void
  | bool
  | int8
  | uint8
  | int16
  | uint16
  | int32
  | uint32
  | int64
  | uint64
  | pointer
  | float32
  | float64
  | unknown (code : Nat)
deriving DecidableEq, Repr

/-- `KeelHookValue` -/
structure KeelHookValue where
  type : ValueType
  reserved : Nat
  scalar : List UInt8
  size : scalar.length = 8
deriving DecidableEq

namespace KeelHookValue

/-- The member of the union that is an integer of the type. -/
def load (t : IntType) (value : KeelHookValue) : Int := t.load value.scalar

/-- The assignment to that member; the other bytes of the union stay. -/
def store (t : IntType) (short : t.bytes ≤ 8) (n : Int) (value : KeelHookValue) : KeelHookValue :=
  { value with
    scalar := t.store n value.scalar
    size := by rw [IntType.store_length (value.size ▸ short), value.size] }

/-- `scalar.pointer` -/
def pointer (value : KeelHookValue) : Int := value.load .uint64

end KeelHookValue

/-! ## Integers of a value -/

/-- `ReadInteger` -/
def readInteger (value : KeelHookValue) : Except String IntegerValue :=
  match value.type with
  | .bool => .ok (.uint64 (value.load .uint32).toNat)
  | .int8 => .ok (.int64 (value.load .int8))
  | .uint8 => .ok (.uint64 (value.load .uint8).toNat)
  | .int16 => .ok (.int64 (value.load .int16))
  | .uint16 => .ok (.uint64 (value.load .uint16).toNat)
  | .int32 => .ok (.int64 (value.load .int32))
  | .uint32 => .ok (.uint64 (value.load .uint32).toNat)
  | .int64 => .ok (.int64 (value.load .int64))
  | .uint64 => .ok (.uint64 (value.load .uint64).toNat)
  | _ => .error "Hook value is not an integer or boolean."

def outside : String := "Integer is outside the hook value's range."

/-- One case of `WriteInteger`. -/
def writeAs (t : IntType) (short : t.bytes ≤ 8) (value : KeelHookValue) (source : IntegerValue) :
    Except String KeelHookValue := do
  let number ← narrow outside t source
  return value.store t short number

/-- `WriteInteger`, which gives the value after its assignment. -/
def writeInteger (value : KeelHookValue) (source : IntegerValue) : Except String KeelHookValue :=
  match value.type with
  | .bool => do
      let number ← narrow outside .uint32 source
      if 1 < number then throw "Boolean hook value requires zero or one."
      else return value.store .uint32 IntType.uint32_short number
  | .int8 => writeAs .int8 IntType.int8_short value source
  | .uint8 => writeAs .uint8 IntType.uint8_short value source
  | .int16 => writeAs .int16 IntType.int16_short value source
  | .uint16 => writeAs .uint16 IntType.uint16_short value source
  | .int32 => writeAs .int32 IntType.int32_short value source
  | .uint32 => writeAs .uint32 IntType.uint32_short value source
  | .int64 => writeAs .int64 IntType.int64_short value source
  | .uint64 => writeAs .uint64 IntType.uint64_short value source
  | _ => .error "Hook value is not an integer or boolean."

/-! ## Floats of a value -/

/-- `std::numeric_limits<float>::max()` -/
def floatMax : Float := (Float32.ofBits 0x7f7fffff).toFloat

/-- `WriteNumber` -/
def writeNumber (value : KeelHookValue) (number : Float) : Except String KeelHookValue :=
  if !number.isFinite then .error "Hook float setter requires a finite value."
  else if value.type = .float64 then
    .ok (value.store .uint64 IntType.uint64_short number.toBits.toNat)
  else if value.type = .float32 then
    if floatMax < number.abs then .error "Hook float32 value is out of range."
    else .ok (value.store .uint32 IntType.uint32_short number.toFloat32.toBits.toNat)
  else .error "Hook value is not a float."

/-! ## The snapshot -/

/-- `KH_PHASE_PRE`, `KH_PHASE_POST` -/
def phasePre : Nat := 1
def phasePost : Nat := 2

structure Frame where
  phase : Nat
  flags : Nat
  arguments : List KeelHookValue
  result : KeelHookValue
  retire : Bool := false
deriving DecidableEq

/-- The part of a `Definition` that a frame is held against. -/
structure Prototype where
  result : ValueType
  arguments : List ValueType
deriving DecidableEq

/-- `KeelHookFrame`; its arguments are as many as `argument_count` says.  `sized` is that
it has the size of the structure, `addressed` that the arguments' pointer is not null. -/
structure KeelHookFrame where
  sized : Bool
  target : Nat
  phase : Nat
  flags : Nat
  addressed : Bool
  arguments : List KeelHookValue
  result : KeelHookValue
deriving DecidableEq

/-- `Frame::Frame` for a native frame; `KH_FRAME_ORIGINAL_CALLED | KH_FRAME_RECALLED` is 3. -/
def Frame.ofNative (frame : KeelHookFrame) (definition : Prototype) : Except String Frame :=
  if !frame.sized || (frame.phase != phasePre && frame.phase != phasePost) ||
      frame.arguments.length != definition.arguments.length ||
      (frame.arguments.length != 0 && !frame.addressed) ||
      frame.result.type != definition.result || frame.result.reserved != 0 ||
      frame.flags &&& 0xfffffffc != 0 then
    .error "Invalid native hook frame."
  else if (frame.arguments.zip definition.arguments).any fun (value, type) =>
      value.type != type || value.reserved != 0 then
    .error "Native hook argument type mismatch."
  else
    .ok { phase := frame.phase, flags := frame.flags, arguments := frame.arguments,
          result := frame.result }

namespace Frame

/-- `Value` -/
def value (frame : Frame) (slot : Nat) : Except String KeelHookValue :=
  match slot with
  | 0 => .ok frame.result
  | index + 1 =>
      match frame.arguments[index]? with
      | some value => .ok value
      | none => .error "Hook value slot is out of range."

/-- `Writable`: the value that the reference is to. -/
def writable (frame : Frame) (slot : Nat) : Except String KeelHookValue := do
  let value ← frame.value slot
  if slot ≠ 0 ∧ frame.phase ≠ phasePre then throw "Post hooks cannot change arguments."
  else return value

/-- The assignment through that reference. -/
def assign (frame : Frame) (slot : Nat) (value : KeelHookValue) : Frame :=
  match slot with
  | 0 => { frame with result := value }
  | index + 1 => { frame with arguments := frame.arguments.set index value }

/-- `Integer` -/
def integer (frame : Frame) (slot : Nat) : Except String Int := do
  let source ← readInteger (← frame.value slot)
  narrow outside .int32 source

/-- `IntegerText` -/
def integerText (frame : Frame) (slot : Nat) : Except String Text := do
  let source ← readInteger (← frame.value slot)
  return source.text

/-- `IsNull` -/
def isNull (frame : Frame) (slot : Nat) : Except String Bool := do
  let value ← frame.value slot
  if value.type ≠ .pointer then throw "Hook value is not a pointer."
  else return value.pointer == 0

/-- `SetInteger`, for a cell -/
def setInteger (slot : Nat) (cell : Int) (frame : Frame) : Except String Frame := do
  let value ← frame.writable slot
  return frame.assign slot (← writeInteger value (.int64 cell))

/-- `SetIntegerText` -/
def setIntegerText (slot : Nat) (text : Text) (frame : Frame) : Except String Frame := do
  let source ← parse 20 "Hook integer text is invalid."
    "Hook integer text is invalid or out of range." text
  let value ← frame.writable slot
  return frame.assign slot (← writeInteger value source)

/-- `SetNumber` -/
def setNumber (slot : Nat) (number : Float32) (frame : Frame) : Except String Frame := do
  let value ← frame.writable slot
  return frame.assign slot (← writeNumber value number.toFloat)

/-- `SetNumberText`; `fromChars` is `std::from_chars` for a double, when it takes the
whole text. -/
def setNumberText (fromChars : Text → Option Float) (slot : Nat) (text : Text) (frame : Frame) :
    Except String Frame := do
  if text.isEmpty || 64 < text.length then throw "Hook float text is invalid."
  else
    match fromChars text with
    | none => throw "Hook float text is invalid or out of range."
    | some number =>
        let value ← frame.writable slot
        return frame.assign slot (← writeNumber value number)

/-- `SetNull` -/
def setNull (slot : Nat) (frame : Frame) : Except String Frame := do
  let value ← frame.writable slot
  if value.type ≠ .pointer then throw "Hook value is not a pointer."
  else return frame.assign slot (value.store .uint64 IntType.uint64_short 0)

/-- `Copy` -/
def copy (destination source : Nat) (frame : Frame) : Except String Frame := do
  let copied ← frame.value source
  let value ← frame.writable destination
  if value.type = .void ∨ value.type ≠ copied.type then
    throw "Hook copy requires identical non-void types."
  else return frame.assign destination copied

/-- `KH_ACTION_CONTINUE`, `KH_ACTION_OVERRIDE`, `KH_ACTION_SUPERSEDE` -/
def actionContinue : Int := 0
def actionOverride : Int := 1
def actionSupersede : Int := 2

/-- `Commit`, which gives the native frame after its assignments. -/
def commit (snapshot : Frame) (frame : KeelHookFrame) (action : Int) : KeelHookFrame :=
  let frame :=
    if snapshot.phase = phasePre then { frame with arguments := snapshot.arguments } else frame
  if action ≠ actionContinue then { frame with result := snapshot.result } else frame

end Frame

/-! ## The integer slots are exact -/

/-- The kind of an integer or boolean type. -/
def ValueType.kind : ValueType → Option Kind
  | .bool => some .boolean
  | .int8 => some (.integer .int8 IntType.int8_short)
  | .uint8 => some (.integer .uint8 IntType.uint8_short)
  | .int16 => some (.integer .int16 IntType.int16_short)
  | .uint16 => some (.integer .uint16 IntType.uint16_short)
  | .int32 => some (.integer .int32 IntType.int32_short)
  | .uint32 => some (.integer .uint32 IntType.uint32_short)
  | .int64 => some (.integer .int64 IntType.int64_short)
  | .uint64 => some (.integer .uint64 IntType.uint64_short)
  | .void | .pointer | .float32 | .float64 | .unknown _ => none

/-- The member of the union for a kind. -/
def storage : Kind → IntType
  | .boolean => .uint32
  | .integer t _ => t

theorem storage_short (k : Kind) : (storage k).bytes ≤ 8 := by
  cases k with
  | boolean => decide
  | integer t short => exact short

theorem KeelHookValue.load_inRange {t : IntType} (short : t.bytes ≤ 8) (value : KeelHookValue) :
    t.InRange (value.load t) := IntType.load_inRange (value.size ▸ short)

@[simp] theorem KeelHookValue.load_store {t : IntType} (short : t.bytes ≤ 8) {n : Int}
    (range : t.InRange n) (value : KeelHookValue) : (value.store t short n).load t = n :=
  IntType.load_store range

theorem KeelHookValue.store_load {t : IntType} (short : t.bytes ≤ 8) (value : KeelHookValue) :
    value.store t short (value.load t) = value := by
  have scalar := IntType.store_load (t := t) (value.size ▸ short : t.bytes ≤ value.scalar.length)
  cases value
  simp only [store, load, mk.injEq, true_and]
  exact scalar

@[simp] theorem KeelHookValue.store_type (t : IntType) (short : t.bytes ≤ 8) (n : Int)
    (value : KeelHookValue) : (value.store t short n).type = value.type := rfl

theorem load_toNat {t : IntType} (short : t.bytes ≤ 8) (plain : t.signed = false)
    (value : KeelHookValue) : ((value.load t).toNat : Int) = value.load t := by
  have low := (value.load_inRange short).1
  rw [IntType.least, if_neg (by simp [plain])] at low
  exact Int.toNat_of_nonneg low

/-- `ReadInteger` reads the member of the value's type. -/
theorem readInteger_number {value : KeelHookValue} {k : Kind} (typed : value.type.kind = some k) :
    ∃ source, readInteger value = .ok source ∧ source.number = value.load (storage k) := by
  cases type : value.type <;> rw [type] at typed <;> simp only [ValueType.kind] at typed <;>
    cases typed <;> simp only [readInteger, type, storage, Except.ok.injEq, exists_eq_left',
      IntegerValue.number]
  all_goals exact load_toNat (by decide) rfl value

theorem writeAs_inRange {t : IntType} {short : t.bytes ≤ 8} {value : KeelHookValue}
    {source : IntegerValue} (range : t.InRange source.number) :
    writeAs t short value source = .ok (value.store t short source.number) := by
  rw [writeAs, narrow_ok range]
  rfl

theorem writeAs_outside {t : IntType} {short : t.bytes ≤ 8} {value : KeelHookValue}
    {source : IntegerValue} (range : ¬ t.InRange source.number) :
    writeAs t short value source = .error outside := by
  rw [writeAs, narrow_error range]
  rfl

/-- `WriteInteger` assigns a number of the kind. -/
theorem writeInteger_inRange {value : KeelHookValue} {k : Kind} {source : IntegerValue}
    (typed : value.type.kind = some k) (range : k.InRange source.number) :
    writeInteger value source =
      .ok (value.store (storage k) (storage_short k) source.number) := by
  cases type : value.type <;> rw [type] at typed <;> simp only [ValueType.kind] at typed <;>
    cases typed <;> simp only [writeInteger, type]
  case bool.refl =>
    obtain ⟨low, high⟩ := range
    have word : IntType.uint32.InRange source.number := by
      constructor
      · exact low
      · exact high.trans (by decide)
    rw [narrow_ok word]
    show (if 1 < source.number then throw _ else pure _) = _
    rw [if_neg (by omega)]
    rfl
  all_goals exact writeAs_inRange range

/-- `WriteInteger` refuses the other numbers. -/
theorem writeInteger_outside {value : KeelHookValue} {k : Kind} {source : IntegerValue}
    (typed : value.type.kind = some k) (range : ¬ k.InRange source.number) :
    ∃ message, writeInteger value source = .error message := by
  cases type : value.type <;> rw [type] at typed <;> simp only [ValueType.kind] at typed <;>
    cases typed <;> simp only [writeInteger, type]
  case bool.refl =>
    by_cases word : IntType.uint32.InRange source.number
    · have low : 0 ≤ source.number := word.1
      have high : 1 < source.number := by
        by_contra small
        exact range ⟨low, by omega⟩
      rw [narrow_ok word]
      show ∃ message, (if 1 < source.number then throw _ else pure _) = _
      rw [if_pos high]
      exact ⟨_, rfl⟩
    · rw [narrow_error word]
      exact ⟨_, rfl⟩
  all_goals exact ⟨_, writeAs_outside range⟩

/-- `WriteInteger` refuses the other types. -/
theorem writeInteger_other {value : KeelHookValue} {source : IntegerValue}
    (typed : value.type.kind = none) :
    writeInteger value source = .error "Hook value is not an integer or boolean." := by
  cases type : value.type <;> rw [type] at typed <;>
    simp only [ValueType.kind, reduceCtorEq] at typed <;> rw [writeInteger, type]

theorem Frame.value_of_writable {frame : Frame} {slot : Nat} {value : KeelHookValue}
    (writable : frame.writable slot = .ok value) :
    frame.value slot = .ok value ∧ (slot = 0 ∨ frame.phase = phasePre) := by
  obtain ⟨found, read, checked⟩ := bind_eq_ok.mp writable
  split at checked
  · cases checked
  · rename_i guard
    cases checked
    exact ⟨read, by omega⟩

theorem Frame.writable_of_value {frame : Frame} {slot : Nat} {value : KeelHookValue}
    (read : frame.value slot = .ok value) (allowed : slot = 0 ∨ frame.phase = phasePre) :
    frame.writable slot = .ok value := by
  have guard : ¬ (slot ≠ 0 ∧ frame.phase ≠ phasePre) := by omega
  refine bind_eq_ok.mpr ⟨value, read, ?_⟩
  rw [if_neg guard]
  rfl

@[simp] theorem Frame.assign_phase (frame : Frame) (slot : Nat) (value : KeelHookValue) :
    (frame.assign slot value).phase = frame.phase := by cases slot <;> rfl

theorem Frame.value_assign {frame : Frame} {slot : Nat} {value : KeelHookValue}
    (read : frame.value slot = .ok value) (other : KeelHookValue) :
    (frame.assign slot other).value slot = .ok other := by
  cases slot with
  | zero => rfl
  | succ index =>
      simp only [Frame.value] at read
      split at read
      · rename_i found inside
        have bound : index < frame.arguments.length := (List.getElem?_eq_some_iff.mp inside).1
        simp [Frame.value, Frame.assign, List.getElem?_set_self bound]
      · cases read

theorem Frame.assign_value {frame : Frame} {slot : Nat} {value : KeelHookValue}
    (read : frame.value slot = .ok value) : frame.assign slot value = frame := by
  cases slot with
  | zero =>
      cases read
      rfl
  | succ index =>
      simp only [Frame.value] at read
      split at read
      · rename_i found inside
        cases read
        have same : frame.arguments.set index value = frame.arguments := by
          obtain ⟨bound, rfl⟩ := List.getElem?_eq_some_iff.mp inside
          exact List.set_getElem_self bound
        rw [Frame.assign, same]
      · cases read

/-- A setter called by a script: its outcome, and the frame it leaves.  A setter
assigns only in its last step. -/
def perform (edit : Frame → Except String Frame) (frame : Frame) : Except String Unit × Frame :=
  match edit frame with
  | .ok edited => (.ok (), edited)
  | .error message => (.error message, frame)

/-- The integer accessors of a slot. -/
def integerSlot (slot : Nat) : Accessors Frame where
  readText := fun frame => frame.integerText slot
  writeText := fun text => perform (Frame.setIntegerText slot text)
  readCell := fun frame => frame.integer slot
  writeCell := fun cell => perform (Frame.setInteger slot cell)

/-- The slot has a value of the kind, which is `n`. -/
def Reads (k : Kind) (slot : Nat) (frame : Frame) (n : Int) : Prop :=
  ∃ value, frame.value slot = .ok value ∧ value.type.kind = some k ∧
    value.load (storage k) = n ∧ k.InRange n

/-- The callback's phase lets it write the slot too. -/
def Writes (k : Kind) (slot : Nat) (frame : Frame) (n : Int) : Prop :=
  Reads k slot frame n ∧ (slot = 0 ∨ frame.phase = phasePre)

theorem storage_inRange {k : Kind} {n : Int} (range : k.InRange n) : (storage k).InRange n := by
  cases k with
  | boolean => exact ⟨range.1, range.2.trans (by decide)⟩
  | integer t short => exact range

/-- A stored integer is in the range of its kind; a boolean is when it is zero or one. -/
theorem reads_stored {k : Kind} {slot : Nat} {frame : Frame} {value : KeelHookValue}
    (read : frame.value slot = .ok value) (typed : value.type.kind = some k)
    (stored : k = .boolean → value.load .uint32 = 0 ∨ value.load .uint32 = 1) :
    Reads k slot frame (value.load (storage k)) := by
  refine ⟨value, read, typed, rfl, ?_⟩
  cases k with
  | boolean =>
      rcases stored rfl with zero | one
      · simp only [storage, zero, Kind.InRange]
        decide
      · simp only [storage, one, Kind.InRange]
        decide
  | integer t short => exact value.load_inRange short

section Slot
variable {k : Kind} {slot : Nat} {frame : Frame} {n : Int}

theorem Reads.source (reads : Reads k slot frame n) :
    ∃ value source, frame.value slot = .ok value ∧ readInteger value = .ok source ∧
      source.number = n := by
  obtain ⟨value, read, typed, rfl, _⟩ := reads
  obtain ⟨source, decoded, number⟩ := readInteger_number typed
  exact ⟨value, source, read, decoded, number⟩

theorem Reads.integerText (reads : Reads k slot frame n) :
    frame.integerText slot = .ok (numberText n) := by
  obtain ⟨value, source, read, decoded, rfl⟩ := reads.source
  rw [Frame.integerText, read]
  show (readInteger value >>= fun source => pure source.text) = _
  rw [decoded]
  rfl

theorem Reads.integer (reads : Reads k slot frame n) :
    ∃ source : IntegerValue, source.number = n ∧
      frame.integer slot = narrow outside .int32 source := by
  obtain ⟨value, source, read, decoded, number⟩ := reads.source
  refine ⟨source, number, ?_⟩
  rw [Frame.integer, read]
  show (readInteger value >>= fun source => narrow outside .int32 source) = _
  rw [decoded]
  rfl

/-- Writing a number that is read from somewhere. -/
theorem Writes.assign {source : IntegerValue} (writes : Writes k slot frame n)
    (range : k.InRange source.number) :
    ∃ value edited, frame.writable slot = .ok value ∧ writeInteger value source = .ok edited ∧
      Writes k slot (frame.assign slot edited) source.number ∧
      (source.number = n → frame.assign slot edited = frame) := by
  obtain ⟨⟨value, read, typed, stored, _⟩, allowed⟩ := writes
  have loaded := KeelHookValue.load_store (storage_short k) (storage_inRange range) value
  refine ⟨value, value.store (storage k) (storage_short k) source.number,
    Frame.writable_of_value read allowed, writeInteger_inRange typed range,
    ⟨⟨_, Frame.value_assign read _, typed, loaded, range⟩, by simpa using allowed⟩, ?_⟩
  intro same
  rw [same, ← stored, KeelHookValue.store_load]
  exact Frame.assign_value read

theorem Writes.refuse {source : IntegerValue} (writes : Writes k slot frame n)
    (range : ¬ k.InRange source.number) :
    ∃ value message, frame.writable slot = .ok value ∧
      writeInteger value source = .error message := by
  obtain ⟨⟨value, read, typed, _, _⟩, allowed⟩ := writes
  obtain ⟨message, refused⟩ := writeInteger_outside typed range
  exact ⟨value, message, Frame.writable_of_value read allowed, refused⟩

theorem perform_ok {edit : Frame → Except String Frame} {edited : Frame}
    (done : edit frame = .ok edited) : perform edit frame = (.ok (), edited) := by
  rw [perform, done]

theorem perform_error {edit : Frame → Except String Frame} {message : String}
    (refused : edit frame = .error message) : perform edit frame = (.error message, frame) := by
  rw [perform, refused]

/-- The end of both integer setters. -/
def write (slot : Nat) (source : IntegerValue) (frame : Frame) : Except String Frame := do
  let value ← frame.writable slot
  return frame.assign slot (← writeInteger value source)

/-- Only the number counts, not the member of the variant that carries it. -/
theorem write_congr {source other : IntegerValue} (same : source.number = other.number) :
    write slot source = write slot other := by
  funext frame
  have written : ∀ value, writeInteger value source = writeInteger value other := by
    intro value
    simp only [writeInteger, writeAs, narrow, same]
  simp only [write, written]

theorem setIntegerText_parsed {text : Text} {source : IntegerValue}
    (parsed : parse 20 "Hook integer text is invalid."
      "Hook integer text is invalid or out of range." text = .ok source) :
    Frame.setIntegerText slot text frame = write slot source frame := by
  rw [Frame.setIntegerText, parsed]
  rfl

theorem Writes.write {source : IntegerValue} (writes : Writes k slot frame n)
    (range : k.InRange source.number) :
    ∃ edited, write slot source frame = .ok edited ∧ Writes k slot edited source.number ∧
      (source.number = n → edited = frame) := by
  obtain ⟨value, edited, writable, written, after, same⟩ := writes.assign range
  refine ⟨frame.assign slot edited, ?_, after, same⟩
  rw [HookFrame.write, writable]
  show (writeInteger value source >>= fun value => pure (frame.assign slot value)) = _
  rw [written]
  rfl

theorem Writes.write_error {source : IntegerValue} (writes : Writes k slot frame n)
    (range : ¬ k.InRange source.number) :
    ∃ message, HookFrame.write slot source frame = .error message := by
  obtain ⟨value, message, writable, refused⟩ := writes.refuse range
  refine ⟨message, ?_⟩
  rw [HookFrame.write, writable]
  show (writeInteger value source >>= fun value => pure (frame.assign slot value)) = _
  rw [refused]
  rfl

end Slot

/-- The integer accessors of a frame's slot are exact, for texts of up to twenty bytes. -/
theorem integerSlot_exact (k : Kind) (slot : Nat) :
    Exact (integerSlot slot) k 20 (Reads k slot) (Writes k slot) where
  range := fun frame n reads => by
    obtain ⟨value, _, _, _, range⟩ := reads
    exact range
  reads := fun frame n writes => writes.1
  readText := fun frame n reads => reads.integerText
  readCell := fun frame n reads range => by
    obtain ⟨source, rfl, read⟩ := reads.integer
    exact read.trans (narrow_ok range)
  rejectCell := fun frame n reads range => by
    obtain ⟨source, rfl, read⟩ := reads.integer
    exact ⟨_, read.trans (narrow_error range)⟩
  writeText := fun frame n text m writes accepted => by
    obtain ⟨denotes, short, range⟩ := accepted
    obtain ⟨low, high⟩ := range.bounds
    obtain ⟨source, parsed, rfl⟩ := parse_of_denotes _ _ denotes short low high
    obtain ⟨edited, written, after, same⟩ := writes.write range
    exact ⟨edited, perform_ok ((setIntegerText_parsed parsed).trans written), after, same⟩
  rejectText := fun frame n text writes refused => by
    cases parsed : parse 20 "Hook integer text is invalid."
        "Hook integer text is invalid or out of range." text with
    | error message =>
        have failed : Frame.setIntegerText slot text frame = .error message := by
          rw [Frame.setIntegerText, parsed]
          rfl
        exact ⟨message, perform_error failed⟩
    | ok source =>
        obtain ⟨denotes, short⟩ := parse_denotes parsed
        have outside : ¬ k.InRange source.number := fun range =>
          refused ⟨source.number, denotes, short, range⟩
        obtain ⟨message, failed⟩ := writes.write_error outside
        exact ⟨message, perform_error ((setIntegerText_parsed parsed).trans failed)⟩
  writeCell := fun frame n cell writes range => by
    have word : (Kind.integer .int32 IntType.int32_short).InRange cell := range
    have short := plain_length (denotes_numberText cell) (plain_numberText cell) word.bounds.1
      word.bounds.2
    obtain ⟨source, parsed, number⟩ := parse_of_denotes "Hook integer text is invalid."
      "Hook integer text is invalid or out of range." (denotes_numberText cell) short
      word.bounds.1 word.bounds.2
    have carried : source.number = (IntegerValue.int64 cell).number := number
    have same : Frame.setInteger slot cell frame =
        Frame.setIntegerText slot (numberText cell) frame := by
      rw [setIntegerText_parsed parsed, write_congr carried]
      rfl
    simp only [integerSlot, perform, same]

end Source2Root.HookFrame
