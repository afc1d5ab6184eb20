import Mathlib
import Source2Root.EntityFields
import Source2Root.HookFrame

/-!
# The two encodings of native integers

Hook frames and entity fields keep a kind of integers in the same way: both accessors
are exact, and they take and give the same texts.
-/

set_option autoImplicit false

namespace Source2Root.IntegersAgree

open Integers NativeIntegers

/-- Both accessors are exact, and they agree.  What is read is written back to the same
state; a text is written just when it is a minus sign or none and digits, has at most
twenty bytes (twenty-one for a field) and denotes a value of the kind, and the other
texts change nothing.  Every stored value can be read, of a boolean zero and one, and
texts without redundant zeros are never too long. -/
theorem native_integers_exact (k : Kind) :
    (∀ (slot : Nat) (frame : HookFrame.Frame) (value : HookFrame.KeelHookValue),
      frame.value slot = .ok value → value.type.kind = some k →
      (k = .boolean → value.load .uint32 = 0 ∨ value.load .uint32 = 1) →
      HookFrame.Reads k slot frame (value.load (HookFrame.storage k))) ∧
    (∀ (host : EntityFields.Host) (entity : EntityFields.Entity) (field : EntityFields.Field)
      (s : EntityFields.State), EntityFields.Readable host entity field →
      field.type.kind = some k → s.memory.length = field.size →
      (k = .boolean → IntType.uint8.load s.memory = 0 ∨ IntType.uint8.load s.memory = 1) →
      EntityFields.Reads host entity field k s ((EntityFields.storage k).load s.memory)) ∧
    (∀ slot, Exact (HookFrame.integerSlot slot) k 20 (HookFrame.Reads k slot)
      (HookFrame.Writes k slot)) ∧
    (∀ host entity field, Exact (EntityFields.integerField host entity field) k 21
      (EntityFields.Reads host entity field k) (EntityFields.Writes host entity field k)) ∧
    (∀ text v, Denotes text v → Plain text →
      ((Accepted k 20 text v ↔ k.InRange v) ∧ (Accepted k 21 text v ↔ k.InRange v))) ∧
    ∀ slot frame n host entity field s m, HookFrame.Writes k slot frame n →
      EntityFields.Writes host entity field k s m →
      (∃ text, (HookFrame.integerSlot slot).readText frame = .ok text ∧
        (HookFrame.integerSlot slot).writeText text frame = (.ok (), frame)) ∧
      (∃ text, (EntityFields.integerField host entity field).readText s = .ok text ∧
        (EntityFields.integerField host entity field).writeText text s = (.ok (), s)) ∧
      (∀ text : Text, text.length ≤ 20 →
        (((HookFrame.integerSlot slot).writeText text frame).1 = .ok () ↔
          ((EntityFields.integerField host entity field).writeText text s).1 = .ok ())) ∧
      (n = m → (HookFrame.integerSlot slot).readText frame =
        (EntityFields.integerField host entity field).readText s) := by
  have hook := HookFrame.integerSlot_exact k
  have schema := fun host entity field => EntityFields.integerField_exact host entity field k
  refine ⟨?_, ?_, hook, schema, ?_, ?_⟩
  · intro slot frame value read typed stored
    exact HookFrame.reads_stored read typed stored
  · intro host entity field s readable typed length stored
    exact EntityFields.reads_stored readable typed length stored
  · intro text v denotes plain
    exact ⟨accepted_of_plain (le_refl 20) denotes plain,
      accepted_of_plain (by decide) denotes plain⟩
  · intro slot frame n host entity field s m frame_writes field_writes
    have exact_field := schema host entity field
    obtain ⟨texts, reads⟩ := (hook slot).agree exact_field (le_refl 20) (by decide) frame_writes
      field_writes
    exact ⟨(hook slot).read_back (le_refl 20) frame_writes,
      exact_field.read_back (by decide) field_writes, texts, reads⟩

/-! ## A byte in each -/

/-- A frame before its call whose result is the byte 5. -/
def byteFrame : HookFrame.Frame where
  phase := HookFrame.phasePre
  flags := 0
  arguments := []
  result := { type := .uint8, reserved := 0, scalar := [5, 0, 0, 0, 0, 0, 0, 0], size := rfl }

theorem byteFrame_writes :
    HookFrame.Writes (.integer .uint8 (by decide)) 0 byteFrame 5 :=
  ⟨⟨byteFrame.result, rfl, rfl, by decide, by decide⟩, .inl rfl⟩

def liveInfo : EntityFields.KeelEntityInfo :=
  { sized := true, index := 4, source2Handle := 9, valid := true, epoch := 1, reserved := 0 }

def liveHost : EntityFields.Host where
  description := fun _ => "ok"
  thread := .ok
  capable := .ok
  capabilities := some (.ok, true)
  before := { thread := .ok, result := .ok, current := liveInfo }
  read := .ok
  after := { thread := .ok, result := .ok, current := liveInfo }
  write := .ok

def liveEntity : EntityFields.Entity := { service := 1, handle := 2, identity := liveInfo }

def byteField : EntityFields.Field :=
  { service := 1, handle := 3, type := .uint8, size := 1, sized := rfl }

theorem byteField_writes :
    EntityFields.Writes liveHost liveEntity byteField (.integer .uint8 (by decide))
      { memory := [5], activeWrites := 0 } 5 := by
  have alive : EntityFields.Alive liveEntity liveHost.before := ⟨rfl, rfl, by decide⟩
  exact ⟨⟨⟨by decide, by decide, rfl, alive, rfl, alive⟩, rfl, rfl, by decide, by decide⟩,
    ⟨rfl, rfl, rfl, by decide, rfl⟩⟩

/-- The byte reads the same in both. -/
theorem native_integers_exact_byte :
    (HookFrame.integerSlot 0).readText byteFrame =
      (EntityFields.integerField liveHost liveEntity byteField).readText
        { memory := [5], activeWrites := 0 } := by
  obtain ⟨_, _, _, _, _, pair⟩ := native_integers_exact (.integer .uint8 (by decide))
  exact (pair 0 byteFrame 5 liveHost liveEntity byteField _ 5 byteFrame_writes
    byteField_writes).2.2.2 rfl

/-- Both take leading zeros, and a text of twenty-one bytes only a field takes. -/
theorem zeros_accepted :
    (∃ frame, (HookFrame.integerSlot 0).writeText "007".toList byteFrame = (.ok (), frame)) ∧
    (∃ s, (EntityFields.integerField liveHost liveEntity byteField).writeText "007".toList
      { memory := [5], activeWrites := 0 } = (.ok (), s)) ∧
    ¬ Plain "007".toList ∧
    (∃ s, (EntityFields.integerField liveHost liveEntity byteField).writeText
      "000000000000000000007".toList { memory := [5], activeWrites := 0 } = (.ok (), s)) ∧
    ∃ message, (HookFrame.integerSlot 0).writeText "000000000000000000007".toList byteFrame =
      (.error message, byteFrame) := by
  refine ⟨⟨_, rfl⟩, ⟨_, rfl⟩, by decide, ⟨_, rfl⟩, ⟨_, rfl⟩⟩

end Source2Root.IntegersAgree
