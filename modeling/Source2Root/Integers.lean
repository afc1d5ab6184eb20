import Mathlib

/-!
# Machine integers and their bytes

An integer type has a number of bytes and may have a sign.  A value is laid out
with its lowest byte first, in two's complement; `store` writes it over the first
bytes of a larger piece of memory and `load` reads it from there.
-/

set_option autoImplicit false

namespace Integers

/-! ## Bytes -/

/-- The lowest `width` bytes of a number, the lowest first. -/
def layout : Nat → Nat → List UInt8
  | 0, _ => []
  | width + 1, n => UInt8.ofNat n :: layout width (n / 256)

def word : List UInt8 → Nat
  | [] => 0
  | byte :: rest => byte.toNat + 256 * word rest

@[simp] theorem layout_length (width : Nat) : ∀ n, (layout width n).length = width := by
  induction width with
  | zero => intro n; rfl
  | succ width ih => intro n; simp [layout, ih]

theorem word_layout (width : Nat) : ∀ n, word (layout width n) = n % 256 ^ width := by
  induction width with
  | zero => intro n; simp [layout, word, Nat.mod_one]
  | succ width ih =>
      intro n
      have low : (UInt8.ofNat n).toNat = n % 256 := UInt8.toNat_ofNat'
      rw [layout, word, ih, low, pow_succ', Nat.mod_mul]

theorem word_lt (bytes : List UInt8) : word bytes < 256 ^ bytes.length := by
  induction bytes with
  | nil => simp [word]
  | cons byte rest ih =>
      have small : byte.toNat < 256 := byte.toNat_lt
      rw [word, List.length_cons, pow_succ]
      omega

theorem layout_word (bytes : List UInt8) : layout bytes.length (word bytes) = bytes := by
  induction bytes with
  | nil => rfl
  | cons byte rest ih =>
      have small : byte.toNat < 256 := byte.toNat_lt
      have rest_word : (byte.toNat + 256 * word rest) / 256 = word rest := by omega
      have first : UInt8.ofNat (byte.toNat + 256 * word rest) = byte := by
        apply UInt8.toNat_inj.mp
        rw [UInt8.toNat_ofNat']
        omega
      rw [List.length_cons, word, layout, rest_word, ih, first]

/-! ## Integer types -/

structure IntType where
  bytes : Nat
  signed : Bool
  wide : 0 < bytes
deriving DecidableEq

namespace IntType

def uint8 : IntType := ⟨1, false, by decide⟩
def int8 : IntType := ⟨1, true, by decide⟩
def uint16 : IntType := ⟨2, false, by decide⟩
def int16 : IntType := ⟨2, true, by decide⟩
def uint32 : IntType := ⟨4, false, by decide⟩
def int32 : IntType := ⟨4, true, by decide⟩
def uint64 : IntType := ⟨8, false, by decide⟩
def int64 : IntType := ⟨8, true, by decide⟩

theorem uint8_short : uint8.bytes ≤ 8 := by decide
theorem int8_short : int8.bytes ≤ 8 := by decide
theorem uint16_short : uint16.bytes ≤ 8 := by decide
theorem int16_short : int16.bytes ≤ 8 := by decide
theorem uint32_short : uint32.bytes ≤ 8 := by decide
theorem int32_short : int32.bytes ≤ 8 := by decide
theorem uint64_short : uint64.bytes ≤ 8 := by decide
theorem int64_short : int64.bytes ≤ 8 := by decide

/-- Half the number of the type's values. -/
def half (t : IntType) : Nat := 128 * 256 ^ (t.bytes - 1)

def least (t : IntType) : Int := if t.signed then -t.half else 0

def greatest (t : IntType) : Int := if t.signed then t.half - 1 else 2 * t.half - 1

/-- `std::in_range` -/
def InRange (t : IntType) (n : Int) : Prop := t.least ≤ n ∧ n ≤ t.greatest

instance (t : IntType) (n : Int) : Decidable (t.InRange n) := inferInstanceAs (Decidable (_ ∧ _))

theorem modulus (t : IntType) : 256 ^ t.bytes = 2 * t.half := by
  obtain ⟨width, bytes⟩ : ∃ width, t.bytes = width + 1 := Nat.exists_eq_add_one.mpr t.wide
  rw [half, bytes, pow_succ]
  simp only [Nat.add_sub_cancel]
  omega

theorem half_pos (t : IntType) : 0 < t.half := by
  have power : 0 < 256 ^ (t.bytes - 1) := by positivity
  rw [half]
  omega

/-- The integer a bit pattern stands for. -/
def ofWord (t : IntType) (n : Nat) : Int :=
  if t.signed = true ∧ t.half ≤ n then (n : Int) - 2 * t.half else n

def toWord (t : IntType) (n : Int) : Nat := (n % (2 * t.half : Nat)).toNat

def encode (t : IntType) (n : Int) : List UInt8 := layout t.bytes (t.toWord n)

def decode (t : IntType) (bytes : List UInt8) : Int := t.ofWord (word bytes)

theorem toWord_lt (t : IntType) (n : Int) : t.toWord n < 2 * t.half := by
  have positive := t.half_pos
  have above := Int.emod_nonneg n (b := ((2 * t.half : Nat) : Int)) (by omega)
  have below := Int.emod_lt_of_pos n (b := ((2 * t.half : Nat) : Int)) (by omega)
  rw [toWord]
  omega

theorem ofWord_toWord {t : IntType} {n : Int} (range : t.InRange n) :
    t.ofWord (t.toWord n) = n := by
  obtain ⟨low, high⟩ := range
  have positive := t.half_pos
  by_cases negative : n < 0
  · have signed : t.signed = true := by
      by_contra plain
      rw [least, if_neg plain] at low
      omega
    rw [least, if_pos signed] at low
    have wrapped : n % ((2 * t.half : Nat) : Int) = n + 2 * t.half := by
      rw [← Int.add_emod_right, Int.emod_eq_of_lt (by omega) (by omega)]
      omega
    rw [ofWord, toWord, wrapped, if_pos ⟨signed, by omega⟩]
    omega
  · have under : n < 2 * t.half := by
      rw [greatest] at high
      split at high <;> omega
    have same : n % ((2 * t.half : Nat) : Int) = n := Int.emod_eq_of_lt (by omega) (by omega)
    rw [ofWord, toWord, same, if_neg]
    · omega
    · intro wraps
      rw [greatest, if_pos wraps.1] at high
      omega

theorem toWord_ofWord {t : IntType} {n : Nat} (small : n < 2 * t.half) :
    t.toWord (t.ofWord n) = n := by
  by_cases wraps : t.signed = true ∧ t.half ≤ n
  · have wrapped : ((n : Int) - 2 * t.half) % ((2 * t.half : Nat) : Int) = n := by
      rw [← Int.add_emod_right, Int.emod_eq_of_lt (by omega) (by omega)]
      omega
    rw [ofWord, if_pos wraps, toWord, wrapped]
    omega
  · rw [ofWord, if_neg wraps, toWord, Int.emod_eq_of_lt (by omega) (by omega)]
    omega

theorem ofWord_inRange {t : IntType} {n : Nat} (small : n < 2 * t.half) :
    t.InRange (t.ofWord n) := by
  by_cases signed : t.signed = true
  · simp only [InRange, least, greatest, ofWord, signed, if_true, true_and]
    split <;> omega
  · have plain : ¬ (t.signed = true ∧ t.half ≤ n) := fun wraps => signed wraps.1
    rw [InRange, least, greatest, ofWord, if_neg signed, if_neg signed, if_neg plain]
    omega

@[simp] theorem encode_length (t : IntType) (n : Int) : (t.encode n).length = t.bytes :=
  layout_length _ _

theorem decode_encode {t : IntType} {n : Int} (range : t.InRange n) :
    t.decode (t.encode n) = n := by
  have fits : t.toWord n % 256 ^ t.bytes = t.toWord n :=
    Nat.mod_eq_of_lt (t.modulus ▸ t.toWord_lt n)
  rw [decode, encode, word_layout, fits, ofWord_toWord range]

theorem word_small {t : IntType} {bytes : List UInt8} (width : bytes.length = t.bytes) :
    word bytes < 2 * t.half := by
  have below := word_lt bytes
  rwa [width, t.modulus] at below

theorem encode_decode {t : IntType} {bytes : List UInt8} (width : bytes.length = t.bytes) :
    t.encode (t.decode bytes) = bytes := by
  rw [encode, decode, toWord_ofWord (word_small width), ← width, layout_word]

theorem decode_inRange {t : IntType} {bytes : List UInt8} (width : bytes.length = t.bytes) :
    t.InRange (t.decode bytes) := ofWord_inRange (word_small width)

/-! ## Values in memory -/

/-- The value in the first bytes. -/
def load (t : IntType) (memory : List UInt8) : Int := t.decode (memory.take t.bytes)

/-- The value over the first bytes. -/
def store (t : IntType) (n : Int) (memory : List UInt8) : List UInt8 :=
  t.encode n ++ memory.drop t.bytes

theorem store_length {t : IntType} {n : Int} {memory : List UInt8}
    (room : t.bytes ≤ memory.length) : (t.store n memory).length = memory.length := by
  rw [store, List.length_append, encode_length, List.length_drop]
  omega

theorem load_store {t : IntType} {n : Int} {memory : List UInt8} (range : t.InRange n) :
    t.load (t.store n memory) = n := by
  rw [load, store, List.take_append_of_le_length (by simp), List.take_of_length_le (by simp),
    decode_encode range]

theorem store_load {t : IntType} {memory : List UInt8} (room : t.bytes ≤ memory.length) :
    t.store (t.load memory) memory = memory := by
  rw [store, load, encode_decode (List.length_take_of_le room), List.take_append_drop]

theorem load_inRange {t : IntType} {memory : List UInt8} (room : t.bytes ≤ memory.length) :
    t.InRange (t.load memory) := decode_inRange (List.length_take_of_le room)

end IntType

end Integers
