import Mathlib

/-!
# Byte memory

A memory gives every address a byte.  A patch is a run of bytes to be written at an
address; of several patches that cover one place, the last one applied decides.
-/

set_option autoImplicit false

namespace ByteMemory

abbrev Memory := Nat → UInt8

def read (memory : Memory) (address : Nat) : Nat → List UInt8
  | 0 => []
  | n + 1 => memory address :: read memory (address + 1) n

def write (memory : Memory) (address : Nat) : List UInt8 → Memory
  | [] => memory
  | byte :: rest => write (Function.update memory address byte) (address + 1) rest

/-- The places of a piece of memory. -/
def Within (address length place : Nat) : Prop := address ≤ place ∧ place < address + length

instance (address length place : Nat) : Decidable (Within address length place) :=
  inferInstanceAs (Decidable (_ ∧ _))

variable {memory memory' : Memory} {address place : Nat} {bytes : List UInt8}

theorem write_outside : ∀ {memory : Memory} {address : Nat},
    ¬ Within address bytes.length place → write memory address bytes place = memory place := by
  induction bytes with
  | nil => intro memory address outside; rfl
  | cons byte rest ih =>
      intro memory address outside
      have beyond : ¬ Within (address + 1) rest.length place := fun inside =>
        outside ⟨by have := inside.1; omega, by have := inside.2; rw [List.length_cons]; omega⟩
      have other : place ≠ address := by
        intro same
        exact outside ⟨by omega, by rw [List.length_cons]; omega⟩
      rw [write, ih beyond, Function.update_of_ne other]

theorem write_inside : ∀ {memory : Memory} {address n : Nat} (inside : n < bytes.length),
    write memory address bytes (address + n) = bytes[n] := by
  induction bytes with
  | nil => intro memory address n inside; exact absurd inside (Nat.not_lt_zero n)
  | cons byte rest ih =>
      intro memory address n inside
      cases n with
      | zero =>
          have before : ¬ Within (address + 1) rest.length address := fun within => by
            have := within.1
            omega
          rw [Nat.add_zero, write, write_outside before, Function.update_self]
          rfl
      | succ n =>
          have shifted : address + (n + 1) = address + 1 + n := by omega
          have short : n < rest.length := Nat.lt_of_succ_lt_succ inside
          rw [write, shifted, ih short]
          rfl

theorem read_of_getElem : ∀ {address : Nat},
    (∀ n (inside : n < bytes.length), memory (address + n) = bytes[n]) →
      read memory address bytes.length = bytes := by
  induction bytes with
  | nil => intro address same; rfl
  | cons byte rest ih =>
      intro address same
      have first : memory address = byte := same 0 (Nat.succ_pos _)
      have tail : read memory (address + 1) rest.length = rest := by
        refine ih fun n inside => ?_
        have there := same (n + 1) (Nat.succ_lt_succ inside)
        rwa [show address + (n + 1) = address + 1 + n by omega] at there
      rw [List.length_cons, read, first, tail]

theorem read_write : read (write memory address bytes) address bytes.length = bytes :=
  read_of_getElem fun _ inside => write_inside inside

theorem write_append {more : List UInt8} : ∀ {memory : Memory} {address : Nat},
    write memory address (bytes ++ more) =
      write (write memory address bytes) (address + bytes.length) more := by
  induction bytes with
  | nil => intro memory address; rfl
  | cons byte rest ih =>
      intro memory address
      rw [List.cons_append, write, ih, write, List.length_cons,
        show address + (rest.length + 1) = address + 1 + rest.length by omega]

/-! ## Patches -/

structure Patch where
  address : Nat
  bytes : List UInt8

def Patch.Covers (p : Patch) (place : Nat) : Prop := Within p.address p.bytes.length place

/-- The patches, the first one first. -/
def patch (memory : Memory) (patches : List Patch) : Memory :=
  patches.foldl (fun memory p => write memory p.address p.bytes) memory

theorem patch_outside {patches : List Patch} : ∀ {memory : Memory},
    (∀ p ∈ patches, ¬ p.Covers place) → patch memory patches place = memory place := by
  induction patches with
  | nil => intro memory outside; rfl
  | cons p rest ih =>
      intro memory outside
      have first : ¬ p.Covers place := outside p List.mem_cons_self
      have others : ∀ q ∈ rest, ¬ q.Covers place := fun q listed =>
        outside q (List.mem_cons_of_mem p listed)
      exact (ih others).trans (write_outside first)

theorem patch_inside {patches : List Patch} {p : Patch} : ∀ {memory : Memory} {i n : Nat}
    (_ : patches[i]? = some p) (inside : n < p.bytes.length),
    (∀ q ∈ patches.drop (i + 1), ¬ q.Covers (p.address + n)) →
      patch memory patches (p.address + n) = p.bytes[n] := by
  induction patches with
  | nil => intro memory i n there; cases there
  | cons q rest ih =>
      intro memory i n there inside later
      cases i with
      | zero =>
          cases there
          exact (patch_outside later).trans (write_inside inside)
      | succ i => exact ih there inside later

end ByteMemory
