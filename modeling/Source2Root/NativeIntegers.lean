import Mathlib
import Source2Root.Decimal
import Source2Root.Integers

/-!
# Integers of native values, and their texts

The two extensions that read and write native integers (`extensions/dhooks/frame.cpp`
and `extensions/sdktools/entities.cpp`) each carry a number as a signed or an unsigned
64-bit integer, narrow it to the type of the value and read it from decimal text.
-/

set_option autoImplicit false

namespace Source2Root.NativeIntegers

open Integers

/-- `IntegerValue`, a `std::variant<std::int64_t, std::uint64_t>` -/
inductive IntegerValue where
  | int64 (number : Int)
  | uint64 (number : Nat)
deriving DecidableEq, Repr

def IntegerValue.number : IntegerValue → Int
  | .int64 number => number
  | .uint64 number => number

/-- `Narrow`, `EncodeInteger`: `std::visit` with `std::in_range` and the cast -/
def narrow (message : String) (t : IntType) (source : IntegerValue) : Except String Int :=
  if t.InRange source.number then .ok source.number else .error message

theorem narrow_ok {message : String} {t : IntType} {source : IntegerValue}
    (range : t.InRange source.number) : narrow message t source = .ok source.number := if_pos range

theorem narrow_error {message : String} {t : IntType} {source : IntegerValue}
    (outside : ¬ t.InRange source.number) : narrow message t source = .error message :=
  if_neg outside

/-- `std::to_string` in `std::visit` -/
def IntegerValue.text (source : IntegerValue) : Text := numberText source.number

/-! ## Reading decimal text -/

/-- `std::from_chars` for an integer type, when it has to take the whole text: only a
signed type reads a sign. -/
def fromCharsAs (t : IntType) (text : Text) : Option Int :=
  let negative := t.signed && text.head? == some '-'
  let digits := if negative then text.tail else text
  let number : Int := if negative then -(digitsValue digits : Int) else digitsValue digits
  if digits ≠ [] ∧ digits.all isDigit = true ∧ t.InRange number then some number else none

/-- The reading of a text of at most `limit` bytes, with the two messages. -/
def parse (limit : Nat) (invalid outside : String) (text : Text) : Except String IntegerValue :=
  if text.isEmpty || limit < text.length then .error invalid
  else if text.head? = some '-' then
    match fromCharsAs .int64 text with
    | some number => .ok (.int64 number)
    | none => .error outside
  else
    match fromCharsAs .uint64 text with
    | some number => .ok (.uint64 number.toNat)
    | none => .error outside

/-! ## What a text denotes -/

/-- An optional minus sign and digits, and the integer they stand for. -/
def Denotes (text : Text) (n : Int) : Prop :=
  ∃ digits : Text, digits ≠ [] ∧ digits.all isDigit = true ∧
    ((text = digits ∧ n = digitsValue digits) ∨
      (text = '-' :: digits ∧ n = -(digitsValue digits : Int)))

/-- The text has no redundant zeros in front. -/
def Plain (text : Text) : Prop :=
  let digits := if text.head? = some '-' then text.tail else text
  digits.length = 1 ∨ digits.head? ≠ some '0'

instance (text : Text) : Decidable (Plain text) := inferInstanceAs (Decidable (_ ∨ _))

theorem no_sign {digits : Text} (all : digits.all isDigit = true) : digits.head? ≠ some '-' := by
  intro sign
  have digit := List.all_eq_true.mp all '-' (List.mem_of_mem_head? sign)
  exact absurd digit (by decide)

theorem denotes_numberText (n : Int) : Denotes (numberText n) n := by
  refine ⟨decimal n.natAbs, decimal_ne_nil _, List.all_eq_true.mpr (decimal_digits _), ?_⟩
  rw [digitsValue_decimal, numberText]
  by_cases negative : n < 0
  · right
    rw [if_pos negative]
    exact ⟨rfl, by omega⟩
  · left
    rw [if_neg negative]
    exact ⟨rfl, by omega⟩

theorem Denotes.unique {text : Text} {n m : Int} (left : Denotes text n) (right : Denotes text m) :
    n = m := by
  obtain ⟨digits, _, all, ⟨same, value⟩ | ⟨same, value⟩⟩ := left <;>
    obtain ⟨others, _, allOthers, ⟨same', value'⟩ | ⟨same', value'⟩⟩ := right
  · rw [value, value', ← same, ← same']
  · exact absurd (by rw [← same, same']; rfl) (no_sign all)
  · exact absurd (by rw [← same', same]; rfl) (no_sign allOthers)
  · have tails : digits = others := (List.cons.inj (same ▸ same')).2
    rw [value, value', tails]

theorem fromCharsAs_signed {digits : Text} (filled : digits ≠ [])
    (all : digits.all isDigit = true) :
    fromCharsAs .int64 ('-' :: digits) =
      if IntType.int64.InRange (-(digitsValue digits : Int)) then
        some (-(digitsValue digits : Int)) else none := by
  have signed : IntType.int64.signed = true := rfl
  simp [fromCharsAs, signed, filled, all]

theorem fromCharsAs_unsigned {digits : Text} (filled : digits ≠ [])
    (all : digits.all isDigit = true) :
    fromCharsAs .uint64 digits =
      if IntType.uint64.InRange (digitsValue digits) then some (digitsValue digits : Int)
      else none := by
  have plain : IntType.uint64.signed = false := rfl
  simp [fromCharsAs, plain, filled, all]

/-- What was read is what the text denotes. -/
theorem parse_denotes {limit : Nat} {invalid outside : String} {text : Text} {source : IntegerValue}
    (read : parse limit invalid outside text = .ok source) :
    Denotes text source.number ∧ text.length ≤ limit := by
  unfold parse at read
  split at read
  · cases read
  · rename_i guard
    have short : text.length ≤ limit := by
      simp only [Bool.or_eq_true, decide_eq_true_eq, not_or, not_lt] at guard
      exact guard.2
    refine ⟨?_, short⟩
    split at read
    · rename_i sign
      obtain ⟨rest, rfl⟩ : ∃ rest, text = '-' :: rest := List.head?_eq_some_iff.mp sign
      split at read
      · rename_i number parsed
        cases read
        simp only [fromCharsAs, IntType.int64, List.head?_cons, List.tail_cons, beq_self_eq_true,
          Bool.and_self, if_true, Option.ite_none_right_eq_some, Option.some.injEq] at parsed
        obtain ⟨⟨filled, all, _⟩, rfl⟩ := parsed
        exact ⟨rest, filled, all, .inr ⟨rfl, rfl⟩⟩
      · cases read
    · split at read
      · rename_i number parsed
        cases read
        simp only [fromCharsAs, IntType.uint64, Bool.false_and, Bool.false_eq_true, if_false,
          Option.ite_none_right_eq_some, Option.some.injEq] at parsed
        obtain ⟨⟨filled, all, _⟩, rfl⟩ := parsed
        exact ⟨text, filled, all, .inl ⟨rfl, by simp [IntegerValue.number]⟩⟩
      · cases read

theorem int64_range (n : Int) : IntType.int64.InRange n ↔ -2 ^ 63 ≤ n ∧ n ≤ 2 ^ 63 - 1 := Iff.rfl

theorem uint64_range (n : Int) : IntType.uint64.InRange n ↔ 0 ≤ n ∧ n ≤ 2 ^ 64 - 1 := Iff.rfl

/-- A text that denotes an integer of 64 bits is read, if it is not too long. -/
theorem parse_of_denotes {limit : Nat} {text : Text} {n : Int} (invalid outside : String)
    (denotes : Denotes text n) (short : text.length ≤ limit) (low : -2 ^ 63 ≤ n)
    (high : n ≤ 2 ^ 64 - 1) :
    ∃ source, parse limit invalid outside text = .ok source ∧ source.number = n := by
  obtain ⟨digits, filled, all, ⟨rfl, value⟩ | ⟨rfl, value⟩⟩ := denotes
  · have guard : ¬ (text.isEmpty || decide (limit < text.length)) = true := by
      simp [filled, short]
    have range : IntType.uint64.InRange (digitsValue text) :=
      (uint64_range _).mpr ⟨by omega, by omega⟩
    refine ⟨.uint64 (digitsValue text), ?_, value.symm⟩
    rw [parse, if_neg guard, if_neg (no_sign all), fromCharsAs_unsigned filled all, if_pos range]
    rfl
  · have guard : ¬ (('-' :: digits).isEmpty || decide (limit < ('-' :: digits).length)) = true := by
      simpa using short
    have range : IntType.int64.InRange (-(digitsValue digits : Int)) :=
      (int64_range _).mpr ⟨by omega, by omega⟩
    refine ⟨.int64 (-(digitsValue digits : Int)), ?_, value.symm⟩
    have sign : ('-' :: digits).head? = some '-' := rfl
    rw [parse, if_neg guard, if_pos sign, fromCharsAs_signed filled all, if_pos range]

/-- A digit text without redundant zeros is the decimal of its value. -/
theorem decimal_of_plain {digits : Text} (filled : digits ≠ []) (all : digits.all isDigit = true)
    (plain : digits.length = 1 ∨ digits.head? ≠ some '0') :
    digits = decimal (digitsValue digits) := by
  have whole := padded_digitsValue filled all
  rw [padded] at whole
  cases pad : digits.length - (decimal (digitsValue digits)).length with
  | zero => simpa [pad] using whole.symm
  | succ pad' =>
      rw [pad, List.replicate_succ] at whole
      rcases plain with single | head
      · have some_digit := List.length_pos_iff.mpr (decimal_ne_nil (digitsValue digits))
        omega
      · exact absurd (by rw [← whole]; rfl) head

/-- Integers of 64 bits have texts of at most twenty bytes, without redundant zeros. -/
theorem plain_length {text : Text} {n : Int} (denotes : Denotes text n) (plain : Plain text)
    (low : -2 ^ 63 ≤ n) (high : n ≤ 2 ^ 64 - 1) : text.length ≤ 20 := by
  obtain ⟨digits, filled, all, ⟨rfl, value⟩ | ⟨rfl, value⟩⟩ := denotes
  · have tight : text.length = 1 ∨ text.head? ≠ some '0' := by
      simpa only [Plain, if_neg (no_sign all)] using plain
    rw [decimal_of_plain filled all tight]
    exact decimal_length (by omega) (by decide)
  · have tight : digits.length = 1 ∨ digits.head? ≠ some '0' := by
      simpa [Plain] using plain
    have digit_count : (decimal (digitsValue digits)).length ≤ 19 :=
      decimal_length (by omega) (by decide)
    rw [← decimal_of_plain filled all tight] at digit_count
    rw [List.length_cons]
    omega

/-! ## Kinds of values -/

/-- A boolean, zero or one, or an integer of at most eight bytes. -/
inductive Kind where
  | boolean
  | integer (t : IntType) (short : t.bytes ≤ 8)
deriving DecidableEq

def Kind.InRange : Kind → Int → Prop
  | .boolean, n => 0 ≤ n ∧ n ≤ 1
  | .integer t _, n => t.InRange n

instance (k : Kind) (n : Int) : Decidable (k.InRange n) := by
  cases k with
  | boolean => exact inferInstanceAs (Decidable (_ ∧ _))
  | integer t short => exact inferInstanceAs (Decidable (t.InRange n))

theorem half_le {t : IntType} (short : t.bytes ≤ 8) : t.half ≤ 2 ^ 63 := by
  have power : 256 ^ (t.bytes - 1) ≤ 256 ^ 7 := Nat.pow_le_pow_right (by decide) (by omega)
  rw [IntType.half]
  omega

/-- Every value of a kind is one of 64 bits. -/
theorem Kind.InRange.bounds {k : Kind} {n : Int} (range : k.InRange n) :
    -2 ^ 63 ≤ n ∧ n ≤ 2 ^ 64 - 1 := by
  cases k with
  | boolean =>
      obtain ⟨low, high⟩ := range
      omega
  | integer t short =>
      obtain ⟨low, high⟩ := range
      have size := half_le short
      rw [IntType.least] at low
      rw [IntType.greatest] at high
      constructor <;> split at low <;> split at high <;> omega

/-! ## Exact accessors -/

/-- The accessors of one integer slot of a state; a writer gives its outcome and the
state it leaves. -/
structure Accessors (S : Type) where
  readText : S → Except String Text
  writeText : Text → S → Except String Unit × S
  readCell : S → Except String Int
  writeCell : Int → S → Except String Unit × S

/-- The text is one of at most `limit` bytes for a value of the kind. -/
def Accepted (k : Kind) (limit : Nat) (text : Text) (n : Int) : Prop :=
  Denotes text n ∧ text.length ≤ limit ∧ k.InRange n

/-- What the accessors of a slot are to do for values of a kind: `Reads s n` is that in
`s` the slot can be read and its value is `n`, `Writes s n` that it can be written too. -/
structure Exact {S : Type} (slot : Accessors S) (k : Kind) (limit : Nat)
    (Reads Writes : S → Int → Prop) : Prop where
  range : ∀ s n, Reads s n → k.InRange n
  reads : ∀ s n, Writes s n → Reads s n
  readText : ∀ s n, Reads s n → slot.readText s = .ok (numberText n)
  readCell : ∀ s n, Reads s n → IntType.int32.InRange n → slot.readCell s = .ok n
  rejectCell : ∀ s n, Reads s n → ¬ IntType.int32.InRange n →
    ∃ message, slot.readCell s = .error message
  writeText : ∀ s n text m, Writes s n → Accepted k limit text m →
    ∃ s', slot.writeText text s = (.ok (), s') ∧ Writes s' m ∧ (m = n → s' = s)
  rejectText : ∀ s n text, Writes s n → (¬ ∃ m, Accepted k limit text m) →
    ∃ message, slot.writeText text s = (.error message, s)
  writeCell : ∀ s n cell, Writes s n → IntType.int32.InRange cell →
    slot.writeCell cell s = slot.writeText (numberText cell) s

theorem decimal_tight (n : Nat) : (decimal n).length = 1 ∨ (decimal n).head? ≠ some '0' := by
  by_cases zero : n = 0
  · left
    rw [decimal, if_pos zero]
    rfl
  · right
    intro head
    have filled : Nat.digits 10 n ≠ [] := Nat.digits_ne_nil_iff_ne_zero.mpr zero
    rw [decimal, if_neg zero, List.head?_map, List.head?_reverse,
      List.getLast?_eq_some_getLast filled, Option.map_some, Option.some.injEq] at head
    have small := Nat.digits_lt_base (by decide : 1 < 10) (List.getLast_mem filled)
    have same := congrArg Char.toNat head
    rw [digit_toNat small] at same
    have last := Nat.getLast_digit_ne_zero 10 zero
    exact last (by simpa using same)

theorem plain_numberText (n : Int) : Plain (numberText n) := by
  rw [numberText]
  by_cases negative : n < 0
  · rw [if_pos negative]
    exact decimal_tight _
  · have all : (decimal n.natAbs).all isDigit = true := List.all_eq_true.mpr (decimal_digits _)
    rw [if_neg negative, Plain, if_neg (no_sign all)]
    exact decimal_tight _

/-- The texts without redundant zeros are accepted for exactly the values of the kind. -/
theorem accepted_of_plain {k : Kind} {limit : Nat} {text : Text} {n : Int} (room : 20 ≤ limit)
    (denotes : Denotes text n) (plain : Plain text) : Accepted k limit text n ↔ k.InRange n := by
  constructor
  · intro accepted
    exact accepted.2.2
  · intro range
    obtain ⟨low, high⟩ := range.bounds
    exact ⟨denotes, (plain_length denotes plain low high).trans room, range⟩

theorem accepted_numberText {k : Kind} {limit : Nat} {n : Int} (room : 20 ≤ limit)
    (range : k.InRange n) : Accepted k limit (numberText n) n :=
  (accepted_of_plain room (denotes_numberText n) (plain_numberText n)).mpr range

namespace Exact

variable {S T : Type} {slot : Accessors S} {other : Accessors T} {k : Kind} {limit limit' : Nat}
  {Reads Writes : S → Int → Prop} {Reads' Writes' : T → Int → Prop} {s : S} {s' : T} {n m : Int}

/-- Writing back what was read changes nothing. -/
theorem read_back (exact : Exact slot k limit Reads Writes) (room : 20 ≤ limit)
    (writes : Writes s n) :
    ∃ text, slot.readText s = .ok text ∧ slot.writeText text s = (.ok (), s) := by
  have reads := exact.reads s n writes
  have accepted : Accepted k limit (numberText n) n :=
    accepted_numberText room (exact.range s n reads)
  obtain ⟨after, written, _, same⟩ := exact.writeText s n _ n writes accepted
  exact ⟨numberText n, exact.readText s n reads, same rfl ▸ written⟩

/-- A text is written just when it is one for a value of the kind. -/
theorem written_iff (exact : Exact slot k limit Reads Writes) (writes : Writes s n)
    (text : Text) : (slot.writeText text s).1 = .ok () ↔ ∃ m, Accepted k limit text m := by
  constructor
  · intro written
    by_contra refused
    obtain ⟨message, failed⟩ := exact.rejectText s n text writes refused
    rw [failed] at written
    cases written
  · intro accepted
    obtain ⟨m, accepted⟩ := accepted
    obtain ⟨after, written, _⟩ := exact.writeText s n text m writes accepted
    rw [written]

/-- Two slots of one kind take the same texts of up to twenty bytes, and have the same
text when they have the same value. -/
theorem agree (exact : Exact slot k limit Reads Writes)
    (exact' : Exact other k limit' Reads' Writes') (room : 20 ≤ limit) (room' : 20 ≤ limit')
    (writes : Writes s n) (writes' : Writes' s' m) :
    (∀ text : Text, text.length ≤ 20 →
      ((slot.writeText text s).1 = .ok () ↔ (other.writeText text s').1 = .ok ())) ∧
      (n = m → slot.readText s = other.readText s') := by
  constructor
  · intro text short
    rw [exact.written_iff writes, exact'.written_iff writes']
    have left := short.trans room
    have right := short.trans room'
    simp only [Accepted, left, right, true_and]
  · intro same
    rw [exact.readText s n (exact.reads s n writes),
      exact'.readText s' m (exact'.reads s' m writes'), same]

end Exact

end Source2Root.NativeIntegers
