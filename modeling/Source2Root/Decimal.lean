import Mathlib
import Source2Root.Json

/-!
# Numbers as decimal text

`std::to_string`, a number padded with zeros to a width (`std::setw` with
`std::setfill('0')`) and `std::from_chars` for a 64-bit unsigned number; the same for
a signed one.
-/

set_option autoImplicit false

namespace Source2Root

def digit (n : Nat) : Char := Char.ofNat (48 + n)

def isDigit (c : Char) : Bool := 48 ≤ c.toNat && c.toNat ≤ 57

/-- `std::to_string`. -/
def decimal (n : Nat) : Text :=
  if n = 0 then ['0'] else (Nat.digits 10 n).reverse.map digit

def padded (width n : Nat) : Text :=
  List.replicate (width - (decimal n).length) '0' ++ decimal n

def digitsValue (text : Text) : Nat := text.foldl (fun n c => 10 * n + (c.toNat - 48)) 0

/-- `std::from_chars` that has to take the whole text. -/
def fromChars (text : Text) : Option Nat :=
  if text ≠ [] ∧ text.all isDigit = true ∧ digitsValue text < 2 ^ 64 then some (digitsValue text)
  else none

theorem digit_toNat {n : Nat} (small : n < 10) : (digit n).toNat = 48 + n := by
  interval_cases n <;> decide

theorem isDigit_digit {n : Nat} (small : n < 10) : isDigit (digit n) = true := by
  simp only [isDigit, digit_toNat small, Bool.and_eq_true, decide_eq_true_eq]
  omega

theorem digitsValue_concat (text : Text) (c : Char) :
    digitsValue (text ++ [c]) = 10 * digitsValue text + (c.toNat - 48) := by
  simp [digitsValue, List.foldl_append]

theorem digitsValue_reverse : ∀ digits : List Nat, (∀ d ∈ digits, d < 10) →
    digitsValue (digits.reverse.map digit) = Nat.ofDigits 10 digits := by
  intro digits
  induction digits with
  | nil => intro _; rfl
  | cons d rest ih =>
      intro small
      obtain ⟨here, later⟩ := List.forall_mem_cons.mp small
      rw [List.reverse_cons, List.map_append, List.map_singleton, digitsValue_concat, ih later,
        digit_toNat here, Nat.ofDigits_cons]
      omega

theorem digitsValue_decimal (n : Nat) : digitsValue (decimal n) = n := by
  by_cases zero : n = 0
  · simp [decimal, zero, digitsValue]
  · rw [decimal, if_neg zero, digitsValue_reverse, Nat.ofDigits_digits]
    exact fun d member => Nat.digits_lt_base (by decide) member

theorem decimal_digits (n : Nat) : ∀ c ∈ decimal n, isDigit c = true := by
  intro c member
  by_cases zero : n = 0
  · have zero_char : c = '0' := by simpa [decimal, zero] using member
    rw [zero_char]
    decide
  · rw [decimal, if_neg zero, List.mem_map] at member
    obtain ⟨d, inside, rfl⟩ := member
    exact isDigit_digit (Nat.digits_lt_base (by decide) (List.mem_reverse.mp inside))

theorem decimal_ne_nil (n : Nat) : decimal n ≠ [] := by
  by_cases zero : n = 0
  · simp [decimal, zero]
  · simp [decimal, zero, Nat.digits_ne_nil_iff_ne_zero]

theorem decimal_length {n width : Nat} (fits : n < 10 ^ width) (wide : 1 ≤ width) :
    (decimal n).length ≤ width := by
  by_cases zero : n = 0
  · simpa [decimal, zero] using wide
  · rw [decimal, if_neg zero, List.length_map, List.length_reverse]
    exact (Nat.digits_length_le_iff (by decide) n).mpr fits

theorem padded_length {n width : Nat} (fits : n < 10 ^ width) (wide : 1 ≤ width) :
    (padded width n).length = width := by
  have short := decimal_length fits wide
  rw [padded, List.length_append, List.length_replicate]
  omega

theorem digitsValue_zeros (count : Nat) (text : Text) :
    digitsValue (List.replicate count '0' ++ text) = digitsValue text := by
  induction count with
  | zero => rfl
  | succ count ih => simpa [List.replicate_succ, digitsValue] using ih

theorem padded_digits (width n : Nat) : ∀ c ∈ padded width n, isDigit c = true := by
  intro c member
  rcases List.mem_append.mp member with zero | inside
  · rw [(List.mem_replicate.mp zero).2]
    decide
  · exact decimal_digits n c inside

theorem digitsValue_lt : ∀ text : Text, text.all isDigit = true →
    digitsValue text < 10 ^ text.length := by
  intro text
  induction text using List.reverseRecOn with
  | nil => intro _; decide
  | append_singleton text c ih =>
      intro digits
      rw [List.all_append, Bool.and_eq_true] at digits
      have before := ih digits.1
      have last : c.toNat ≤ 57 := by
        have here : isDigit c = true := by simpa using digits.2
        simp only [isDigit, Bool.and_eq_true, decide_eq_true_eq] at here
        exact here.2
      rw [digitsValue_concat, List.length_append, List.length_singleton, pow_succ]
      omega

/-- Digit texts of one length are told apart by their values. -/
theorem digitsValue_inj : ∀ text other : Text, text.length = other.length →
    text.all isDigit = true → other.all isDigit = true →
    digitsValue text = digitsValue other → text = other := by
  intro text
  induction text using List.reverseRecOn with
  | nil =>
      intro other same _ _ _
      exact (List.length_eq_zero_iff.mp same.symm).symm
  | append_singleton text c ih =>
      intro other same digits others value
      rcases List.eq_nil_or_concat' other with rfl | ⟨before, d, rfl⟩
      · simp at same
      · rw [List.all_append, Bool.and_eq_true] at digits others
        have here : isDigit c = true := by simpa using digits.2
        have there : isDigit d = true := by simpa using others.2
        simp only [isDigit, Bool.and_eq_true, decide_eq_true_eq] at here there
        rw [digitsValue_concat, digitsValue_concat] at value
        have shorter : text.length = before.length := by simpa using same
        have init : text = before := ih before shorter digits.1 others.1 (by omega)
        have last : c = d := Char.toNat_inj.mp (by omega)
        rw [init, last]

theorem digitsValue_padded (width n : Nat) : digitsValue (padded width n) = n := by
  rw [padded, digitsValue_zeros, digitsValue_decimal]

/-- A digit text is its value, padded to its length. -/
theorem padded_digitsValue {text : Text} (filled : text ≠ []) (digits : text.all isDigit = true) :
    padded text.length (digitsValue text) = text := by
  have wide : 1 ≤ text.length := List.length_pos_iff.mpr filled
  have length := padded_length (digitsValue_lt text digits) wide
  have padding : (padded text.length (digitsValue text)).all isDigit = true :=
    List.all_eq_true.mpr (padded_digits _ _)
  exact digitsValue_inj _ _ length padding digits (digitsValue_padded _ _)

theorem fromChars_decimal {n : Nat} (fits : n < 2 ^ 64) : fromChars (decimal n) = some n := by
  have digits : (decimal n).all isDigit = true := List.all_eq_true.mpr (decimal_digits n)
  rw [fromChars, digitsValue_decimal, if_pos ⟨decimal_ne_nil n, digits, fits⟩]

theorem fromChars_eq_some {text : Text} {n : Nat} (read : fromChars text = some n) :
    text ≠ [] ∧ text.all isDigit = true ∧ digitsValue text = n ∧ n < 2 ^ 64 := by
  unfold fromChars at read
  split at read
  · rename_i accepted
    injection read with value
    exact ⟨accepted.1, accepted.2.1, value, value ▸ accepted.2.2⟩
  · cases read

theorem fromChars_padded (width : Nat) {n : Nat} (fits : n < 2 ^ 64) :
    fromChars (padded width n) = some n := by
  have digits : (padded width n).all isDigit = true := List.all_eq_true.mpr (padded_digits width n)
  have filled : padded width n ≠ [] := by simp [padded, decimal_ne_nil]
  rw [fromChars, digitsValue_padded, if_pos ⟨filled, digits, fits⟩]

/-! ## Signed numbers -/

/-- `std::to_string` of an `int`. -/
def numberText (n : Int) : Text := if n < 0 then '-' :: decimal n.natAbs else decimal n.natAbs

/-- `std::from_chars` for an `int` that has to take the whole text. -/
def fromCharsInt (text : Text) : Option Int :=
  let digits := if text.head? = some '-' then text.tail else text
  let number : Int :=
    if text.head? = some '-' then -(digitsValue digits : Int) else digitsValue digits
  if digits ≠ [] ∧ digits.all isDigit = true ∧ -2 ^ 31 ≤ number ∧ number < 2 ^ 31 then some number
  else none

theorem numberText_of_nonneg {n : Int} (low : 0 ≤ n) : numberText n = decimal n.toNat := by
  rw [numberText, if_neg (by omega)]
  congr 1
  omega

theorem fromCharsInt_numberText {n : Int} (low : 0 ≤ n) (high : n < 2 ^ 31) :
    fromCharsInt (numberText n) = some n := by
  rw [numberText_of_nonneg low]
  have noSign : (decimal n.toNat).head? ≠ some '-' := by
    intro sign
    have digit := decimal_digits n.toNat '-' (List.mem_of_mem_head? sign)
    exact absurd digit (by decide)
  have all : (decimal n.toNat).all isDigit = true := List.all_eq_true.mpr (decimal_digits n.toNat)
  unfold fromCharsInt
  simp only [if_neg noSign, digitsValue_decimal]
  rw [if_pos ⟨decimal_ne_nil _, all, by omega, by omega⟩, Int.toNat_of_nonneg low]

end Source2Root
