import Source2Root.Json

/-!
# Texts of Python and their UTF-8

A `str` is the list of its code points, lone surrogates among them; a `bytes` is
a `Text`, the list of its bytes.  `encode` and `decode` are the strict UTF-8 codec.
-/

set_option autoImplicit false

namespace Source2Root.Python

abbrev Str := List Nat

def str (literal : String) : Str := literal.toList.map Char.toNat

def byte (n : Nat) : Char := Char.ofNat n

def tail (n : Nat) : Char := byte (0x80 + n % 64)

/-- `chr(c).encode('utf-8')`; a surrogate has no encoding. -/
def encodePoint (c : Nat) : Option Text :=
  if c < 0x80 then some [byte c]
  else if c < 0x800 then some [byte (0xc0 + c / 64), tail c]
  else if 0xd800 ≤ c ∧ c < 0xe000 then none
  else if c < 0x10000 then some [byte (0xe0 + c / 4096), tail (c / 64), tail c]
  else if c < 0x110000 then
    some [byte (0xf0 + c / 262144), tail (c / 4096), tail (c / 64), tail c]
  else none

def encode : Str → Option Text
  | [] => some []
  | c :: rest =>
      (encodePoint c).bind fun bytes => (encode rest).map fun more => bytes ++ more

/-- `decode` with `more` bytes of a character to come, the bits of it so far and
the least character that needs so many bytes. -/
def decodeFrom (more bits least : Nat) : Text → Option Str
  | [] => if more = 0 then some [] else none
  | b :: rest =>
      if more = 0 then
        if b.toNat < 0x80 then (decodeFrom 0 0 0 rest).map fun text => b.toNat :: text
        else if 0xc2 ≤ b.toNat ∧ b.toNat < 0xe0 then decodeFrom 1 (b.toNat - 0xc0) 0x80 rest
        else if 0xe0 ≤ b.toNat ∧ b.toNat < 0xf0 then decodeFrom 2 (b.toNat - 0xe0) 0x800 rest
        else if 0xf0 ≤ b.toNat ∧ b.toNat < 0xf5 then decodeFrom 3 (b.toNat - 0xf0) 0x10000 rest
        else none
      else if 0x80 ≤ b.toNat ∧ b.toNat < 0xc0 then
        let point := bits * 64 + (b.toNat - 0x80)
        if more = 1 then
          if least ≤ point ∧ point < 0x110000 ∧ ¬(0xd800 ≤ point ∧ point < 0xe000) then
            (decodeFrom 0 0 0 rest).map fun text => point :: text
          else none
        else decodeFrom (more - 1) point least rest
      else none

def decode (raw : Text) : Option Str := decodeFrom 0 0 0 raw

/-! ## Encoded texts -/

theorem byte_toNat {n : Nat} (small : n < 256) : (byte n).toNat = n := by
  have valid : n.isValidChar := Or.inl (by omega)
  simp [byte, Char.ofNat, valid]

theorem tail_toNat (n : Nat) : (tail n).toNat = 0x80 + n % 64 :=
  byte_toNat (by omega)

theorem decodeFrom_tail {more bits least n : Nat} (several : 1 < more) (rest : Text) :
    decodeFrom more bits least (tail n :: rest)
      = decodeFrom (more - 1) (bits * 64 + n % 64) least rest := by
  have between : 0x80 ≤ (tail n).toNat ∧ (tail n).toNat < 0xc0 := by
    rw [tail_toNat]
    omega
  have point : bits * 64 + ((tail n).toNat - 0x80) = bits * 64 + n % 64 := by
    rw [tail_toNat]
    omega
  rw [decodeFrom, if_neg (by omega), if_pos between]
  simp only [point, if_neg several.ne']

theorem decodeFrom_last {bits least n : Nat} (rest : Text)
    (fits : least ≤ bits * 64 + n % 64 ∧ bits * 64 + n % 64 < 0x110000 ∧
      ¬(0xd800 ≤ bits * 64 + n % 64 ∧ bits * 64 + n % 64 < 0xe000)) :
    decodeFrom 1 bits least (tail n :: rest)
      = (decode rest).map fun text => (bits * 64 + n % 64) :: text := by
  have between : 0x80 ≤ (tail n).toNat ∧ (tail n).toNat < 0xc0 := by
    rw [tail_toNat]
    omega
  have point : bits * 64 + ((tail n).toNat - 0x80) = bits * 64 + n % 64 := by
    rw [tail_toNat]
    omega
  rw [decodeFrom, if_neg (by omega), if_pos between]
  simp only [point, if_true, if_pos fits, decode]

theorem decode_encodePoint {c : Nat} {bytes : Text} (encoded : encodePoint c = some bytes)
    (rest : Text) : decode (bytes ++ rest) = (decode rest).map fun text => c :: text := by
  unfold encodePoint at encoded
  by_cases one : c < 0x80
  · rw [if_pos one, Option.some.injEq] at encoded
    have value : (byte c).toNat = c := byte_toNat (by omega)
    rw [← encoded, decode, List.singleton_append, decodeFrom]
    simp [value, one, decode]
  rw [if_neg one] at encoded
  by_cases two : c < 0x800
  · rw [if_pos two, Option.some.injEq] at encoded
    have value : (byte (0xc0 + c / 64)).toNat = 0xc0 + c / 64 := byte_toNat (by omega)
    have split : c / 64 * 64 + c % 64 = c := by omega
    rw [← encoded, decode, List.cons_append, decodeFrom, if_pos rfl, if_neg (by omega),
      if_pos (by omega), value, Nat.add_sub_cancel_left, List.singleton_append,
      decodeFrom_last rest (by omega), split]
  rw [if_neg two] at encoded
  by_cases surrogate : 0xd800 ≤ c ∧ c < 0xe000
  · rw [if_pos surrogate] at encoded
    cases encoded
  rw [if_neg surrogate] at encoded
  by_cases three : c < 0x10000
  · rw [if_pos three, Option.some.injEq] at encoded
    have value : (byte (0xe0 + c / 4096)).toNat = 0xe0 + c / 4096 := byte_toNat (by omega)
    have split : (c / 4096 * 64 + c / 64 % 64) * 64 + c % 64 = c := by omega
    rw [← encoded, decode, List.cons_append, decodeFrom, if_pos rfl, if_neg (by omega),
      if_neg (by omega), if_pos (by omega), value, Nat.add_sub_cancel_left, List.cons_append,
      decodeFrom_tail (by omega), List.singleton_append, decodeFrom_last rest (by omega), split]
  rw [if_neg three] at encoded
  by_cases four : c < 0x110000
  · rw [if_pos four, Option.some.injEq] at encoded
    have value : (byte (0xf0 + c / 262144)).toNat = 0xf0 + c / 262144 := byte_toNat (by omega)
    have split : ((c / 262144 * 64 + c / 4096 % 64) * 64 + c / 64 % 64) * 64 + c % 64 = c := by
      omega
    rw [← encoded, decode, List.cons_append, decodeFrom, if_pos rfl, if_neg (by omega),
      if_neg (by omega), if_neg (by omega), if_pos (by omega), value, Nat.add_sub_cancel_left,
      List.cons_append, decodeFrom_tail (by omega), List.cons_append, decodeFrom_tail (by omega),
      List.singleton_append, decodeFrom_last rest (by omega), split]
  rw [if_neg four] at encoded
  cases encoded

/-- What was encoded decodes to what it was. -/
theorem decode_encode {text : Str} : ∀ {raw : Text}, encode text = some raw →
    decode raw = some text := by
  induction text with
  | nil =>
      intro raw encoded
      cases encoded
      rfl
  | cons c rest ih =>
      intro raw encoded
      obtain ⟨bytes, here, later⟩ := Option.bind_eq_some_iff.mp encoded
      obtain ⟨more, there, rfl⟩ := Option.map_eq_some_iff.mp later
      rw [decode_encodePoint here, ih there, Option.map_some]

theorem encode_injective {s t : Str} {raw : Text} (left : encode s = some raw)
    (right : encode t = some raw) : s = t := by
  have same := (decode_encode left).symm.trans (decode_encode right)
  exact Option.some.inj same

/-! ## Texts of ASCII -/

def Ascii (text : Str) : Prop := ∀ c ∈ text, c < 0x80

instance (text : Str) : Decidable (Ascii text) :=
  inferInstanceAs (Decidable (∀ c ∈ text, c < 0x80))

theorem encode_ascii {text : Str} : Ascii text → encode text = some (text.map byte) := by
  induction text with
  | nil => exact fun _ => rfl
  | cons c rest ih =>
      intro ascii
      obtain ⟨here, later⟩ := List.forall_mem_cons.mp ascii
      simp [encode, encodePoint, here, ih later]

theorem decode_ascii {text : Str} (ascii : Ascii text) : decode (text.map byte) = some text :=
  decode_encode (encode_ascii ascii)

end Source2Root.Python
