import Mathlib
import Source2Root.Decimal

/-!
# `Format`

The arguments of a native, read from the memory of a plugin, and the formatter over
them.  A position in the format is what is left of it from there: a read at its end
and a sum that an `int` does not hold are failures here, and in no other way.
-/

set_option autoImplicit false

namespace Source2Root.Format

inductive Failure where
  | incomplete
  | wideWidth
  | badPrecision
  | widePrecision
  | floatPrecision
  | needsText
  | badByte
  | unsupported
  | conversion
  | tooLong
  | unused
  | index
  | range
  | crossing
  | apart
  | stringLimit
  | stringAddress
  | unterminated
  | outOfBounds
  | overflow
deriving DecidableEq, Repr

/-- The text of a failure.  The last two are no errors of the code. -/
def Failure.message : Failure → String
  | .incomplete => "incomplete format specifier"
  | .wideWidth => "format width exceeds 128"
  | .badPrecision => "invalid format precision"
  | .widePrecision => "format precision exceeds 256"
  | .floatPrecision => "float precision exceeds 9"
  | .needsText => "precision requires %s or %f"
  | .badByte => "%c requires a nonzero byte"
  | .unsupported => "unsupported format specifier"
  | .conversion => "number formatting failed"
  | .tooLong => "formatted message exceeds 4095 bytes"
  | .unused => "unused format arguments"
  | .index => "native argument index out of bounds"
  | .range => "invalid VM memory range"
  | .crossing => "VM memory range crosses an invalid address"
  | .apart => "VM memory range is not contiguous"
  | .stringLimit => "string limit exceeded"
  | .stringAddress => "invalid string address"
  | .unterminated => "string is too long or not terminated"
  | .outOfBounds => "read past the end"
  | .overflow => "sum out of range"

/-! ## The arguments -/

/-- The memory of a plugin: where `LocalToString` maps an address, and the bytes there. -/
structure Vm where
  localToString : Int → Option Nat
  byte : Nat → UInt8

structure Arguments where
  vm : Vm
  values : List (BitVec 32)

def maxCell : Int := 2 ^ 31 - 1

def addCell (address : Int) (i : Nat) : Except Failure Int :=
  if address + i > maxCell then .error .overflow else .ok (address + i)

def Arguments.count (args : Arguments) : Nat := args.values.length

def Arguments.int (args : Arguments) (index : Nat) : Except Failure (BitVec 32) :=
  if index = 0 ∨ index > args.count then .error .index
  else .ok (args.values.getD (index - 1) 0)

/-- The bytes from `i` on lie behind the first one. -/
def Vm.contiguous (vm : Vm) (address : Int) (first i : Nat) : Nat → Except Failure Unit
  | 0 => .ok ()
  | more + 1 =>
      addCell address i >>= fun here =>
        match vm.localToString here with
        | none => .error .crossing
        | some byte =>
            if byte ≠ first + i then .error .apart
            else vm.contiguous address first (i + 1) more

def Vm.address (vm : Vm) (address : Int) (bytes : Nat) (aligned : Bool) : Except Failure Nat :=
  if address < 0 ∨ bytes = 0 ∨ bytes > 4096 ∨ (aligned = true ∧ address % 4 ≠ 0) ∨
      address + bytes > maxCell then .error .range
  else
    match vm.localToString address with
    | none => .error .crossing
    | some first => vm.contiguous address first 0 bytes >>= fun _ => .ok first

def Vm.text (vm : Vm) (address : Int) (text : Text) : Nat → Except Failure Text
  | 0 => .error .unterminated
  | more + 1 =>
      if address < 0 ∨ address + text.length > maxCell then .error .stringAddress
      else do
        let here ← addCell address text.length
        let byte ← vm.address here 1 false
        if vm.byte byte = 0 then return text
        else vm.text address (text ++ [Char.ofNat (vm.byte byte).toNat]) more

def Arguments.string (args : Arguments) (index limit : Nat) : Except Failure Text := do
  let address ← args.int index
  if limit > 4095 then .error .stringLimit
  else args.vm.text address.toInt [] (limit + 1)

/-- A cell behind its address, the lowest byte first. -/
def Arguments.cell (args : Arguments) (index : Nat) : Except Failure (BitVec 32) := do
  let address ← args.int index
  let first ← args.vm.address address.toInt 4 true
  return BitVec.ofNat 32 ((args.vm.byte first).toNat + 2 ^ 8 * (args.vm.byte (first + 1)).toNat +
    2 ^ 16 * (args.vm.byte (first + 2)).toNat + 2 ^ 24 * (args.vm.byte (first + 3)).toNat)

/-! ## Directives -/

structure Directive where
  left : Bool
  zero : Bool
  width : Nat
  precision : Option Nat
  spec : Char
deriving DecidableEq, Repr

def peek : Text → Except Failure Char
  | [] => .error .outOfBounds
  | c :: _ => .ok c

def maxInt : Nat := 2 ^ 31 - 1

/-- The loops that read a width or a precision. -/
def digits (limit : Nat) (excess : Failure) (value : Nat) : Text → Except Failure (Nat × Text)
  | [] => .ok (value, [])
  | c :: rest =>
      if isDigit c then
        if value * 10 + c.toNat > maxInt then .error .overflow
        else if value * 10 + c.toNat - 48 > limit then .error excess
        else digits limit excess (value * 10 + c.toNat - 48) rest
      else .ok (value, c :: rest)

def takeIf (c : Char) : Text → Bool × Text
  | [] => (false, [])
  | d :: rest => if d = c then (true, rest) else (false, d :: rest)

def scanPrecision : Text → Except Failure (Option Nat × Text)
  | '.' :: rest =>
      if rest.head?.any isDigit then do
        let (precision, rest) ← digits 256 .widePrecision 0 rest
        return (some precision, rest)
      else .error .badPrecision
  | text => .ok (none, text)

/-- A directive behind its percent sign, and what is left behind it. -/
def scanDirective (text : Text) : Except Failure (Directive × Text) := do
  let _ ← peek text
  let left := takeIf '-' text
  let zero := takeIf '0' left.2
  let width ← digits 128 .wideWidth 0 zero.2
  let precision ← scanPrecision width.2
  if precision.2 = [] then .error .incomplete
  else do
    let spec ← peek precision.2
    return (⟨left.1, zero.1, width.1, precision.1, spec⟩, precision.2.tail)

/-! ## Fields -/

def hexadecimal (n : Nat) : Text := Nat.toDigits 16 n

/-- `c -= 'a' - 'A'`. -/
def upper (c : Char) : Char :=
  if 'a' ≤ c ∧ c ≤ 'f' then Char.ofNat (c.toNat - ('a'.toNat - 'A'.toNat)) else c

/-- `std::to_chars` into the buffer: the text, unless it does not fit. -/
def toChars (text : Text) : Except Failure Text :=
  if text.length > 384 then .error .conversion else .ok text

/-- `floats` is the text of a float with so many digits behind the point. -/
def convert (floats : BitVec 32 → Nat → Text) (directive : Directive) (value : BitVec 32) :
    Except Failure Text :=
  let spec := directive.spec
  if spec = 'f' then
    if directive.precision.any (· > 9) then .error .floatPrecision
    else toChars (floats value (directive.precision.getD 6))
  else if directive.precision.isSome then .error .needsText
  else if spec = 'c' then
    if value.toInt ≤ 0 ∨ value.toInt > 255 then .error .badByte
    else .ok [Char.ofNat value.toNat]
  else if spec = 'd' ∨ spec = 'i' then toChars (numberText value.toInt)
  else if spec = 'u' ∨ spec = 'x' ∨ spec = 'X' then
    toChars (if spec = 'u' then decimal value.toNat else hexadecimal value.toNat)
  else .error .unsupported

def field (floats : BitVec 32 → Nat → Text) (args : Arguments) (directive : Directive)
    (index : Nat) : Except Failure Text :=
  if directive.spec = 's' then do
    let text ← args.string index 4095
    return match directive.precision with
      | none => text
      | some precision => if text.length > precision then text.take precision else text
  else do
    let value ← args.cell index
    let text ← convert floats directive value
    return if directive.spec = 'X' then text.map upper else text

def pad (directive : Directive) (text : Text) : Text :=
  if text.length < directive.width then
    let padding := directive.width - text.length
    if directive.left then text ++ List.replicate padding ' '
    else if directive.zero && directive.spec != 's' && directive.spec != 'c' then
      if text.head? = some '-' then '-' :: (List.replicate padding '0' ++ text.tail)
      else List.replicate padding '0' ++ text
    else List.replicate padding ' ' ++ text
  else text

def maxMessage : Nat := 4095

/-! ## The loop -/

theorem digits_left {limit value out : Nat} {excess : Failure} {text left : Text}
    (read : digits limit excess value text = .ok (out, left)) : left.length ≤ text.length := by
  fun_induction digits limit excess value text with
  | case1 value =>
      cases read
      exact le_refl _
  | case2 value c rest isDigit large => cases read
  | case3 value c rest isDigit fits excessive => cases read
  | case4 value c rest isDigit fits within ih =>
      have shorter := ih read
      rw [List.length_cons]
      omega
  | case5 value c rest noDigit =>
      cases read
      exact le_refl _

theorem scanPrecision_left {text left : Text} {precision : Option Nat}
    (read : scanPrecision text = .ok (precision, left)) : left.length ≤ text.length := by
  unfold scanPrecision at read
  split at read
  · rename_i rest
    split at read
    · obtain ⟨⟨value, after⟩, one, done⟩ := bind_eq_ok.mp read
      cases done
      have shorter := digits_left one
      rw [List.length_cons]
      omega
    · cases read
  · cases read
    exact le_refl _

theorem takeIf_left (c : Char) (text : Text) : (takeIf c text).2.length ≤ text.length := by
  cases text with
  | nil => exact le_refl _
  | cons d rest =>
      rw [takeIf]
      split
      · exact Nat.le_succ _
      · exact le_refl _

theorem scanDirective_left {text left : Text} {directive : Directive}
    (read : scanDirective text = .ok (directive, left)) : left.length < text.length := by
  unfold scanDirective at read
  obtain ⟨_, _, read⟩ := bind_eq_ok.mp read
  obtain ⟨width, widths, read⟩ := bind_eq_ok.mp read
  obtain ⟨precision, precisions, read⟩ := bind_eq_ok.mp read
  have first := takeIf_left '-' text
  have second := takeIf_left '0' (takeIf '-' text).2
  have third := digits_left widths
  have fourth := scanPrecision_left precisions
  split at read
  · cases read
  · rename_i filled
    obtain ⟨spec, _, done⟩ := bind_eq_ok.mp read
    cases done
    have positive := List.length_pos_iff.mpr filled
    rw [List.length_tail]
    omega

def loop (floats : BitVec 32 → Nat → Text) (args : Arguments) (result : Text) (index : Nat) :
    Text → Except Failure (Text × Nat)
  | [] => .ok (result, index)
  | c :: text =>
      if c ≠ '%' then loop floats args (result ++ [c]) index text
      else if text = [] then .error .incomplete
      else if text.head? = some '%' then loop floats args (result ++ ['%']) index text.tail
      else
        match _ : scanDirective text with
        | .error failure => .error failure
        | .ok (directive, left) =>
            match field floats args directive index with
            | .error failure => .error failure
            | .ok text =>
                if result.length + (pad directive text).length > maxMessage then .error .tooLong
                else loop floats args (result ++ pad directive text) (index + 1) left
  termination_by text => text.length
  decreasing_by
    · simp
    · rw [List.length_cons, List.length_tail]
      omega
    · rename_i scanned _
      have shorter := scanDirective_left scanned
      rw [List.length_cons]
      omega

def format (floats : BitVec 32 → Nat → Text) (args : Arguments) (index : Nat) :
    Except Failure Text := do
  let source ← args.string index 4095
  let (result, next) ← loop floats args [] (index + 1) source
  if result.length > maxMessage then .error .tooLong
  else if next ≠ args.count + 1 then .error .unused
  else return result

end Source2Root.Format
