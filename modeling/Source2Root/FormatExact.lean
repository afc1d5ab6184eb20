import Source2Root.Format

/-!
# What `Format` writes

A reference for the formatter: the pieces of a format, the readings of the
arguments, and the text that the pieces make of them.
-/

set_option autoImplicit false

namespace Source2Root.Format

/-! ## The reference -/

inductive Conversion where
  | d
  | i
  | u
  | x
  | upperX
  | c
  | s
  | f
deriving DecidableEq, Repr

def Conversion.char : Conversion → Char
  | .d => 'd'
  | .i => 'i'
  | .u => 'u'
  | .x => 'x'
  | .upperX => 'X'
  | .c => 'c'
  | .s => 's'
  | .f => 'f'

/-- A directive as it is written behind its percent sign. -/
structure Written where
  left : Bool
  zero : Bool
  width : Text
  precision : Option Text
  conversion : Conversion
deriving DecidableEq, Repr

def flagText (flag : Bool) (c : Char) : Text := if flag then [c] else []

def precisionText : Option Text → Text
  | none => []
  | some digits => '.' :: digits

def Written.text (written : Written) : Text :=
  flagText written.left '-' ++ (flagText written.zero '0' ++
    (written.width ++ (precisionText written.precision ++ [written.conversion.char])))

/-- The precisions that go with a conversion. -/
def Conversion.Precise : Conversion → Nat → Prop
  | .s, precision => precision ≤ 256
  | .f, precision => precision ≤ 9
  | _, _ => False

structure Written.Fine (written : Written) : Prop where
  digits : written.width.all isDigit = true
  width : digitsValue written.width ≤ 128
  leading : written.zero = false → written.width.head? ≠ some '0'
  precision : ∀ digits, written.precision = some digits →
    digits ≠ [] ∧ digits.all isDigit = true ∧ written.conversion.Precise (digitsValue digits)

inductive Piece where
  | byte (c : Char)
  | percent
  | directive (written : Written)
deriving DecidableEq, Repr

def Piece.text : Piece → Text
  | .byte c => [c]
  | .percent => ['%', '%']
  | .directive written => '%' :: written.text

def Piece.Fine : Piece → Prop
  | .byte c => c ≠ '%'
  | .percent => True
  | .directive written => written.Fine

/-- What an argument reads as, where it reads: a text, a cell. -/
structure Reading where
  text : Option Text
  cell : Option (BitVec 32)

/-- What a directive writes, before it is as wide as it should be. -/
inductive Content where
  | words (text : Text)
  | number (negative : Bool) (digits : Text)

def Content.text : Content → Text
  | .words text => text
  | .number negative digits => flagText negative '-' ++ digits

def byteContent (value : BitVec 32) : Option Content :=
  if 0 < value.toInt ∧ value.toInt ≤ 255 then some (.words [Char.ofNat value.toNat]) else none

def floatContent (text : Text) : Option Content :=
  if text.length ≤ 384 then
    match text with
    | '-' :: digits => some (.number true digits)
    | digits => some (.number false digits)
  else none

def Written.content (floats : BitVec 32 → Nat → Text) (written : Written) (reading : Reading) :
    Option Content :=
  match written.conversion with
  | .d => reading.cell.map fun value => .number (value.toInt < 0) (decimal value.toInt.natAbs)
  | .i => reading.cell.map fun value => .number (value.toInt < 0) (decimal value.toInt.natAbs)
  | .u => reading.cell.map fun value => .number false (decimal value.toNat)
  | .x => reading.cell.map fun value => .number false (hexadecimal value.toNat)
  | .upperX => reading.cell.map fun value =>
      .number false ((hexadecimal value.toNat).map Char.toUpper)
  | .c => reading.cell.bind byteContent
  | .s => reading.text.map fun text =>
      .words (written.precision.elim text fun digits => text.take (digitsValue digits))
  | .f => reading.cell.bind fun value =>
      floatContent (floats value (written.precision.elim 6 digitsValue))

/-- As wide as the directive says: with zeros behind the sign of a number, or with
blanks. -/
def Written.layout (written : Written) (content : Content) : Text :=
  let missing := digitsValue written.width - content.text.length
  if written.left then content.text ++ List.replicate missing ' '
  else
    match written.zero, content with
    | true, .number negative digits =>
        flagText negative '-' ++ (List.replicate missing '0' ++ digits)
    | _, content => List.replicate missing ' ' ++ content.text

example : Written.layout ⟨false, true, ['5'], none, .d⟩ (.number true ['1', '2']) =
    ['-', '0', '0', '1', '2'] := by decide

/-- The text of the pieces, and the readings that no piece consumed. -/
def render (floats : BitVec 32 → Nat → Text) : List Piece → List Reading →
    Option (Text × List Reading)
  | [], readings => some ([], readings)
  | .byte c :: pieces, readings =>
      (render floats pieces readings).map fun out => (c :: out.1, out.2)
  | .percent :: pieces, readings =>
      (render floats pieces readings).map fun out => ('%' :: out.1, out.2)
  | .directive _ :: _, [] => none
  | .directive written :: pieces, reading :: readings =>
      (written.content floats reading).bind fun content =>
        (render floats pieces readings).map fun out => (written.layout content ++ out.1, out.2)

/-! ## Digits -/

theorem digits_of_text {limit : Nat} (excess : Failure) {left : Text} (bounded : limit ≤ 256)
    (stops : left.head?.any isDigit = false) (text : Text) : ∀ {value : Nat},
      text.all isDigit = true → text.foldl (fun n c => 10 * n + (c.toNat - 48)) value ≤ limit →
      digits limit excess value (text ++ left) =
        .ok (text.foldl (fun n c => 10 * n + (c.toNat - 48)) value, left) := by
  have grows : ∀ (text : Text) (value : Nat),
      value ≤ text.foldl (fun n c => 10 * n + (c.toNat - 48)) value := by
    intro text
    induction text with
    | nil => exact fun value => le_refl value
    | cons c rest ih =>
        intro value
        have later := ih (10 * value + (c.toNat - 48))
        rw [List.foldl_cons]
        omega
  induction text with
  | nil =>
      intro value _ _
      cases left with
      | nil => rfl
      | cons c rest =>
          have noDigit : isDigit c = false := by simpa using stops
          rw [List.nil_append, digits, if_neg (by rw [noDigit]; exact Bool.false_ne_true)]
          rfl
  | cons c rest ih =>
      intro value all fits
      rw [List.all_cons, Bool.and_eq_true] at all
      rw [List.foldl_cons] at fits ⊢
      have small := grows rest (10 * value + (c.toNat - 48))
      have range := all.1
      simp only [isDigit, Bool.and_eq_true, decide_eq_true_eq] at range
      have next : value * 10 + c.toNat - 48 = 10 * value + (c.toNat - 48) := by omega
      rw [List.cons_append, digits, if_pos all.1, if_neg (by unfold maxInt; omega),
        if_neg (by omega), next]
      exact ih all.2 fits

theorem text_of_digits {limit value out : Nat} {excess : Failure} {text left : Text}
    (read : digits limit excess value text = .ok (out, left)) (within : value ≤ limit) :
    ∃ ds : Text, text = ds ++ left ∧ ds.all isDigit = true ∧ left.head?.any isDigit = false ∧
      out = ds.foldl (fun n c => 10 * n + (c.toNat - 48)) value ∧ out ≤ limit := by
  fun_induction digits limit excess value text with
  | case1 value =>
      cases read
      exact ⟨[], rfl, rfl, rfl, rfl, within⟩
  | case2 value c rest isDigit large => cases read
  | case3 value c rest isDigit fits excessive => cases read
  | case4 value c rest isADigit fits small ih =>
      obtain ⟨ds, rfl, all, stops, rfl, bounded⟩ := ih read (by omega)
      have range := isADigit
      simp only [isDigit, Bool.and_eq_true, decide_eq_true_eq] at range
      have next : value * 10 + c.toNat - 48 = 10 * value + (c.toNat - 48) := by omega
      refine ⟨c :: ds, rfl, ?_, stops, ?_, bounded⟩
      · rw [List.all_cons, isADigit, all, Bool.true_and]
      · rw [List.foldl_cons, next]
  | case5 value c rest noDigit =>
      cases read
      refine ⟨[], rfl, rfl, ?_, rfl, within⟩
      simpa using noDigit

/-! ## Directives -/

theorem takeIf_flag {flag : Bool} {c : Char} {text : Text}
    (other : flag = false → text.head? ≠ some c) :
    takeIf c (flagText flag c ++ text) = (flag, text) := by
  cases flag with
  | true => exact if_pos rfl
  | false =>
      cases text with
      | nil => rfl
      | cons d rest =>
          have different : d ≠ c := fun same => other rfl (by rw [same]; rfl)
          exact if_neg different

theorem flag_of_takeIf (c : Char) (text : Text) :
    text = flagText (takeIf c text).1 c ++ (takeIf c text).2 ∧
      ((takeIf c text).1 = false → (takeIf c text).2.head? ≠ some c) := by
  cases text with
  | nil => exact ⟨rfl, by simp [takeIf]⟩
  | cons d rest =>
      rw [takeIf]
      split
      · rename_i same
        exact ⟨by rw [same]; rfl, by simp⟩
      · rename_i different
        exact ⟨rfl, by simpa using different⟩

theorem scanPrecision_text {precision : Option Text} {left : Text}
    (stops : left.head?.any isDigit = false) (noPoint : left.head? ≠ some '.')
    (fine : ∀ digits, precision = some digits →
      digits ≠ [] ∧ digits.all isDigit = true ∧ digitsValue digits ≤ 256) :
    scanPrecision (precisionText precision ++ left) = .ok (precision.map digitsValue, left) := by
  cases precision with
  | none =>
      unfold scanPrecision
      split
      · rename_i rest is
        rw [precisionText, List.nil_append] at is
        rw [is] at noPoint
        exact absurd rfl noPoint
      · rfl
  | some text =>
      obtain ⟨filled, all, small⟩ := fine text rfl
      have first : (text ++ left).head?.any isDigit = true := by
        cases text with
        | nil => exact absurd rfl filled
        | cons c rest =>
            rw [List.all_cons, Bool.and_eq_true] at all
            exact all.1
      have read : digits 256 .widePrecision 0 (text ++ left) = .ok (digitsValue text, left) :=
        digits_of_text .widePrecision (le_refl 256) stops text all small
      show scanPrecision ('.' :: (text ++ left)) = _
      rw [scanPrecision, if_pos first]
      exact bind_eq_ok.mpr ⟨_, read, rfl⟩

theorem text_of_scanPrecision {precision : Option Nat} {text left : Text}
    (read : scanPrecision text = .ok (precision, left)) :
    ∃ digits : Option Text, text = precisionText digits ++ left ∧
      precision = digits.map digitsValue ∧
      (∀ ds, digits = some ds → ds ≠ [] ∧ ds.all isDigit = true ∧ digitsValue ds ≤ 256) := by
  unfold scanPrecision at read
  split at read
  · rename_i rest
    split at read
    · rename_i first
      obtain ⟨⟨value, after⟩, one, done⟩ := bind_eq_ok.mp read
      cases done
      obtain ⟨ds, rfl, all, stops, rfl, small⟩ := text_of_digits one (Nat.zero_le _)
      refine ⟨some ds, rfl, rfl, ?_⟩
      rintro _ ⟨⟩
      refine ⟨?_, all, small⟩
      rintro rfl
      rw [List.nil_append, stops] at first
      cases first
    · cases read
  · cases read
    exact ⟨none, rfl, rfl, by simp⟩

def Written.directive (written : Written) : Directive :=
  ⟨written.left, written.zero, digitsValue written.width, written.precision.map digitsValue,
    written.conversion.char⟩

theorem Conversion.char_plain (conversion : Conversion) :
    isDigit conversion.char = false ∧ conversion.char ≠ '.' ∧ conversion.char ≠ '-' ∧
      conversion.char ≠ '0' ∧ conversion.char ≠ '%' := by
  cases conversion <;> decide

theorem Conversion.Precise.small {conversion : Conversion} {precision : Nat}
    (precise : conversion.Precise precision) : precision ≤ 256 := by
  cases conversion with
  | s => exact precise
  | f => exact Nat.le_trans precise (by decide)
  | d => exact precise.elim
  | i => exact precise.elim
  | u => exact precise.elim
  | x => exact precise.elim
  | upperX => exact precise.elim
  | c => exact precise.elim

/-- The first byte of what follows the width. -/
theorem precision_head (precision : Option Text) (conversion : Conversion) (left : Text) :
    (precisionText precision ++ conversion.char :: left).head? = some '.' ∨
      (precisionText precision ++ conversion.char :: left).head? = some conversion.char := by
  cases precision with
  | none => exact Or.inr rfl
  | some text => exact Or.inl rfl

theorem Written.text_append (written : Written) (left : Text) :
    written.text ++ left = flagText written.left '-' ++ (flagText written.zero '0' ++
      (written.width ++ (precisionText written.precision ++ written.conversion.char :: left))) := by
  simp [Written.text]

/-- The first byte behind the flags of a directive is none that a flag takes. -/
theorem Written.width_head {written : Written} (fine : written.Fine) (left : Text) :
    ∀ c, (written.width ++ (precisionText written.precision ++
        written.conversion.char :: left)).head? = some c →
      c ≠ '-' ∧ c ≠ '%' ∧ (written.zero = false → c ≠ '0') := by
  intro c head
  obtain ⟨-, -, noMinus, noZero, noPercent⟩ := written.conversion.char_plain
  cases width : written.width with
  | cons d rest =>
      rw [width] at head
      cases head
      have digit := fine.digits
      rw [width, List.all_cons, Bool.and_eq_true] at digit
      refine ⟨?_, ?_, ?_⟩
      · rintro rfl
        exact absurd digit.1 (by decide)
      · rintro rfl
        exact absurd digit.1 (by decide)
      · rintro bare rfl
        exact fine.leading bare (by rw [width]; rfl)
  | nil =>
      rw [width, List.nil_append] at head
      rcases precision_head written.precision written.conversion left with point | char
      · rw [point] at head
        cases head
        exact ⟨by decide, by decide, fun _ => by decide⟩
      · rw [char] at head
        cases head
        exact ⟨noMinus, noPercent, fun _ => noZero⟩

theorem scan_of_written {written : Written} (fine : written.Fine) (left : Text) :
    scanDirective (written.text ++ left) = .ok (written.directive, left) := by
  obtain ⟨noDigit, noPoint, -, -, -⟩ := written.conversion.char_plain
  have heads := written.width_head fine left
  rw [written.text_append]
  have minus : takeIf '-' (flagText written.left '-' ++ (flagText written.zero '0' ++
      (written.width ++ (precisionText written.precision ++ written.conversion.char :: left)))) =
      (written.left, flagText written.zero '0' ++
        (written.width ++ (precisionText written.precision ++ written.conversion.char :: left))) := by
    refine takeIf_flag ?_
    rintro - head
    cases zero : written.zero with
    | true =>
        rw [zero] at head
        cases head
    | false =>
        rw [zero] at head
        exact (heads _ head).1 rfl
  have zero : takeIf '0' (flagText written.zero '0' ++
      (written.width ++ (precisionText written.precision ++ written.conversion.char :: left))) =
      (written.zero,
        written.width ++ (precisionText written.precision ++ written.conversion.char :: left)) :=
    takeIf_flag fun bare head => (heads _ head).2.2 bare rfl
  have stops : (precisionText written.precision ++ written.conversion.char :: left).head?.any
      isDigit = false := by
    rcases precision_head written.precision written.conversion left with point | char
    · rw [point]
      decide
    · rw [char]
      exact noDigit
  have width : digits 128 .wideWidth 0
      (written.width ++ (precisionText written.precision ++ written.conversion.char :: left)) =
      .ok (digitsValue written.width,
        precisionText written.precision ++ written.conversion.char :: left) :=
    digits_of_text .wideWidth (by decide) stops written.width fine.digits fine.width
  have precision : scanPrecision
      (precisionText written.precision ++ written.conversion.char :: left) =
      .ok (written.precision.map digitsValue, written.conversion.char :: left) :=
    scanPrecision_text noDigit (fun head => noPoint (Option.some.inj head))
      fun digits is => ⟨(fine.precision digits is).1, (fine.precision digits is).2.1,
        (fine.precision digits is).2.2.small⟩
  have first : ∃ c, peek (flagText written.left '-' ++ (flagText written.zero '0' ++
      (written.width ++ (precisionText written.precision ++ written.conversion.char :: left)))) =
      .ok c := by
    cases text : flagText written.left '-' ++ (flagText written.zero '0' ++
        (written.width ++ (precisionText written.precision ++
          written.conversion.char :: left))) with
    | nil => simp at text
    | cons c rest => exact ⟨c, rfl⟩
  obtain ⟨c, peeked⟩ := first
  unfold scanDirective
  refine bind_eq_ok.mpr ⟨c, peeked, ?_⟩
  rw [minus]
  simp only [zero]
  refine bind_eq_ok.mpr ⟨_, width, ?_⟩
  refine bind_eq_ok.mpr ⟨_, precision, ?_⟩
  rfl

/-- What a directive was scanned from. -/
theorem written_of_scan {text left : Text} {directive : Directive}
    (scanned : scanDirective text = .ok (directive, left)) :
    ∃ (width : Text) (precision : Option Text),
      text = flagText directive.left '-' ++ (flagText directive.zero '0' ++
        (width ++ (precisionText precision ++ directive.spec :: left))) ∧
      width.all isDigit = true ∧ digitsValue width ≤ 128 ∧
      (directive.zero = false → width.head? ≠ some '0') ∧
      directive.width = digitsValue width ∧ directive.precision = precision.map digitsValue ∧
      (∀ ds, precision = some ds → ds ≠ [] ∧ ds.all isDigit = true ∧ digitsValue ds ≤ 256) := by
  unfold scanDirective at scanned
  obtain ⟨_, _, scanned⟩ := bind_eq_ok.mp scanned
  obtain ⟨⟨value, text₁⟩, widths, scanned⟩ := bind_eq_ok.mp scanned
  obtain ⟨⟨number, text₂⟩, precisions, scanned⟩ := bind_eq_ok.mp scanned
  obtain ⟨minus, -⟩ := flag_of_takeIf '-' text
  obtain ⟨zero, leading⟩ := flag_of_takeIf '0' (takeIf '-' text).2
  obtain ⟨width, widthIs, all, -, rfl, small⟩ := text_of_digits widths (Nat.zero_le _)
  obtain ⟨precision, rfl, rfl, fine⟩ := text_of_scanPrecision precisions
  cases text₂ with
  | nil => cases scanned
  | cons spec rest =>
      obtain ⟨_, peeked, done⟩ := bind_eq_ok.mp scanned
      cases peeked
      cases done
      refine ⟨width, precision, ?_, all, small, ?_, rfl, rfl, fine⟩
      · rw [widthIs] at zero
        rw [zero] at minus
        exact minus
      · intro bare head
        refine leading bare ?_
        rw [widthIs]
        cases width with
        | nil => cases head
        | cons d rest => exact head

/-! ## Fields -/

def Arguments.reading (args : Arguments) (index : Nat) : Reading where
  text := (args.string index 4095).toOption
  cell := (args.cell index).toOption

/-- The readings of the arguments from an index on. -/
def Arguments.readings (args : Arguments) (index : Nat) : List Reading :=
  (List.range' index (args.count + 1 - index)).map args.reading

theorem toChars_short {text : Text} (short : text.length ≤ 384) : toChars text = .ok text :=
  if_neg (by omega)

theorem toChars_numberText (value : BitVec 32) :
    toChars (numberText value.toInt) = .ok (numberText value.toInt) := by
  have low := value.le_toInt
  have high := value.toInt_lt
  have short : (decimal value.toInt.natAbs).length ≤ 10 := decimal_length (by omega) (by decide)
  refine toChars_short ?_
  unfold numberText
  split
  · rw [List.length_cons]
    omega
  · omega

theorem toChars_decimal (value : BitVec 32) :
    toChars (decimal value.toNat) = .ok (decimal value.toNat) := by
  have small := value.isLt
  have short : (decimal value.toNat).length ≤ 10 := decimal_length (by omega) (by decide)
  exact toChars_short (by omega)

theorem toChars_hexadecimal (value : BitVec 32) :
    toChars (hexadecimal value.toNat) = .ok (hexadecimal value.toNat) := by
  have short : (hexadecimal value.toNat).length ≤ 8 :=
    (Nat.length_toDigits_le_iff (by decide) (by decide)).mpr value.isLt
  exact toChars_short (by omega)

/-- The digits of base 16, one by one. -/
theorem hexadecimal_digits (n : Nat) : ∀ c ∈ hexadecimal n, ∃ k < 16, c = Nat.digitChar k := by
  induction n using Nat.strongRecOn with
  | ind n ih =>
      intro c within
      unfold hexadecimal at within ih
      rw [Nat.toDigits_eq_if (by decide)] at within
      split at within
      · rename_i small
        exact ⟨n, small, List.mem_singleton.mp within⟩
      · rename_i large
        rw [List.mem_append, List.mem_singleton] at within
        rcases within with before | last
        · exact ih (n / 16) (by omega) c before
        · exact ⟨n % 16, Nat.mod_lt _ (by decide), last⟩

theorem upper_hexadecimal (n : Nat) :
    (hexadecimal n).map upper = (hexadecimal n).map Char.toUpper := by
  refine List.map_congr_left ?_
  intro c within
  obtain ⟨k, small, rfl⟩ := hexadecimal_digits n c within
  interval_cases k <;> decide

theorem hexadecimal_noSign (n : Nat) : (hexadecimal n).head? ≠ some '-' := by
  intro head
  obtain ⟨k, small, is⟩ := hexadecimal_digits n '-' (List.mem_of_mem_head? head)
  interval_cases k <;> exact absurd is (by decide)

theorem decimal_noSign (n : Nat) : (decimal n).head? ≠ some '-' := by
  intro head
  exact absurd (decimal_digits n '-' (List.mem_of_mem_head? head)) (by decide)

theorem numberText_eq (n : Int) :
    numberText n = (Content.number (n < 0) (decimal n.natAbs)).text := by
  unfold numberText Content.text flagText
  by_cases negative : n < 0
  · simp [negative]
  · simp [negative]

theorem byteContent_eq {value : BitVec 32} {text : Text} :
    (if value.toInt ≤ 0 ∨ value.toInt > 255 then Except.error Failure.badByte
        else .ok [Char.ofNat value.toNat]) = .ok text ↔
      ∃ content, byteContent value = some content ∧ content.text = text := by
  unfold byteContent
  by_cases fine : 0 < value.toInt ∧ value.toInt ≤ 255
  · rw [if_neg (by omega), if_pos fine]
    simp [Content.text]
  · rw [if_pos (by omega), if_neg fine]
    simp

theorem floatContent_eq {given text : Text} : toChars given = .ok text ↔
    ∃ content, floatContent given = some content ∧ content.text = text := by
  unfold floatContent
  by_cases short : given.length ≤ 384
  · rw [if_pos short, toChars_short short]
    split
    · simp [Content.text, flagText]
    · simp [Content.text, flagText]
  · rw [if_neg short, toChars, if_pos (by omega)]
    simp

theorem bind_toOption_eq {α β : Type} {read : Except Failure α} {next : α → Except Failure β}
    {content : α → Option Content} {text : β} {view : Content → β}
    (same : ∀ value, next value = .ok text ↔ ∃ found, content value = some found ∧ view found = text) :
    read >>= next = .ok text ↔
      ∃ found, read.toOption.bind content = some found ∧ view found = text := by
  cases read with
  | error failure =>
      constructor
      · intro is
        cases is
      · rintro ⟨found, is, -⟩
        cases is
  | ok value => exact same value

theorem field_words {floats : BitVec 32 → Nat → Text} {args : Arguments} {directive : Directive}
    {index : Nat} (words : directive.spec = 's') :
    field floats args directive index = args.string index 4095 >>= fun text =>
      .ok (directive.precision.elim text fun precision => text.take precision) := by
  unfold field
  rw [if_pos words]
  cases directive.precision with
  | none => rfl
  | some precision =>
      have shorter : ∀ text : Text,
          (if text.length > precision then text.take precision else text) = text.take precision := by
        intro text
        split
        · rfl
        · exact (List.take_of_length_le (by omega)).symm
      simp only [shorter]
      rfl

theorem field_cell {floats : BitVec 32 → Nat → Text} {args : Arguments} {directive : Directive}
    {index : Nat} (cell : directive.spec ≠ 's') :
    field floats args directive index = args.cell index >>= fun value =>
      convert floats directive value >>= fun text =>
        .ok (if directive.spec = 'X' then text.map upper else text) := by
  unfold field
  rw [if_neg cell]
  rfl

theorem convert_precise {floats : BitVec 32 → Nat → Text} {directive : Directive}
    {value : BitVec 32} (noFloat : directive.spec ≠ 'f') (precise : directive.precision.isSome = true) :
    convert floats directive value = .error .needsText := by
  unfold convert
  rw [if_neg noFloat, if_pos precise]

/-- The fields of a conversion that goes without a precision. -/
theorem field_plain_eq_ok {floats : BitVec 32 → Nat → Text} {args : Arguments}
    {written : Written} {index : Nat} {text : Text} {content : BitVec 32 → Option Content}
    (noFloat : written.conversion.char ≠ 'f') (noWords : written.conversion.char ≠ 's')
    (never : ∀ precision, ¬ written.conversion.Precise precision)
    (same : written.precision = none → ∀ value,
      (convert floats written.directive value >>= fun text =>
        .ok (if written.conversion.char = 'X' then text.map upper else text)) = .ok text ↔
        ∃ found, content value = some found ∧ found.text = text) :
    field floats args written.directive index = .ok text ↔
      (∀ digits, written.precision = some digits →
        written.conversion.Precise (digitsValue digits)) ∧
      ∃ found, (args.reading index).cell.bind content = some found ∧ found.text = text := by
  rw [field_cell noWords]
  cases precision : written.precision with
  | none =>
      refine (bind_toOption_eq (same precision)).trans ?_
      simp [Arguments.reading]
  | some digits =>
      constructor
      · intro does
        obtain ⟨value, -, does⟩ := bind_eq_ok.mp does
        have precise : written.directive.precision.isSome = true := by
          simp [Written.directive, precision]
        rw [convert_precise noFloat precise] at does
        cases does
      · rintro ⟨precise, -⟩
        exact (never _ (precise digits rfl)).elim

/-- The fields of a directive whose conversion there is. -/
theorem field_eq_ok {floats : BitVec 32 → Nat → Text} {args : Arguments} {written : Written}
    {index : Nat} {text : Text}
    (small : ∀ digits, written.precision = some digits → digitsValue digits ≤ 256) :
    field floats args written.directive index = .ok text ↔
      (∀ digits, written.precision = some digits →
        written.conversion.Precise (digitsValue digits)) ∧
      ∃ content, written.content floats (args.reading index) = some content ∧
        content.text = text := by
  obtain ⟨left, zero, width, precision, conversion⟩ := written
  cases conversion with
  | d =>
      simp only [Written.content, Option.map_eq_bind]
      refine field_plain_eq_ok (by simp [Conversion.char]) (by simp [Conversion.char])
        (fun _ precise => precise) ?_
      rintro ⟨⟩ value
      have one : convert floats (Written.directive ⟨left, zero, width, none, .d⟩) value =
          .ok (numberText value.toInt) := by
        simp [convert, Written.directive, Conversion.char, toChars_numberText]
      rw [one]
      simp [numberText_eq, Conversion.char, bind, Except.bind]
  | i =>
      simp only [Written.content, Option.map_eq_bind]
      refine field_plain_eq_ok (by simp [Conversion.char]) (by simp [Conversion.char])
        (fun _ precise => precise) ?_
      rintro ⟨⟩ value
      have one : convert floats (Written.directive ⟨left, zero, width, none, .i⟩) value =
          .ok (numberText value.toInt) := by
        simp [convert, Written.directive, Conversion.char, toChars_numberText]
      rw [one]
      simp [numberText_eq, Conversion.char, bind, Except.bind]
  | u =>
      simp only [Written.content, Option.map_eq_bind]
      refine field_plain_eq_ok (by simp [Conversion.char]) (by simp [Conversion.char])
        (fun _ precise => precise) ?_
      rintro ⟨⟩ value
      have one : convert floats (Written.directive ⟨left, zero, width, none, .u⟩) value =
          .ok (decimal value.toNat) := by
        simp [convert, Written.directive, Conversion.char, toChars_decimal]
      rw [one]
      simp [Content.text, flagText, Conversion.char, bind, Except.bind]
  | x =>
      simp only [Written.content, Option.map_eq_bind]
      refine field_plain_eq_ok (by simp [Conversion.char]) (by simp [Conversion.char])
        (fun _ precise => precise) ?_
      rintro ⟨⟩ value
      have one : convert floats (Written.directive ⟨left, zero, width, none, .x⟩) value =
          .ok (hexadecimal value.toNat) := by
        simp [convert, Written.directive, Conversion.char, toChars_hexadecimal]
      rw [one]
      simp [Content.text, flagText, Conversion.char, bind, Except.bind]
  | upperX =>
      simp only [Written.content, Option.map_eq_bind]
      refine field_plain_eq_ok (by simp [Conversion.char]) (by simp [Conversion.char])
        (fun _ precise => precise) ?_
      rintro ⟨⟩ value
      have one : convert floats (Written.directive ⟨left, zero, width, none, .upperX⟩) value =
          .ok (hexadecimal value.toNat) := by
        simp [convert, Written.directive, Conversion.char, toChars_hexadecimal]
      rw [one]
      simp [Content.text, flagText, Conversion.char, bind, Except.bind, upper_hexadecimal]
  | c =>
      simp only [Written.content]
      refine field_plain_eq_ok (by simp [Conversion.char]) (by simp [Conversion.char])
        (fun _ precise => precise) ?_
      rintro ⟨⟩ value
      have one : convert floats (Written.directive ⟨left, zero, width, none, .c⟩) value =
          if value.toInt ≤ 0 ∨ value.toInt > 255 then .error .badByte
          else .ok [Char.ofNat value.toNat] := by
        simp [convert, Written.directive, Conversion.char]
      rw [one, ← byteContent_eq]
      split <;> simp [Conversion.char, bind, Except.bind]
  | s =>
      rw [field_words rfl]
      simp only [Written.content, Option.map_eq_bind]
      have precise : ∀ digits, precision = some digits →
          Conversion.s.Precise (digitsValue digits) := small
      refine Iff.trans (bind_toOption_eq ?_) (and_iff_right precise).symm
      intro value
      cases precision <;> simp [Content.text, Written.directive]
  | f =>
      rw [field_cell (by simp [Written.directive, Conversion.char])]
      simp only [Written.content]
      have notLarge : (precision.map digitsValue).any (· > 9) = false ↔
          ∀ digits, precision = some digits → Conversion.f.Precise (digitsValue digits) := by
        cases precision <;> simp [Conversion.Precise]
      by_cases large : (precision.map digitsValue).any (· > 9) = true
      · have fails : ∀ value,
            convert floats (Written.directive ⟨left, zero, width, precision, .f⟩) value =
              .error .floatPrecision := by
          intro value
          unfold convert
          exact (if_pos rfl).trans (if_pos large)
        constructor
        · intro does
          obtain ⟨value, -, does⟩ := bind_eq_ok.mp does
          rw [fails] at does
          cases does
        · rintro ⟨precise, -⟩
          rw [notLarge.mpr precise] at large
          cases large
      · have precise := notLarge.mp (Bool.eq_false_iff.mpr large)
        refine Iff.trans (bind_toOption_eq ?_) (and_iff_right precise).symm
        intro value
        have one : convert floats (Written.directive ⟨left, zero, width, precision, .f⟩) value =
            toChars (floats value (precision.elim 6 digitsValue)) := by
          unfold convert
          refine (if_pos rfl).trans ((if_neg large).trans ?_)
          cases precision <;> rfl
        rw [one, ← floatContent_eq]
        cases toChars (floats value (precision.elim 6 digitsValue)) <;>
          simp [Written.directive, Conversion.char, bind, Except.bind]

theorem conversion_of_field {floats : BitVec 32 → Nat → Text} {args : Arguments}
    {directive : Directive} {index : Nat} {text : Text}
    (does : field floats args directive index = .ok text) :
    ∃ conversion : Conversion, directive.spec = conversion.char := by
  by_contra none
  rw [not_exists] at none
  have other : ∀ c, (∃ conversion : Conversion, c = conversion.char) → directive.spec ≠ c := by
    rintro _ ⟨conversion, rfl⟩
    exact none conversion
  have words := other 's' ⟨.s, rfl⟩
  rw [field_cell words] at does
  obtain ⟨value, -, does⟩ := bind_eq_ok.mp does
  obtain ⟨_, converted, -⟩ := bind_eq_ok.mp does
  have unsupported : directive.precision.isSome ≠ true →
      convert floats directive value = .error .unsupported := by
    intro bare
    simp only [convert, other 'f' ⟨.f, rfl⟩, bare, other 'c' ⟨.c, rfl⟩, other 'd' ⟨.d, rfl⟩,
      other 'i' ⟨.i, rfl⟩, other 'u' ⟨.u, rfl⟩, other 'x' ⟨.x, rfl⟩, other 'X' ⟨.upperX, rfl⟩,
      if_false, or_self, Bool.false_eq_true]
  by_cases precise : directive.precision.isSome = true
  · rw [convert_precise (other 'f' ⟨.f, rfl⟩) precise] at converted
    cases converted
  · rw [unsupported precise] at converted
    cases converted

/-! ## Widths -/

/-- Texts come from the two conversions that zeros do not fill, and the digits of a
number that is not negative begin with no sign. -/
def Content.Of (conversion : Conversion) : Content → Prop
  | .words _ => conversion = .s ∨ conversion = .c
  | .number negative digits =>
      (conversion ≠ .s ∧ conversion ≠ .c) ∧ (negative = false → digits.head? ≠ some '-')

theorem Written.content_of {floats : BitVec 32 → Nat → Text} {written : Written}
    {reading : Reading} {content : Content} (is : written.content floats reading = some content) :
    content.Of written.conversion := by
  unfold Written.content at is
  cases conversion : written.conversion with
  | d =>
      simp only [conversion, Option.map_eq_some_iff] at is
      obtain ⟨value, -, rfl⟩ := is
      exact ⟨by decide, fun _ => decimal_noSign _⟩
  | i =>
      simp only [conversion, Option.map_eq_some_iff] at is
      obtain ⟨value, -, rfl⟩ := is
      exact ⟨by decide, fun _ => decimal_noSign _⟩
  | u =>
      simp only [conversion, Option.map_eq_some_iff] at is
      obtain ⟨value, -, rfl⟩ := is
      exact ⟨by decide, fun _ => decimal_noSign _⟩
  | x =>
      simp only [conversion, Option.map_eq_some_iff] at is
      obtain ⟨value, -, rfl⟩ := is
      exact ⟨by decide, fun _ => hexadecimal_noSign _⟩
  | upperX =>
      simp only [conversion, Option.map_eq_some_iff] at is
      obtain ⟨value, -, rfl⟩ := is
      refine ⟨by decide, fun _ head => ?_⟩
      rw [List.head?_map, Option.map_eq_some_iff] at head
      obtain ⟨c, first, up⟩ := head
      obtain ⟨k, small, rfl⟩ := hexadecimal_digits _ c (List.mem_of_mem_head? first)
      interval_cases k <;> exact absurd up (by decide)
  | c =>
      simp only [conversion, Option.bind_eq_some_iff, byteContent, Option.ite_none_right_eq_some] at is
      obtain ⟨value, -, -, is⟩ := is
      cases is
      exact Or.inr rfl
  | s =>
      simp only [conversion, Option.map_eq_some_iff] at is
      obtain ⟨text, -, rfl⟩ := is
      exact Or.inl rfl
  | f =>
      simp only [conversion, Option.bind_eq_some_iff, floatContent, Option.ite_none_right_eq_some] at is
      obtain ⟨value, -, -, is⟩ := is
      split at is
      · cases is
        exact ⟨by decide, by simp⟩
      · rename_i plain
        cases is
        refine ⟨by decide, fun _ head => ?_⟩
        obtain ⟨rest, first⟩ := List.head?_eq_some_iff.mp head
        exact plain rest first

theorem Written.pad_eq_layout {written : Written} {content : Content}
    (is : content.Of written.conversion) :
    pad written.directive content.text = written.layout content := by
  obtain ⟨left, zero, width, precision, conversion⟩ := written
  unfold pad Written.layout Written.directive
  by_cases narrow : content.text.length < digitsValue width
  · simp only [if_pos narrow]
    cases left with
    | true => rfl
    | false =>
        simp only [Bool.false_eq_true, if_false]
        cases content with
        | words text =>
            have blanks : (zero && conversion.char != 's' && conversion.char != 'c') = false := by
              rcases is with rfl | rfl <;> simp [Conversion.char]
            simp only [blanks, Bool.false_eq_true, if_false]
        | number negative digits =>
            obtain ⟨⟨noWords, noByte⟩, bare⟩ := is
            have filled : (zero && conversion.char != 's' && conversion.char != 'c') = zero := by
              cases conversion <;> first | exact absurd rfl noWords | exact absurd rfl noByte |
                simp [Conversion.char]
            rw [filled]
            cases zero with
            | false => rfl
            | true =>
                cases negative with
                | true => rfl
                | false =>
                    have noSign : (Content.number false digits).text.head? ≠ some '-' := bare rfl
                    simp only [if_true, if_neg noSign]
                    rfl
  · have none : digitsValue width - content.text.length = 0 := by omega
    simp only [if_neg narrow, none, List.replicate_zero, List.append_nil, List.nil_append]
    cases left with
    | true => rfl
    | false =>
        cases zero with
        | false => rfl
        | true => cases content <;> rfl

/-! ## The loop -/

theorem Arguments.readings_cons {args : Arguments} {index : Nat} (inside : index ≤ args.count) :
    args.readings index = args.reading index :: args.readings (index + 1) := by
  unfold Arguments.readings
  rw [show args.count + 1 - index = args.count + 1 - (index + 1) + 1 by omega, List.range'_succ,
    List.map_cons]

theorem Arguments.readings_nil {args : Arguments} {index : Nat} :
    args.readings index = [] ↔ args.count < index := by
  unfold Arguments.readings
  rw [List.map_eq_nil_iff, List.range'_eq_nil_iff]
  omega

/-- Behind the last argument nothing is read. -/
theorem field_outside {floats : BitVec 32 → Nat → Text} {args : Arguments} {directive : Directive}
    {index : Nat} (outside : args.count < index) :
    field floats args directive index = .error .index := by
  have noInt : args.int index = .error .index := if_pos (Or.inr outside)
  by_cases words : directive.spec = 's'
  · rw [field_words words, Arguments.string, noInt]
    rfl
  · rw [field_cell words, Arguments.cell, noInt]
    rfl

theorem loop_byte {floats : BitVec 32 → Nat → Text} {args : Arguments} {result text : Text}
    {index : Nat} {c : Char} (plain : c ≠ '%') :
    loop floats args result index (c :: text) = loop floats args (result ++ [c]) index text := by
  rw [loop.eq_def]
  exact if_pos plain

theorem loop_percent {floats : BitVec 32 → Nat → Text} {args : Arguments} {result text : Text}
    {index : Nat} :
    loop floats args result index ('%' :: '%' :: text) =
      loop floats args (result ++ ['%']) index text := by
  rw [loop.eq_def]
  rfl

theorem loop_directive {floats : BitVec 32 → Nat → Text} {args : Arguments}
    {result text left out : Text} {index : Nat} {directive : Directive}
    (other : text.head? ≠ some '%') (scanned : scanDirective text = .ok (directive, left))
    (does : field floats args directive index = .ok out)
    (fits : result.length + (pad directive out).length ≤ maxMessage) :
    loop floats args result index ('%' :: text) =
      loop floats args (result ++ pad directive out) (index + 1) left := by
  have filled : text ≠ [] := by
    rintro rfl
    cases scanned
  rw [loop.eq_def]
  simp only [ne_eq, not_true, if_false, if_neg filled, if_neg other]
  split
  · rename_i failure failed
    rw [scanned] at failed
    cases failed
  · rename_i found after is
    rw [scanned] at is
    cases is
    simp only [does]
    rw [if_neg (by omega)]

theorem Written.Fine.small {written : Written} (fine : written.Fine) :
    ∀ digits, written.precision = some digits → digitsValue digits ≤ 256 :=
  fun digits is => (fine.precision digits is).2.2.small

theorem Written.text_head {written : Written} (fine : written.Fine) (left : Text) :
    (written.text ++ left).head? ≠ some '%' := by
  rw [written.text_append]
  intro head
  cases minus : written.left with
  | true =>
      rw [minus] at head
      cases head
  | false =>
      rw [minus] at head
      cases zero : written.zero with
      | true =>
          rw [zero] at head
          cases head
      | false =>
          rw [zero] at head
          exact (written.width_head fine left _ head).2.1 rfl

theorem loop_of_pieces {floats : BitVec 32 → Nat → Text} {args : Arguments}
    (pieces : List Piece) : ∀ {result text : Text} {index : Nat} {left : List Reading},
      (∀ piece ∈ pieces, piece.Fine) → index ≤ args.count + 1 →
      render floats pieces (args.readings index) = some (text, left) →
      (result ++ text).length ≤ maxMessage →
      ∃ next, loop floats args result index (pieces.flatMap Piece.text) =
        .ok (result ++ text, next) ∧ left = args.readings next ∧ next ≤ args.count + 1 := by
  induction pieces with
  | nil =>
      intro result text index left _ inside rendered _
      cases rendered
      refine ⟨index, ?_, rfl, inside⟩
      rw [List.append_nil, List.flatMap_nil, loop.eq_def]
  | cons piece pieces ih =>
      intro result text index left fine inside rendered fits
      obtain ⟨here, later⟩ := List.forall_mem_cons.mp fine
      rw [List.flatMap_cons]
      cases piece with
      | byte c =>
          obtain ⟨⟨rest, readings⟩, after, is⟩ := Option.map_eq_some_iff.mp rendered
          cases is
          have joined : result ++ c :: rest = (result ++ [c]) ++ rest := by simp
          rw [joined] at fits ⊢
          obtain ⟨next, does, is, bounded⟩ := ih later inside after fits
          exact ⟨next, (loop_byte here).trans does, is, bounded⟩
      | percent =>
          obtain ⟨⟨rest, readings⟩, after, is⟩ := Option.map_eq_some_iff.mp rendered
          cases is
          have joined : result ++ '%' :: rest = (result ++ ['%']) ++ rest := by simp
          rw [joined] at fits ⊢
          obtain ⟨next, does, is, bounded⟩ := ih later inside after fits
          exact ⟨next, loop_percent.trans does, is, bounded⟩
      | directive written =>
          have here : written.Fine := here
          by_cases outside : args.count < index
          · rw [Arguments.readings_nil.mpr outside] at rendered
            cases rendered
          · rw [Arguments.readings_cons (by omega)] at rendered
            obtain ⟨content, is, behind⟩ := Option.bind_eq_some_iff.mp rendered
            obtain ⟨⟨rest, readings⟩, after, parts⟩ := Option.map_eq_some_iff.mp behind
            cases parts
            have wide := Written.pad_eq_layout (written.content_of is)
            have does : field floats args written.directive index = .ok content.text :=
              (field_eq_ok here.small).mpr
                ⟨fun digits given => (here.precision digits given).2.2, content, is, rfl⟩
            rw [← wide, ← List.append_assoc] at fits ⊢
            have beside : index + 1 ≤ args.count + 1 := by omega
            obtain ⟨next, runs, readings, bounded⟩ := ih later beside after fits
            have room : result.length + (pad written.directive content.text).length ≤
                maxMessage := by
              rw [List.length_append, List.length_append] at fits
              omega
            exact ⟨next, (loop_directive (written.text_head here _) (scan_of_written here _) does
              room).trans runs, readings, bounded⟩

theorem pieces_of_loop {floats : BitVec 32 → Nat → Text} {args : Arguments}
    {result source out : Text} {index next : Nat}
    (does : loop floats args result index source = .ok (out, next))
    (inside : index ≤ args.count + 1) :
    ∃ pieces text, source = pieces.flatMap Piece.text ∧ (∀ piece ∈ pieces, piece.Fine) ∧
      out = result ++ text ∧
      render floats pieces (args.readings index) = some (text, args.readings next) ∧
      next ≤ args.count + 1 := by
  fun_induction loop floats args result index source with
  | case1 result index =>
      cases does
      exact ⟨[], [], rfl, by simp, (List.append_nil _).symm, rfl, inside⟩
  | case2 result index c text plain ih =>
      obtain ⟨pieces, rest, rfl, fine, rfl, rendered, bounded⟩ := ih does inside
      refine ⟨.byte c :: pieces, c :: rest, rfl, List.forall_mem_cons.mpr ⟨plain, fine⟩,
        by simp, ?_, bounded⟩
      rw [render, rendered]
      rfl
  | case3 result index c percent => cases does
  | case4 result index c text percent filled head ih =>
      obtain ⟨pieces, rest, is, fine, rfl, rendered, bounded⟩ := ih does inside
      rw [not_not] at percent
      subst percent
      obtain ⟨tail, rfl⟩ := List.head?_eq_some_iff.mp head
      rw [List.tail_cons] at is
      refine ⟨.percent :: pieces, '%' :: rest, by rw [is]; rfl,
        List.forall_mem_cons.mpr ⟨trivial, fine⟩, by simp, ?_, bounded⟩
      rw [render, rendered]
      rfl
  | case5 result index c text percent filled head failure scanned => cases does
  | case6 result index c text percent filled head directive left scanned failure field =>
      cases does
  | case7 result index c text percent filled head directive left scanned out field long =>
      cases does
  | case8 result index c text percent filled head directive left scanned written fieldIs room ih =>
      by_cases outside : args.count < index
      · rw [field_outside outside] at fieldIs
        cases fieldIs
      · obtain ⟨pieces, rest, rfl, fine, rfl, rendered, bounded⟩ := ih does (by omega)
        obtain ⟨width, precision, rfl, digits, narrow, leading, widthIs, precisionIs, precise⟩ :=
          written_of_scan scanned
        obtain ⟨conversion, spec⟩ := conversion_of_field fieldIs
        have shape : directive =
            Written.directive ⟨directive.left, directive.zero, width, precision, conversion⟩ := by
          obtain ⟨_, _, _, _, _⟩ := directive
          simp only at widthIs precisionIs spec
          rw [Written.directive, widthIs, precisionIs, spec]
        rw [shape] at fieldIs
        have narrow' : ∀ ds, (Written.mk directive.left directive.zero width precision
            conversion).precision = some ds → digitsValue ds ≤ 256 :=
          fun ds given => (precise ds given).2.2
        obtain ⟨allowed, content, is, rfl⟩ := (field_eq_ok narrow').mp fieldIs
        have wide := Written.pad_eq_layout (Written.content_of is)
        rw [← shape] at wide
        rw [not_not] at percent
        subst percent
        refine ⟨.directive ⟨directive.left, directive.zero, width, precision, conversion⟩ :: pieces,
          pad directive content.text ++ rest, ?_, List.forall_mem_cons.mpr ⟨?_, fine⟩,
          List.append_assoc .., ?_, bounded⟩
        · rw [List.flatMap_cons, Piece.text, List.cons_append, Written.text_append, spec]
        · exact ⟨digits, narrow, leading,
            fun ds given => ⟨(precise ds given).1, (precise ds given).2.1, allowed ds given⟩⟩
        · rw [Arguments.readings_cons (by omega), render, is, Option.bind_some, rendered, wide]
          rfl

/-- No read past the end, and no sum that an `int` does not hold. -/
def Sound {α : Type} (does : Except Failure α) : Prop :=
  does ≠ .error .outOfBounds ∧ does ≠ .error .overflow

theorem sound_ok {α : Type} (value : α) : Sound (.ok value) := ⟨by simp, by simp⟩

theorem sound_error {α : Type} {failure : Failure} (inside : failure ≠ .outOfBounds)
    (small : failure ≠ .overflow) : Sound (.error failure : Except Failure α) := by
  constructor <;> simpa

theorem Sound.bind {α β : Type} {does : Except Failure α} {next : α → Except Failure β}
    (first : Sound does) (later : ∀ value, does = .ok value → Sound (next value)) :
    Sound (does >>= next) := by
  cases does with
  | ok value => exact later value rfl
  | error failure =>
      refine sound_error ?_ ?_
      · rintro rfl
        exact first.1 rfl
      · rintro rfl
        exact first.2 rfl

theorem addCell_sound {address : Int} {i : Nat} (fits : address + i ≤ maxCell) :
    addCell address i = .ok (address + i) := if_neg (by omega)

theorem contiguous_sound (vm : Vm) (address : Int) (first more : Nat) : ∀ i : Nat,
    address + i + more ≤ maxCell → Sound (vm.contiguous address first i more) := by
  induction more with
  | zero => exact fun _ _ => sound_ok ()
  | succ more ih =>
      intro i fits
      rw [Vm.contiguous, addCell_sound (by omega)]
      simp only [bind, Except.bind]
      cases vm.localToString (address + i) with
      | none => exact sound_error (by decide) (by decide)
      | some byte =>
          simp only
          split
          · exact sound_error (by decide) (by decide)
          · exact ih (i + 1) (by push_cast; omega)

theorem address_sound (vm : Vm) (address : Int) (bytes : Nat) (aligned : Bool) :
    Sound (vm.address address bytes aligned) := by
  unfold Vm.address
  split
  · exact sound_error (by decide) (by decide)
  · rename_i range
    simp only [not_or] at range
    cases vm.localToString address with
    | none => exact sound_error (by decide) (by decide)
    | some first =>
        refine (contiguous_sound vm address first bytes 0 ?_).bind fun _ _ => sound_ok first
        push_cast
        omega

theorem text_sound (vm : Vm) (address : Int) (more : Nat) : ∀ text : Text,
    Sound (vm.text address text more) := by
  induction more with
  | zero => exact fun _ => sound_error (by decide) (by decide)
  | succ more ih =>
      intro text
      rw [Vm.text]
      split
      · exact sound_error (by decide) (by decide)
      · rename_i range
        rw [not_or] at range
        rw [addCell_sound (by omega)]
        refine Sound.bind (sound_ok _) ?_
        rintro here -
        refine (address_sound vm here 1 false).bind ?_
        intro byte _
        split
        · exact sound_ok _
        · exact ih _

theorem int_sound (args : Arguments) (index : Nat) : Sound (args.int index) := by
  unfold Arguments.int
  split
  · exact sound_error (by decide) (by decide)
  · exact sound_ok _

theorem string_sound (args : Arguments) (index limit : Nat) : Sound (args.string index limit) := by
  refine (int_sound args index).bind ?_
  intro address _
  split
  · exact sound_error (by decide) (by decide)
  · exact text_sound _ _ _ _

theorem cell_sound (args : Arguments) (index : Nat) : Sound (args.cell index) := by
  refine (int_sound args index).bind ?_
  intro address _
  exact (address_sound _ _ _ _).bind fun _ _ => sound_ok _

theorem digits_sound {limit value : Nat} {excess : Failure} {text : Text} (bounded : limit ≤ 256)
    (within : value ≤ limit) (inside : excess ≠ .outOfBounds) (small : excess ≠ .overflow) :
    Sound (digits limit excess value text) := by
  fun_induction digits limit excess value text with
  | case1 value => exact sound_ok _
  | case2 value c rest isADigit large =>
      simp only [isDigit, Bool.and_eq_true, decide_eq_true_eq] at isADigit
      unfold maxInt at large
      omega
  | case3 value c rest isDigit fits excessive => exact sound_error inside small
  | case4 value c rest isDigit fits small ih => exact ih (by omega)
  | case5 value c rest noDigit => exact sound_ok _

theorem scanPrecision_sound (text : Text) : Sound (scanPrecision text) := by
  unfold scanPrecision
  split
  · split
    · exact (digits_sound (le_refl _) (Nat.zero_le _) (by decide) (by decide)).bind
        fun _ _ => sound_ok _
    · exact sound_error (by decide) (by decide)
  · exact sound_ok _

theorem scanDirective_sound {text : Text} (filled : text ≠ []) : Sound (scanDirective text) := by
  cases text with
  | nil => exact absurd rfl filled
  | cons c rest =>
      refine Sound.bind (sound_ok c) ?_
      rintro _ -
      refine (digits_sound (by decide) (Nat.zero_le _) (by decide) (by decide)).bind ?_
      intro width _
      refine (scanPrecision_sound _).bind ?_
      rintro ⟨precision, text⟩ -
      cases text with
      | nil => exact sound_error (by decide) (by decide)
      | cons spec left => exact Sound.bind (sound_ok spec) fun _ _ => sound_ok _

theorem toChars_sound (text : Text) : Sound (toChars text) := by
  unfold toChars
  split
  · exact sound_error (by decide) (by decide)
  · exact sound_ok _

theorem convert_sound (floats : BitVec 32 → Nat → Text) (directive : Directive)
    (value : BitVec 32) : Sound (convert floats directive value) := by
  unfold convert
  simp only
  split
  · split
    · exact sound_error (by decide) (by decide)
    · exact toChars_sound _
  · split
    · exact sound_error (by decide) (by decide)
    · split
      · split
        · exact sound_error (by decide) (by decide)
        · exact sound_ok _
      · split
        · exact toChars_sound _
        · split
          · exact toChars_sound _
          · exact sound_error (by decide) (by decide)

theorem field_sound (floats : BitVec 32 → Nat → Text) (args : Arguments) (directive : Directive)
    (index : Nat) : Sound (field floats args directive index) := by
  by_cases words : directive.spec = 's'
  · rw [field_words words]
    exact (string_sound _ _ _).bind fun _ _ => sound_ok _
  · rw [field_cell words]
    exact (cell_sound _ _).bind fun _ _ => (convert_sound _ _ _).bind fun _ _ => sound_ok _

theorem loop_sound (floats : BitVec 32 → Nat → Text) (args : Arguments) (result source : Text)
    (index : Nat) : Sound (loop floats args result index source) := by
  fun_induction loop floats args result index source with
  | case1 result index => exact sound_ok _
  | case2 result index c text plain ih => exact ih
  | case3 result index c percent => exact sound_error (by decide) (by decide)
  | case4 result index c text percent filled head ih => exact ih
  | case5 result index c text percent filled head failure scanned =>
      have sound := scanDirective_sound filled
      rw [scanned] at sound
      exact sound_error (fun is => sound.1 (congrArg Except.error is))
        (fun is => sound.2 (congrArg Except.error is))
  | case6 result index c text percent filled head directive left scanned failure fails =>
      have sound := field_sound floats args directive index
      rw [fails] at sound
      exact sound_error (fun is => sound.1 (congrArg Except.error is))
        (fun is => sound.2 (congrArg Except.error is))
  | case7 result index c text percent filled head directive left scanned out field long =>
      exact sound_error (by decide) (by decide)
  | case8 result index c text percent filled head directive left scanned out field room ih =>
      exact ih

theorem format_sound (floats : BitVec 32 → Nat → Text) (args : Arguments) (index : Nat) :
    Sound (format floats args index) := by
  refine (string_sound _ _ _).bind ?_
  intro source _
  refine (loop_sound _ _ _ _ _).bind ?_
  rintro ⟨result, next⟩ -
  show Sound (if result.length > maxMessage then _ else if next ≠ args.count + 1 then _ else _)
  split
  · exact sound_error (by decide) (by decide)
  · split
    · exact sound_error (by decide) (by decide)
    · exact sound_ok _

/-- `Format` returns the text that the pieces of its format make of the arguments
behind it, all of them, and otherwise raises an error of its own. -/
theorem format_is_printf (floats : BitVec 32 → Nat → Text) (args : Arguments) (index : Nat) :
    (∀ text, format floats args index = .ok text ↔
      text.length ≤ maxMessage ∧ ∃ pieces : List Piece, (∀ piece ∈ pieces, piece.Fine) ∧
        args.string index maxMessage = .ok (pieces.flatMap Piece.text) ∧
        render floats pieces (args.readings (index + 1)) = some (text, [])) ∧
    format floats args index ≠ .error .outOfBounds ∧
    format floats args index ≠ .error .overflow := by
  refine ⟨?_, format_sound floats args index⟩
  have inside : ∀ source, args.string index 4095 = .ok source → index + 1 ≤ args.count + 1 := by
    intro source read
    obtain ⟨address, is, -⟩ := bind_eq_ok.mp read
    by_contra outside
    rw [Arguments.int, if_pos (Or.inr (by omega))] at is
    cases is
  intro text
  constructor
  · intro does
    obtain ⟨source, read, rest⟩ := bind_eq_ok.mp does
    obtain ⟨⟨result, next⟩, loops, done⟩ := bind_eq_ok.mp rest
    obtain ⟨pieces, text, rfl, fine, rfl, rendered, bounded⟩ :=
      pieces_of_loop loops (inside source read)
    simp only at done
    split at done
    · cases done
    · rename_i short
      split at done
      · cases done
      · rename_i last
        cases done
        have behind : args.readings next = [] := Arguments.readings_nil.mpr (by omega)
        rw [behind] at rendered
        exact ⟨by omega, pieces, fine, read, rendered⟩
  · rintro ⟨short, pieces, fine, read, rendered⟩
    obtain ⟨next, loops, left, bounded⟩ := loop_of_pieces pieces fine (inside _ read) rendered
      (show ([] ++ text).length ≤ maxMessage from short)
    have last := Arguments.readings_nil.mp left.symm
    refine bind_eq_ok.mpr ⟨_, read, bind_eq_ok.mpr ⟨_, loops, ?_⟩⟩
    simp only [List.nil_append]
    rw [if_neg (by omega), if_neg (by omega)]
    rfl

end Source2Root.Format
