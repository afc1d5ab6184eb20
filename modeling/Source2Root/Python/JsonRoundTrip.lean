import Source2Root.Python.Json

/-!
# What json.dumps writes, json.loads reads

For values whose texts are printable ASCII, whose numbers are whole, and whose
objects have their keys in order.
-/

set_option autoImplicit false

namespace Source2Root.Python

def Printable (text : Str) : Prop := ∀ c ∈ text, 32 ≤ c ∧ c ≤ 126

instance (text : Str) : Decidable (Printable text) :=
  inferInstanceAs (Decidable (∀ c ∈ text, 32 ≤ c ∧ c ≤ 126))

theorem Printable.ascii {text : Str} (printable : Printable text) : Ascii text := by
  intro c inside
  have bounds := printable c inside
  omega

namespace Value

mutual

/-- A value that is written in ASCII and read back as it is. -/
def Plain : Value → Prop
  | .null | .boolean _ => True
  | .integer n => 0 ≤ n ∧ n < 2 ^ 64
  | .number _ _ => False
  | .string text => Printable text
  | .array items => PlainItems items
  | .object members => Dict.Ordered members ∧ PlainMembers members

def PlainItems : List Value → Prop
  | [] => True
  | v :: rest => v.Plain ∧ PlainItems rest

def PlainMembers : Members → Prop
  | [] => True
  | m :: rest => PlainMember m ∧ PlainMembers rest

def PlainMember : Str × Value → Prop
  | (key, v) => Printable key ∧ v.Plain

end

end Value

/-! ## Strings -/

theorem scanUnits_escape {c : Nat} (printable : 32 ≤ c ∧ c ≤ 126) (rest : Str) :
    scanUnits (escape c ++ rest) = (scanUnits rest).map fun found => (c :: found.1, found.2) := by
  by_cases special : c = 34 ∨ c = 92
  · have back : escaped c = some c := by
      rw [escaped, if_pos (by omega)]
    have noUnit : c ≠ 117 := by omega
    rw [escape, if_pos special, List.cons_append, List.singleton_append, scanUnits.eq_def]
    simp [noUnit, back]
  · have plain : escape c = [c] := by
      simp only [escape, if_neg special, if_pos printable]
      repeat rw [if_neg (by omega)]
    obtain ⟨noQuote, noSlash⟩ := not_or.mp special
    have control : ¬c < 32 := by omega
    rw [plain, List.singleton_append, scanUnits.eq_def]
    simp [noQuote, noSlash, control]

theorem scanUnits_quoted {text : Str} (rest : Str) : Printable text →
    scanUnits (text.flatMap escape ++ 34 :: rest) = some (text, rest) := by
  induction text with
  | nil =>
      intro _
      rw [List.flatMap_nil, List.nil_append, scanUnits.eq_def]
      simp
  | cons c more ih =>
      intro printable
      obtain ⟨here, later⟩ := List.forall_mem_cons.mp printable
      rw [List.flatMap_cons, List.append_assoc, scanUnits_escape here, ih later, Option.map_some]

theorem joined_printable : ∀ {text : Str}, Printable text → joined text = text := by
  intro text
  induction text using joined.induct with
  | case1 => exact fun _ => rfl
  | case2 c => exact fun _ => rfl
  | case3 c d rest surrogates ih =>
      intro printable
      have bounds := printable c (List.mem_cons_self ..)
      omega
  | case4 c d rest other ih =>
      intro printable
      obtain ⟨-, later⟩ := List.forall_mem_cons.mp printable
      rw [joined, if_neg other, ih later]

theorem scanString_quoted {text : Str} (printable : Printable text) (rest : Str) :
    scanString (text.flatMap escape ++ 34 :: rest) = some (text, rest) := by
  rw [scanString, scanUnits_quoted rest printable, Option.map_some, joined_printable printable]

/-! ## Numbers -/

/-- Nothing that a number could go on with. -/
def Stops (rest : Str) : Prop :=
  ∀ c ∈ rest.head?, isDigit c = false ∧ c ≠ 46 ∧ c ≠ 69 ∧ c ≠ 101

theorem decimal_digits (n : Nat) : ∀ c ∈ decimal n, isDigit c = true := by
  intro c member
  obtain ⟨d, inside, rfl⟩ := List.mem_map.mp member
  simpa [Source2Root.isDigit, isDigit] using Source2Root.decimal_digits n d inside

theorem decimal_ne_nil (n : Nat) : decimal n ≠ [] :=
  fun empty => Source2Root.decimal_ne_nil n (List.map_eq_nil_iff.mp empty)

theorem intOf_decimal (n : Nat) : intOf (decimal n) = n := by
  rw [intOf, decimal, List.foldl_map]
  exact digitsValue_decimal n

/-- No number but zero begins with a zero. -/
theorem decimal_head {n : Nat} (positive : n ≠ 0) : (decimal n).head? ≠ some 48 := by
  intro zero
  have nonempty : Nat.digits 10 n ≠ [] := Nat.digits_ne_nil_iff_ne_zero.mpr positive
  have last := Nat.getLast_digit_ne_zero 10 positive
  have small := Nat.digits_lt_base (by decide : 1 < 10) (List.getLast_mem nonempty)
  rw [decimal, Source2Root.decimal, if_neg positive, List.map_map, List.head?_map,
    List.head?_reverse, List.getLast?_eq_getLast_of_ne_nil nonempty, Option.map_some,
    Option.some.injEq, Function.comp_apply, digit_toNat small] at zero
  omega

theorem decimal_length {n width : Nat} (fits : n < 10 ^ width) (wide : 1 ≤ width) :
    (decimal n).length ≤ width := by
  rw [decimal, List.length_map]
  exact Source2Root.decimal_length fits wide

theorem takeWhile_digits {digits rest : Str} (all : ∀ c ∈ digits, isDigit c = true)
    (stops : Stops rest) : (digits ++ rest).takeWhile isDigit = digits := by
  rw [List.takeWhile_append_of_pos all]
  cases rest with
  | nil => simp
  | cons c more =>
      have here := (stops c rfl).1
      simp [here]

theorem scanFraction_stops {rest : Str} (stops : Stops rest) : scanFraction rest = ([], rest) := by
  cases rest with
  | nil => rfl
  | cons c more =>
      have here := (stops c rfl).2.1
      simp [scanFraction, here]

theorem scanExponent_stops {rest : Str} (stops : Stops rest) :
    scanExponent rest = (none, rest) := by
  cases rest with
  | nil => rfl
  | cons c more =>
      have here := (stops c rfl).2.2
      simp [scanExponent, here]

theorem scanNumber_decimal {n : Nat} (small : n < 2 ^ 64) {rest : Str} (stops : Stops rest) :
    scanNumber (decimal n ++ rest) = some (.integer n, rest) := by
  have digits := takeWhile_digits (decimal_digits n) stops
  have short : (decimal n).length ≤ 20 := decimal_length (by omega) (by decide)
  have head : ∃ c more, decimal n = c :: more ∧ isDigit c = true := by
    cases written : decimal n with
    | nil => exact absurd written (decimal_ne_nil n)
    | cons c more => exact ⟨c, more, rfl, decimal_digits n c (by simp [written])⟩
  obtain ⟨c, more, written, isDigit_c⟩ := head
  have unsigned : (decimal n ++ rest).head? ≠ some 45 := by
    rw [written, List.cons_append, List.head?_cons]
    intro minus
    cases minus
    cases isDigit_c
  have whole : (if (decimal n ++ rest).head? = some 48 then [48]
      else (decimal n ++ rest).takeWhile isDigit) = decimal n := by
    by_cases zero : n = 0
    · subst zero
      rfl
    · have head := decimal_head zero
      rw [digits, if_neg]
      rwa [written, List.cons_append, List.head?_cons, ← List.head?_cons (l := more), ← written]
  rw [scanNumber, if_neg unsigned, scanUnsigned, whole]
  simp only [if_neg (decimal_ne_nil n), List.drop_left, scanFraction_stops stops,
    scanExponent_stops stops, and_self, if_true, if_pos (by omega : (decimal n).length ≤ 4300),
    one_mul, intOf_decimal]

/-! ## Values -/

theorem skip_start {rest : Str} (starts : ∀ c ∈ rest.head?, space c = false) :
    skip rest = rest := by
  cases rest with
  | nil => rfl
  | cons c more =>
      have here := starts c rfl
      simp [skip, here]

theorem skip_newline (level : Nat) {rest : Str} (starts : ∀ c ∈ rest.head?, space c = false) :
    skip (newline level ++ rest) = rest := by
  have blank : ∀ c ∈ newline level, space c = true := by
    intro c inside
    rcases List.mem_cons.mp inside with rfl | inside
    · rfl
    · rw [List.eq_of_mem_replicate inside]
      rfl
  rw [skip, List.dropWhile_append_of_pos blank]
  exact skip_start starts

theorem decimalInt_starts (n : Int) : ∃ c more, decimalInt n = c :: more ∧ space c = false ∧
    c ≠ 93 := by
  by_cases negative : n < 0
  · exact ⟨45, decimal n.natAbs, by rw [decimalInt, if_pos negative], rfl, by decide⟩
  · rw [decimalInt, if_neg negative]
    cases written : decimal n.natAbs with
    | nil => exact absurd written (decimal_ne_nil _)
    | cons c more =>
        have digit := decimal_digits n.natAbs c (by simp [written])
        simp only [isDigit, Bool.and_eq_true, decide_eq_true_eq] at digit
        refine ⟨c, more, rfl, ?_, by omega⟩
        simp only [space, Bool.or_eq_false_iff, decide_eq_false_iff_not]
        omega

theorem dumps_starts (level : Nat) (v : Value) :
    ∃ c more, dumps level v = c :: more ∧ space c = false ∧ c ≠ 93 := by
  match v with
  | .null => exact ⟨110, str "ull", rfl, rfl, by decide⟩
  | .boolean true => exact ⟨116, str "rue", rfl, rfl, by decide⟩
  | .boolean false => exact ⟨102, str "alse", rfl, rfl, by decide⟩
  | .integer n => exact decimalInt_starts n
  | .number mantissa exponent =>
      obtain ⟨c, more, written, starts⟩ := decimalInt_starts mantissa
      exact ⟨c, _, by rw [dumps, written, List.cons_append], starts⟩
  | .string text => exact ⟨34, _, rfl, rfl, by decide⟩
  | .array [] => exact ⟨91, [93], rfl, rfl, by decide⟩
  | .array (_ :: _) => exact ⟨91, _, rfl, rfl, by decide⟩
  | .object [] => exact ⟨123, [125], rfl, rfl, by decide⟩
  | .object (_ :: _) => exact ⟨123, _, rfl, rfl, by decide⟩

theorem dumps_head (level : Nat) (v : Value) (rest : Str) :
    ∀ c ∈ (dumps level v ++ rest).head?, space c = false := by
  obtain ⟨c, more, written, starts, -⟩ := dumps_starts level v
  intro d first
  rw [written, List.cons_append, List.head?_cons, Option.mem_some_iff] at first
  rwa [← first]

theorem dumpsMember_eq (level : Nat) (key : Str) (v : Value) (rest : Str) :
    dumpsMember level (key, v) ++ rest
      = 34 :: (key.flatMap escape ++ 34 :: 58 :: 32 :: (dumps level v ++ rest)) := by
  simp [dumpsMember, quoted]

theorem stops_cons {c : Nat} (rest : Str) (stops : isDigit c = false ∧ c ≠ 46 ∧ c ≠ 69 ∧ c ≠ 101) :
    Stops (c :: rest) := by
  intro d first
  rw [List.head?_cons, Option.mem_some_iff] at first
  rwa [← first]

theorem stops_items (level : Nat) (items : List Value) (rest : Str) :
    Stops (dumpsItems level items ++ rest) := by
  cases items with
  | nil => exact stops_cons _ (by decide)
  | cons v more => exact stops_cons _ (by decide)

theorem stops_members (level : Nat) (members : Value.Members) (rest : Str) :
    Stops (dumpsMembers level members ++ rest) := by
  cases members with
  | nil => exact stops_cons _ (by decide)
  | cons m more => exact stops_cons _ (by decide)

theorem pairs_ordered {members : Value.Members} : Dict.Ordered members →
    pairs members = some members := by
  induction members with
  | nil => exact fun _ => rfl
  | cons m rest ih =>
      intro ordered
      obtain ⟨first, later⟩ := List.pairwise_cons.mp ordered
      rw [pairs, ih later, Option.bind_some]
      cases rest with
      | nil => rfl
      | cons next more => rw [insertMember, if_pos (first next (List.mem_cons_self ..))]

theorem scanValue_digit {c : Nat} (digit : isDigit c = true) (n : Nat) (rest : Str) :
    scanValue (n + 1) (c :: rest) = scanNumber (c :: rest) := by
  simp only [isDigit, Bool.and_eq_true, decide_eq_true_eq] at digit
  have noText : c ≠ 34 ∧ c ≠ 123 ∧ c ≠ 91 := by omega
  have noWord : 110 ≠ c ∧ 116 ≠ c ∧ 102 ≠ c := by omega
  simp [scanValue, str, noText, noWord]

/-- One item of an object, up to what comes after its value. -/
theorem scanMembers_item {key text after rest : Str} {v : Value} {n c : Nat}
    (printable : Printable key) (starts : skip text = text)
    (found : scanValue n text = some (v, after)) (next : skip after = c :: rest) :
    scanMembers (n + 1) (34 :: (key.flatMap escape ++ 34 :: 58 :: 32 :: text)) =
      if c = 125 then some ([(key, v)], rest)
      else if c = 44 then
        (scanMembers n (skip rest)).map fun more => ((key, v) :: more.1, more.2)
      else none := by
  have colon : skip (58 :: 32 :: text) = 58 :: 32 :: text := skip_start (by simp [space])
  have blank : skip (32 :: text) = text := (List.dropWhile_cons_of_pos rfl).trans starts
  rw [scanMembers]
  simp only [expect, if_true, Option.bind_some, scanString_quoted printable, colon, blank, found,
    next]

mutual

theorem scanValue_dumps (level : Nat) : ∀ (v : Value) (n : Nat) (rest : Str), v.Plain →
    Stops rest → 2 * (dumps level v ++ rest).length < n →
    scanValue n (dumps level v ++ rest) = some (v, rest)
  | _, 0, _, _, _, calls => absurd calls (Nat.not_lt_zero _)
  | .null, n + 1, rest, _, _, _ => by
      simp [dumps, scanValue, str]
  | .boolean true, n + 1, rest, _, _, _ => by
      simp [dumps, scanValue, str]
  | .boolean false, n + 1, rest, _, _, _ => by
      simp [dumps, scanValue, str]
  | .integer m, n + 1, rest, plain, stops, _ => by
      obtain ⟨m, rfl⟩ := Int.eq_ofNat_of_zero_le plain.1
      have written : dumps level (.integer m) = decimal m := by
        rw [dumps, decimalInt, if_neg (by omega), Int.natAbs_natCast]
      have small : m < 2 ^ 64 := by
        have bound := plain.2
        omega
      rw [written]
      cases digits : decimal m with
      | nil => exact absurd digits (decimal_ne_nil m)
      | cons c more =>
          rw [List.cons_append, scanValue_digit (decimal_digits m c (by simp [digits])),
            ← List.cons_append, ← digits, scanNumber_decimal small stops]
  | .number _ _, _, _, plain, _, _ => plain.elim
  | .string text, n + 1, rest, plain, _, _ => by
      have found := scanString_quoted plain rest
      simp [dumps, quoted, scanValue, found]
  | .array [], n + 1, rest, _, _, _ => by
      simp [dumps, scanValue, str, skip, space]
  | .array (v :: items), n + 1, rest, plain, _, calls => by
      have found := scanItems_dumps level v items n rest plain.1 plain.2
      have skipped := skip_newline (level + 1)
        (dumps_head (level + 1) v (dumpsItems level items ++ rest))
      have notEnd : (dumps (level + 1) v ++ (dumpsItems level items ++ rest)).head? ≠ some 93 := by
        obtain ⟨c, more, written, -, notEnd⟩ := dumps_starts (level + 1) v
        rw [written, List.cons_append, List.head?_cons]
        exact fun same => notEnd (Option.some.inj same)
      simp only [dumps, List.cons_append, List.append_assoc, List.length_cons,
        List.length_append] at calls ⊢
      rw [scanValue]
      simp only [skipped, notEnd, if_false, if_true, show (91 : Nat) ≠ 34 by decide,
        show (91 : Nat) ≠ 123 by decide]
      rw [found (by simp only [List.length_append]; omega), Option.map_some]
  | .object [], n + 1, rest, _, _, _ => by
      simp [dumps, scanValue, str, skip, space]
  | .object ((key, v) :: members), n + 1, rest, plain, _, calls => by
      have found := scanMembers_dumps level key v members n rest plain.2.1 plain.2.2
      have written := dumpsMember_eq (level + 1) key v (dumpsMembers level members ++ rest)
      have skipped : skip (newline (level + 1)
          ++ (dumpsMember (level + 1) (key, v) ++ (dumpsMembers level members ++ rest)))
          = dumpsMember (level + 1) (key, v) ++ (dumpsMembers level members ++ rest) := by
        apply skip_newline
        simp [written, space]
      have notEnd : (dumpsMember (level + 1) (key, v)
          ++ (dumpsMembers level members ++ rest)).head? ≠ some 125 := by
        simp [written]
      simp only [dumps, List.cons_append, List.append_assoc, List.length_cons,
        List.length_append] at calls ⊢
      rw [scanValue]
      simp only [skipped, notEnd, if_false, if_true, show (123 : Nat) ≠ 34 by decide]
      rw [found (by simp only [List.length_append]; omega), Option.bind_some,
        pairs_ordered plain.1, Option.map_some]

theorem scanItems_dumps (level : Nat) : ∀ (v : Value) (items : List Value) (n : Nat) (rest : Str),
    v.Plain → Value.PlainItems items →
    2 * (dumps (level + 1) v ++ (dumpsItems level items ++ rest)).length + 1 < n →
    scanItems n (dumps (level + 1) v ++ (dumpsItems level items ++ rest))
      = some (v :: items, rest)
  | _, _, 0, _, _, _, calls => absurd calls (Nat.not_lt_zero _)
  | v, [], n + 1, rest, plain, _, calls => by
      have found := scanValue_dumps (level + 1) v n (dumpsItems level [] ++ rest) plain
        (stops_items level [] rest) (by omega)
      have ends : skip (newline level ++ 93 :: rest) = 93 :: rest :=
        skip_newline level (by simp [space])
      rw [scanItems, found, Option.bind_some, dumpsItems, List.append_assoc, List.singleton_append,
        ends]
      simp
  | v, w :: items, n + 1, rest, plain, later, calls => by
      have found := scanValue_dumps (level + 1) v n (dumpsItems level (w :: items) ++ rest) plain
        (stops_items level (w :: items) rest) (by omega)
      have more := scanItems_dumps level w items n rest later.1 later.2
      have skipped := skip_newline (level + 1)
        (dumps_head (level + 1) w (dumpsItems level items ++ rest))
      have comma : skip (dumpsItems level (w :: items) ++ rest)
          = 44 :: (newline (level + 1) ++ (dumps (level + 1) w ++ (dumpsItems level items ++ rest))) := by
        simp [dumpsItems, skip, space]
      simp only [dumpsItems, List.cons_append, List.append_assoc, List.length_cons,
        List.length_append] at calls
      rw [scanItems, found, Option.bind_some, comma]
      simp only [skipped, show (44 : Nat) ≠ 93 by decide, if_false, if_true]
      rw [more (by simp only [List.length_append]; omega), Option.map_some]

theorem scanMembers_dumps (level : Nat) : ∀ (key : Str) (v : Value) (members : Value.Members)
    (n : Nat) (rest : Str), Value.PlainMember (key, v) → Value.PlainMembers members →
    2 * (dumpsMember (level + 1) (key, v) ++ (dumpsMembers level members ++ rest)).length + 1 < n →
    scanMembers n (dumpsMember (level + 1) (key, v) ++ (dumpsMembers level members ++ rest))
      = some ((key, v) :: members, rest)
  | _, _, _, 0, _, _, _, calls => absurd calls (Nat.not_lt_zero _)
  | key, v, [], n + 1, rest, plain, _, calls => by
      have starts := skip_start (dumps_head (level + 1) v (dumpsMembers level [] ++ rest))
      have ends : skip (dumpsMembers level [] ++ rest) = 125 :: rest := by
        rw [dumpsMembers, List.append_assoc, List.singleton_append]
        exact skip_newline level (by simp [space])
      rw [dumpsMember_eq] at calls ⊢
      simp only [List.length_cons, List.length_append] at calls
      have found := scanValue_dumps (level + 1) v n (dumpsMembers level [] ++ rest) plain.2
        (stops_members level [] rest) (by simp only [List.length_append]; omega)
      rw [scanMembers_item plain.1 starts found ends, if_pos rfl]
  | key, v, (k, w) :: members, n + 1, rest, plain, later, calls => by
      have starts := skip_start
        (dumps_head (level + 1) v (dumpsMembers level ((k, w) :: members) ++ rest))
      have comma : skip (dumpsMembers level ((k, w) :: members) ++ rest)
          = 44 :: (newline (level + 1)
            ++ (dumpsMember (level + 1) (k, w) ++ (dumpsMembers level members ++ rest))) := by
        simp [dumpsMembers, skip, space]
      have skipped : skip (newline (level + 1)
          ++ (dumpsMember (level + 1) (k, w) ++ (dumpsMembers level members ++ rest)))
          = dumpsMember (level + 1) (k, w) ++ (dumpsMembers level members ++ rest) := by
        apply skip_newline
        simp [dumpsMember_eq, space]
      have more := scanMembers_dumps level k w members n rest later.1 later.2
      rw [dumpsMember_eq] at calls ⊢
      simp only [List.length_cons, List.length_append] at calls
      have found := scanValue_dumps (level + 1) v n (dumpsMembers level ((k, w) :: members) ++ rest)
        plain.2 (stops_members level _ rest) (by simp only [List.length_append]; omega)
      simp only [dumpsMembers, List.length_cons, List.length_append] at calls
      rw [scanMembers_item plain.1 starts found comma, if_neg (by decide), if_pos rfl, skipped,
        more (by simp only [List.length_append]; omega), Option.map_some]

end

/-! ## The whole document -/

theorem escape_ascii {c : Nat} (printable : 32 ≤ c ∧ c ≤ 126) : Ascii (escape c) := by
  intro d inside
  by_cases special : c = 34 ∨ c = 92
  · rw [escape, if_pos special] at inside
    simp only [List.mem_cons, List.not_mem_nil, or_false] at inside
    omega
  · simp only [escape, if_neg special, if_pos printable] at inside
    repeat rw [if_neg (by omega)] at inside
    rw [List.mem_singleton] at inside
    omega

theorem quoted_ascii {text : Str} (printable : Printable text) : Ascii (quoted text) := by
  intro c inside
  simp only [quoted, List.mem_cons, List.mem_append, List.mem_flatMap, List.not_mem_nil,
    or_false] at inside
  rcases inside with rfl | ⟨d, of, inside⟩ | rfl
  · decide
  · exact escape_ascii (printable d of) c inside
  · decide

theorem newline_ascii (level : Nat) : Ascii (newline level) := by
  intro c inside
  rcases List.mem_cons.mp inside with rfl | inside
  · decide
  · rw [List.eq_of_mem_replicate inside]
    decide

theorem decimal_ascii (n : Nat) : Ascii (decimal n) := by
  intro c inside
  have digit := decimal_digits n c inside
  simp only [isDigit, Bool.and_eq_true, decide_eq_true_eq] at digit
  omega

theorem Ascii.append {s t : Str} (left : Ascii s) (right : Ascii t) : Ascii (s ++ t) :=
  List.forall_mem_append.mpr ⟨left, right⟩

theorem Ascii.cons {c : Nat} {t : Str} (small : c < 0x80) (right : Ascii t) : Ascii (c :: t) :=
  List.forall_mem_cons.mpr ⟨small, right⟩

mutual

theorem dumps_ascii (level : Nat) : ∀ v : Value, v.Plain → Ascii (dumps level v)
  | .null, _ => (by decide : Ascii (str "null"))
  | .boolean true, _ => (by decide : Ascii (str "true"))
  | .boolean false, _ => (by decide : Ascii (str "false"))
  | .integer n, plain => by
      rw [dumps, decimalInt, if_neg (not_lt.mpr plain.1)]
      exact decimal_ascii _
  | .number _ _, plain => plain.elim
  | .string _, plain => quoted_ascii plain
  | .array [], _ => (by decide : Ascii (str "[]"))
  | .array (v :: rest), plain =>
      .cons (by decide) (((newline_ascii _).append (dumps_ascii _ v plain.1)).append
        (dumpsItems_ascii level rest plain.2))
  | .object [], _ => (by decide : Ascii (str "{}"))
  | .object (m :: rest), plain =>
      .cons (by decide) (((newline_ascii _).append (dumpsMember_ascii _ m plain.2.1)).append
        (dumpsMembers_ascii level rest plain.2.2))

theorem dumpsItems_ascii (level : Nat) : ∀ items : List Value, Value.PlainItems items →
    Ascii (dumpsItems level items)
  | [], _ => (newline_ascii _).append (by decide)
  | v :: rest, plain =>
      .cons (by decide) (((newline_ascii _).append (dumps_ascii _ v plain.1)).append
        (dumpsItems_ascii level rest plain.2))

theorem dumpsMembers_ascii (level : Nat) : ∀ members : Value.Members,
    Value.PlainMembers members → Ascii (dumpsMembers level members)
  | [], _ => (newline_ascii _).append (by decide)
  | m :: rest, plain =>
      .cons (by decide) (((newline_ascii _).append (dumpsMember_ascii _ m plain.1)).append
        (dumpsMembers_ascii level rest plain.2))

theorem dumpsMember_ascii (level : Nat) : ∀ m : Str × Value, Value.PlainMember m →
    Ascii (dumpsMember level m)
  | (_, v), plain =>
      (quoted_ascii plain.1).append (.cons (by decide) (.cons (by decide)
        (dumps_ascii level v plain.2)))

end

/-- What was written, with the line ended, is read. -/
theorem loads_dumps {v : Value} (plain : v.Plain) : loads (dumps 0 v ++ [10]) = some v := by
  have first : skip (dumps 0 v ++ [10]) = dumps 0 v ++ [10] := skip_start (dumps_head 0 v [10])
  have unmarked : (dumps 0 v ++ [10]).head? ≠ some 0xfeff := by
    intro mark
    have small := (dumps_ascii 0 v plain).append (by decide : Ascii [10]) _
      (List.mem_of_head? mark)
    omega
  have found := scanValue_dumps 0 v (2 * (dumps 0 v ++ [10]).length + 1) [10] plain
    (stops_cons _ (by decide)) (by omega)
  have ends : skip [10] = [] := rfl
  rw [loads, if_neg unmarked, first, found, Option.bind_some, if_pos ends]

end Source2Root.Python
