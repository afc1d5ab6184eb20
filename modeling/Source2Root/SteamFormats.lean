import Source2Root.Bans
import Source2Root.Prefs

/-!
# The three spellings of a Steam account

A 64-bit number, `STEAM_X:Y:Z` and `[U:1:N]`.  `Denotes` says what a text means
with numbers of any size; `ParseSteamIdentity` reads 64-bit numbers and checks
ranges before it adds, and finds the same account or none.
-/

set_option autoImplicit false

namespace Source2Root.SteamId

/-- A number written in digits, of any length. -/
def Numeral (text : Text) (n : Nat) : Prop :=
  text ≠ [] ∧ text.all isDigit = true ∧ digitsValue text = n

def legacyText (realm parity : Char) (half : Text) : Text :=
  "STEAM_".toList ++ realm :: ':' :: parity :: ':' :: half

def modernText (account : Text) : Text := "[U:1:".toList ++ account ++ [']']

/-- The account that a text stands for. -/
inductive Denotes : Text → Nat → Prop
  | number {text : Text} {id : Nat} (read : Numeral text id) : Denotes text id
  | legacy {realm : Char} {parity half : Nat} {text : Text}
      (known : realm = '0' ∨ realm = '1') (bit : parity ≤ 1) (read : Numeral text half) :
      Denotes (legacyText realm (digit parity) text) (IndividualBase + 2 * half + parity)
  | modern {account : Nat} {text : Text} (read : Numeral text account) :
      Denotes (modernText text) (IndividualBase + account)

theorem valid_iff {value : Nat} :
    validSteamIdentity value = true ↔
      IndividualBase < value ∧ value ≤ IndividualBase + 4294967295 := by
  simp [validSteamIdentity]

theorem steamNumber_eq_ok {text : Text} {n : Nat} :
    steamNumber text = .ok n ↔ Numeral text n ∧ n < 2 ^ 64 := by
  unfold steamNumber Numeral
  constructor
  · intro read
    cases number : fromChars text with
    | none => simp [number] at read
    | some m =>
        rw [number] at read
        injection read with same
        subst same
        obtain ⟨filled, digits, value, fits⟩ := fromChars_eq_some number
        exact ⟨⟨filled, digits, value⟩, fits⟩
  · intro ⟨⟨filled, digits, value⟩, fits⟩
    have number : fromChars text = some n := by
      rw [fromChars, if_pos ⟨filled, digits, value ▸ fits⟩, value]
    rw [number]

theorem numeral_decimal (n : Nat) : Numeral (decimal n) n :=
  ⟨decimal_ne_nil n, List.all_eq_true.mpr (decimal_digits n), digitsValue_decimal n⟩

/-! ## The shape of a text -/

theorem legacy_prefix {text : Text} (start : "STEAM_".toList.isPrefixOf text = true)
    (long : ¬text.length < 11) :
    ∃ x c y d z rest, text = "STEAM_".toList ++ x :: c :: y :: d :: z :: rest := by
  obtain ⟨rest, rfl⟩ := List.isPrefixOf_iff_prefix.mp start
  have six : "STEAM_".toList.length = 6 := rfl
  rw [List.length_append, six] at long
  match rest, long with
  | x :: c :: y :: d :: z :: rest, _ => exact ⟨x, c, y, d, z, rest, rfl⟩
  | [], short => exact absurd (by decide) short
  | [_], short => simp at short
  | [_, _], short => simp at short
  | [_, _, _], short => simp at short
  | [_, _, _, _], short => simp at short

theorem modern_shape {text : Text} (start : "[U:1:".toList.isPrefixOf text = true)
    (last : text.getLast? = some ']') : ∃ middle, text = modernText middle := by
  obtain ⟨rest, rfl⟩ := List.isPrefixOf_iff_prefix.mp start
  rcases List.eq_nil_or_concat' rest with rfl | ⟨middle, c, rfl⟩
  · exact absurd last (by decide)
  · rw [← List.append_assoc, List.getLast?_concat] at last
    injection last with same
    exact ⟨middle, by rw [same, ← List.append_assoc]; rfl⟩

theorem modernText_middle (middle : Text) :
    ((modernText middle).drop 5).take ((modernText middle).length - 6) = middle := by
  have dropped : (modernText middle).drop 5 = middle ++ [']'] := rfl
  have length : (modernText middle).length - 6 = middle.length := by
    have five : "[U:1:".toList.length = 5 := rfl
    simp only [modernText, List.length_append, five, List.length_singleton]
    omega
  rw [dropped, length, List.take_left]

theorem not_prefix_of_numeral {text : Text} {n : Nat} (read : Numeral text n) {first : Char}
    {word : Text} (letter : isDigit first = false) : (first :: word).isPrefixOf text = false := by
  obtain ⟨filled, digits, -⟩ := read
  cases text with
  | nil => exact absurd rfl filled
  | cons c rest =>
      have digit : isDigit c = true := List.all_eq_true.mp digits c (List.mem_cons_self ..)
      have different : (first == c) = false := by
        apply beq_eq_false_iff_ne.mpr
        intro same
        rw [same, digit] at letter
        cases letter
      simp [List.isPrefixOf, different]

/-! ## What is read is what the text denotes -/

theorem read_legacy {realm : Char} {parity half : Nat} {text : Text}
    (known : realm = '0' ∨ realm = '1') (bit : parity ≤ 1) (read : Numeral text half)
    (fits : half ≤ 4294967295 / 2) :
    readSteamIdentity (legacyText realm (digit parity) text) =
      .ok (IndividualBase + 2 * half + parity) := by
  have start : "STEAM_".toList.isPrefixOf (legacyText realm (digit parity) text) = true :=
    List.isPrefixOf_iff_prefix.mpr ⟨_, rfl⟩
  have number : steamNumber text = .ok half := steamNumber_eq_ok.mpr ⟨read, by omega⟩
  have long : ¬(legacyText realm (digit parity) text).length < 11 := by
    have positive := List.length_pos_iff.mpr read.1
    have six : "STEAM_".toList.length = 6 := rfl
    simp only [legacyText, List.length_append, List.length_cons, six]
    omega
  have realm_at : (legacyText realm (digit parity) text)[6]? = some realm := rfl
  have colon : (legacyText realm (digit parity) text)[7]? = some ':' := rfl
  have parity_at : (legacyText realm (digit parity) text)[8]? = some (digit parity) := rfl
  have colon' : (legacyText realm (digit parity) text)[9]? = some ':' := rfl
  have rest : (legacyText realm (digit parity) text).drop 10 = text := rfl
  have bit_char : digit parity = '0' ∧ parity = 0 ∨ digit parity = '1' ∧ parity = 1 := by
    have zero_or_one : parity = 0 ∨ parity = 1 := by omega
    rcases zero_or_one with rfl | rfl
    · exact Or.inl ⟨by decide, rfl⟩
    · exact Or.inr ⟨by decide, rfl⟩
  have shape : ¬((legacyText realm (digit parity) text).length < 11 ∨
      some realm ≠ some '0' ∧ some realm ≠ some '1' ∨ some ':' ≠ some ':' ∨
      some (digit parity) ≠ some '0' ∧ some (digit parity) ≠ some '1' ∨ some ':' ≠ some ':') := by
    rintro (short | ⟨not_zero, not_one⟩ | other | ⟨not_zero, not_one⟩ | other)
    · exact long short
    · rcases known with rfl | rfl
      · exact not_zero rfl
      · exact not_one rfl
    · exact other rfl
    · rcases bit_char with zero | one
      · exact not_zero (congrArg some zero.1)
      · exact not_one (congrArg some one.1)
    · exact other rfl
  rw [readSteamIdentity, if_pos start, realm_at, colon, parity_at, colon', rest, number,
    if_neg shape]
  simp only
  rw [if_neg (not_lt.mpr fits)]
  rcases bit_char with ⟨char, rfl⟩ | ⟨char, rfl⟩
  · rw [char, if_neg (by decide), mul_comm]
  · rw [char, if_pos rfl, mul_comm]

theorem read_modern {account : Nat} {text : Text} (read : Numeral text account)
    (fits : account ≤ 4294967295) :
    readSteamIdentity (modernText text) = .ok (IndividualBase + account) := by
  have steam : "STEAM_".toList.isPrefixOf (modernText text) = false := rfl
  have start : "[U:".toList.isPrefixOf (modernText text) = true := rfl
  have start' : "[U:1:".toList.isPrefixOf (modernText text) = true := rfl
  have last : (modernText text).getLast? = some ']' := List.getLast?_concat
  have number : steamNumber text = .ok account := steamNumber_eq_ok.mpr ⟨read, by omega⟩
  rw [readSteamIdentity, steam, start, start', last, modernText_middle, number]
  simp only
  rw [if_neg (not_lt.mpr fits)]
  simp

theorem read_number {text : Text} {id : Nat} (read : Numeral text id) (fits : id < 2 ^ 64) :
    readSteamIdentity text = .ok id := by
  have steam : "STEAM_".toList.isPrefixOf text = false := not_prefix_of_numeral read (by decide)
  have bracket : "[U:".toList.isPrefixOf text = false := not_prefix_of_numeral read (by decide)
  have number : steamNumber text = .ok id := steamNumber_eq_ok.mpr ⟨read, fits⟩
  rw [readSteamIdentity, steam, bracket, number]
  simp

theorem read_of_denotes {text : Text} {id : Nat} (denotes : Denotes text id)
    (valid : validSteamIdentity id = true) : readSteamIdentity text = .ok id := by
  obtain ⟨above, bounded⟩ := valid_iff.mp valid
  cases denotes with
  | number read =>
      unfold IndividualBase at bounded
      exact read_number read (by omega)
  | legacy known bit read => exact read_legacy known bit read (by omega)
  | modern read => exact read_modern read (by omega)

theorem denotes_of_read {text : Text} {id : Nat} (read : readSteamIdentity text = .ok id) :
    Denotes text id := by
  unfold readSteamIdentity at read
  split at read
  · rename_i start
    split at read
    · cases read
    · rename_i shape
      simp only [not_or, not_and, not_not] at shape
      obtain ⟨long, realm_at, colon, parity_at, colon'⟩ := shape
      obtain ⟨realm, c, y, d, z, rest, rfl⟩ := legacy_prefix start long
      have realm_eq : ("STEAM_".toList ++ realm :: c :: y :: d :: z :: rest)[6]? = some realm := rfl
      have c_eq : ("STEAM_".toList ++ realm :: c :: y :: d :: z :: rest)[7]? = some c := rfl
      have y_eq : ("STEAM_".toList ++ realm :: c :: y :: d :: z :: rest)[8]? = some y := rfl
      have d_eq : ("STEAM_".toList ++ realm :: c :: y :: d :: z :: rest)[9]? = some d := rfl
      have tail : ("STEAM_".toList ++ realm :: c :: y :: d :: z :: rest).drop 10 = z :: rest := rfl
      simp only [realm_eq, ne_eq, Option.some_inj] at realm_at
      simp only [c_eq, Option.some_inj] at colon
      simp only [d_eq, Option.some_inj] at colon'
      simp only [y_eq, ne_eq, Option.some_inj] at parity_at
      subst colon colon'
      rw [tail, y_eq] at read
      cases number : steamNumber (z :: rest) with
      | error e => simp [number] at read
      | ok half =>
          rw [number] at read
          simp only at read
          split at read
          · cases read
          · injection read with same
            obtain ⟨numeral, -⟩ := steamNumber_eq_ok.mp number
            have known : realm = '0' ∨ realm = '1' := by
              by_cases zero : realm = '0'
              · exact Or.inl zero
              · exact Or.inr (realm_at zero)
            by_cases one : y = '1'
            · subst one
              rw [if_pos rfl] at same
              have found := Denotes.legacy known (le_refl 1) numeral
              rw [show IndividualBase + 2 * half + 1 = id by omega] at found
              exact found
            · have zero : y = '0' := by
                by_contra other
                exact one (parity_at other)
              subst zero
              rw [if_neg (by decide)] at same
              have found := Denotes.legacy known (Nat.zero_le 1) numeral
              rw [show IndividualBase + 2 * half + 0 = id by omega] at found
              exact found
  · split at read
    · split at read
      · cases read
      · rename_i shape
        simp only [Bool.or_eq_true, Bool.not_eq_true', bne_iff_ne, ne_eq, not_or, not_not,
          Bool.not_eq_false] at shape
        obtain ⟨middle, rfl⟩ := modern_shape shape.1 shape.2
        rw [modernText_middle] at read
        cases number : steamNumber middle with
        | error e => simp [number] at read
        | ok account =>
            rw [number] at read
            simp only at read
            split at read
            · cases read
            · injection read with same
              exact same ▸ Denotes.modern (steamNumber_eq_ok.mp number).1
    · exact Denotes.number (steamNumber_eq_ok.mp read).1

theorem parse_iff {text : Text} {id : Nat} :
    parseSteamIdentity text = .ok id ↔ Denotes text id ∧ validSteamIdentity id = true := by
  unfold parseSteamIdentity
  constructor
  · intro parsed
    cases read : readSteamIdentity text with
    | error e => simp [read] at parsed
    | ok result =>
        rw [read] at parsed
        simp only at parsed
        split at parsed
        · rename_i valid
          injection parsed with same
          subst same
          exact ⟨denotes_of_read read, valid⟩
        · cases parsed
  · intro ⟨denotes, valid⟩
    rw [read_of_denotes denotes valid]
    simp only
    rw [if_pos valid]

/-! ## The formats of an account -/

inductive Format where
  | number
  | legacy (realm : Char)
  | modern

/-- The formats there are: `STEAM_0` and `STEAM_1` of the second kind. -/
def Format.known : Format → Prop
  | .legacy realm => realm = '0' ∨ realm = '1'
  | _ => True

def Format.text (id : Nat) : Format → Text
  | .number => decimal id
  | .legacy realm =>
      legacyText realm (digit ((id - IndividualBase) % 2)) (decimal ((id - IndividualBase) / 2))
  | .modern => modernText (decimal (id - IndividualBase))

theorem Format.denotes {format : Format} (known : format.known) {id : Nat}
    (valid : validSteamIdentity id = true) : Denotes (format.text id) id := by
  obtain ⟨above, -⟩ := valid_iff.mp valid
  cases format with
  | number => exact Denotes.number (numeral_decimal id)
  | legacy realm =>
      have bit : (id - IndividualBase) % 2 ≤ 1 := Nat.le_of_lt_succ (Nat.mod_lt _ (by decide))
      have found := Denotes.legacy known bit (numeral_decimal ((id - IndividualBase) / 2))
      rw [show IndividualBase + 2 * ((id - IndividualBase) / 2) + (id - IndividualBase) % 2 = id by
        omega] at found
      exact found
  | modern =>
      have found := Denotes.modern (numeral_decimal (id - IndividualBase))
      rw [show IndividualBase + (id - IndividualBase) = id by omega] at found
      exact found

theorem validateAccount_iff {value : Nat} :
    Prefs.validateAccount value = .ok () ↔ validSteamIdentity value = true := by
  rw [valid_iff]
  unfold Prefs.validateAccount IndividualBase
  constructor
  · intro accepted
    split at accepted
    · cases accepted
    · omega
  · intro bounds
    rw [if_neg (by omega)]
    rfl

/-- A text is read as the account it denotes or not at all, in every format, and the
client preferences know the same accounts. -/
theorem formats_agree :
    (∀ (format : Format) (id : Nat), format.known → validSteamIdentity id = true →
      parseSteamIdentity (format.text id) = .ok id) ∧
    (∀ (text : Text) (id : Nat), parseSteamIdentity text = .ok id ↔
      Denotes text id ∧ validSteamIdentity id = true) ∧
    ∀ value : Nat, Prefs.validateAccount value = .ok () ↔ validSteamIdentity value = true :=
  ⟨fun _ _ known valid => parse_iff.mpr ⟨Format.denotes known valid, valid⟩, fun _ _ => parse_iff,
    fun _ => validateAccount_iff⟩

end Source2Root.SteamId
