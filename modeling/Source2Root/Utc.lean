import Mathlib
import Source2Root.Decimal

/-!
# Times as text

`Utc` and `ParseUtc`: seconds since 1970 as `YYYY-MM-DDTHH:MM:SSZ`, for the years
1970 to 9999.  `std::chrono`'s calendar is the Gregorian one: the day of a date
by counting, the date of a day by taking off whole years and months.
-/

set_option autoImplicit false

namespace Source2Root

/-- `std::chrono::sys_seconds`. -/
abbrev Timestamp := Int

namespace Utc

/-! ## The calendar -/

def isLeap (year : Nat) : Bool := year % 4 == 0 && (year % 100 != 0 || year % 400 == 0)

def daysInYear (year : Nat) : Nat := if isLeap year then 366 else 365

def daysInMonth (year month : Nat) : Nat :=
  match month with
  | 2 => if isLeap year then 29 else 28
  | 4 | 6 | 9 | 11 => 30
  | _ => 31

structure Date where
  year : Nat
  month : Nat
  day : Nat
deriving DecidableEq, Repr

def Date.ok (date : Date) : Bool :=
  1 ≤ date.month && date.month ≤ 12 && 1 ≤ date.day && date.day ≤ daysInMonth date.year date.month

/-- The days from 1970 to the start of a year. -/
def daysBeforeYear (year : Nat) : Nat :=
  365 * (year - 1970) + ((year - 1) / 4 - (year - 1) / 100 + (year - 1) / 400 - 477)

def daysBeforeMonth (year : Nat) : Nat → Nat
  | 0 => 0
  | 1 => 0
  | month + 1 => daysBeforeMonth year month + daysInMonth year month

/-- The day of a date, from 1970 on. -/
def sysDays (date : Date) : Nat :=
  daysBeforeYear date.year + daysBeforeMonth date.year date.month + (date.day - 1)

/-- Whole years taken off a number of days. -/
def takeYears : Nat → Nat → Nat → Nat × Nat
  | 0, year, days => (year, days)
  | fuel + 1, year, days =>
      if days < daysInYear year then (year, days)
      else takeYears fuel (year + 1) (days - daysInYear year)

def takeMonths (year : Nat) : Nat → Nat → Nat → Nat × Nat
  | 0, month, days => (month, days)
  | fuel + 1, month, days =>
      if days < daysInMonth year month then (month, days)
      else takeMonths year fuel (month + 1) (days - daysInMonth year month)

/-- The date of a day, from 1970 on; a year has at least one day, so the days
bound the years. -/
def dateOf (days : Nat) : Date :=
  let (year, rest) := takeYears days 1970 days
  let (month, rest) := takeMonths year 11 1 rest
  { year, month, day := rest + 1 }

/-! ## The text -/

def secondsPerDay : Nat := 86400

/-- The last day of the year 9999. -/
def lastDay : Nat := sysDays { year := 9999, month := 12, day := 31 }

inductive Invalid where
  | outsideYears
  | shape
  | fields
  | date
deriving DecidableEq, Repr

def Invalid.message : Invalid → String
  | .outsideYears => "UTC timestamp is outside supported years 1970 through 9999"
  | .shape => "expected a UTC timestamp YYYY-MM-DDTHH:MM:SSZ"
  | .fields => "invalid UTC timestamp"
  | .date => "invalid calendar date"

/-- `Utc`. -/
def format (time : Int) : Except Invalid Text :=
  let day := time / secondsPerDay
  if day < 0 ∨ lastDay < day then .error .outsideYears
  else
    let date := dateOf day.toNat
    let clock := (time - day * secondsPerDay).toNat
    .ok (padded 4 date.year ++ '-' :: padded 2 date.month ++ '-' :: padded 2 date.day ++
      'T' :: padded 2 (clock / 3600) ++ ':' :: padded 2 (clock / 60 % 60) ++
      ':' :: padded 2 (clock % 60) ++ ['Z'])

def unsigned (text : Text) (maximum : Nat) : Option Nat :=
  (fromChars text).filter fun n => n ≤ maximum

def field (text : Text) (start length maximum : Nat) : Option Nat :=
  unsigned ((text.drop start).take length) maximum

/-- `ParseUtc`. -/
def parse (text : Text) : Except Invalid Int :=
  if text.length ≠ 20 ∨ text[4]? ≠ some '-' ∨ text[7]? ≠ some '-' ∨ text[10]? ≠ some 'T' ∨
      text[13]? ≠ some ':' ∨ text[16]? ≠ some ':' ∨ text[19]? ≠ some 'Z' then .error .shape
  else
    match field text 0 4 9999, field text 5 2 12, field text 8 2 31, field text 11 2 23,
      field text 14 2 59, field text 17 2 59 with
    | some year, some month, some day, some hour, some minute, some second =>
        if year < 1970 then .error .fields
        else
          let date : Date := { year, month, day }
          if !date.ok then .error .date
          else .ok (sysDays date * secondsPerDay + hour * 3600 + minute * 60 + second)
    | _, _, _, _, _, _ => .error .fields

/-! ## A day has one date -/

theorem daysBeforeYear_succ {year : Nat} (start : 1970 ≤ year) :
    daysBeforeYear (year + 1) = daysBeforeYear year + daysInYear year := by
  unfold daysBeforeYear daysInYear isLeap
  by_cases leap : (year % 4 == 0 && (year % 100 != 0 || year % 400 == 0)) = true
  · rw [if_pos leap]
    simp only [Bool.and_eq_true, Bool.or_eq_true, beq_iff_eq, bne_iff_ne, ne_eq] at leap
    omega
  · rw [if_neg leap]
    simp only [Bool.and_eq_true, Bool.or_eq_true, beq_iff_eq, bne_iff_ne, ne_eq] at leap
    omega

theorem daysInYear_pos (year : Nat) : 1 ≤ daysInYear year := by
  unfold daysInYear
  split <;> omega

theorem takeYears_spec : ∀ (fuel year days : Nat), days ≤ fuel → 1970 ≤ year →
    daysBeforeYear (takeYears fuel year days).1 + (takeYears fuel year days).2 =
        daysBeforeYear year + days ∧
      (takeYears fuel year days).2 < daysInYear (takeYears fuel year days).1 ∧
      1970 ≤ (takeYears fuel year days).1 := by
  intro fuel
  induction fuel with
  | zero =>
      intro year days enough start
      have positive := daysInYear_pos year
      have none_left : days = 0 := by omega
      subst none_left
      exact ⟨rfl, positive, start⟩
  | succ fuel ih =>
      intro year days enough start
      have positive := daysInYear_pos year
      rw [takeYears]
      split
      · rename_i inside
        exact ⟨rfl, inside, start⟩
      · rename_i beyond
        have rest := ih (year + 1) (days - daysInYear year) (by omega) (by omega)
        have next := daysBeforeYear_succ start
        refine ⟨?_, rest.2⟩
        omega

theorem daysBeforeMonth_succ (year : Nat) {month : Nat} (started : 1 ≤ month) :
    daysBeforeMonth year (month + 1) = daysBeforeMonth year month + daysInMonth year month := by
  obtain ⟨before, rfl⟩ := Nat.exists_eq_add_of_le' started
  rfl

theorem takeMonths_spec (year : Nat) : ∀ (fuel month days : Nat), 1 ≤ month →
    daysBeforeMonth year (takeMonths year fuel month days).1 + (takeMonths year fuel month days).2 =
        daysBeforeMonth year month + days ∧
      month ≤ (takeMonths year fuel month days).1 ∧
      ((takeMonths year fuel month days).2 <
          daysInMonth year (takeMonths year fuel month days).1 ∧
        (takeMonths year fuel month days).1 ≤ month + fuel ∨
        (takeMonths year fuel month days).1 = month + fuel) := by
  intro fuel
  induction fuel with
  | zero =>
      intro month days started
      exact ⟨rfl, le_refl _, Or.inr rfl⟩
  | succ fuel ih =>
      intro month days started
      rw [takeMonths]
      split
      · rename_i inside
        exact ⟨rfl, le_refl _, Or.inl ⟨inside, by omega⟩⟩
      · rename_i beyond
        have rest := ih (month + 1) (days - daysInMonth year month) (by omega)
        have next := daysBeforeMonth_succ year started
        refine ⟨by omega, by omega, ?_⟩
        rcases rest.2.2 with ⟨inside, bounded⟩ | last
        · exact Or.inl ⟨inside, by omega⟩
        · exact Or.inr (by omega)

theorem daysBeforeMonth_twelve (year : Nat) :
    daysBeforeMonth year 12 + 31 = daysInYear year := by
  simp only [daysBeforeMonth, daysInMonth, daysInYear]
  split <;> rfl

/-- The day of the date of a day. -/
theorem sysDays_dateOf (days : Nat) :
    sysDays (dateOf days) = days ∧ (dateOf days).ok = true ∧ 1970 ≤ (dateOf days).year := by
  have years := takeYears_spec days 1970 days (le_refl _) (le_refl _)
  unfold dateOf
  generalize takeYears days 1970 days = taken at years
  obtain ⟨year, rest⟩ := taken
  simp only at years ⊢
  have months := takeMonths_spec year 11 1 rest (le_refl _)
  have last := daysBeforeMonth_twelve year
  generalize takeMonths year 11 1 rest = inYear at months
  obtain ⟨month, left⟩ := inYear
  simp only at months ⊢
  obtain ⟨sum, first, ending⟩ := months
  have before : daysBeforeYear 1970 = 0 := by decide
  have january : daysBeforeMonth year 1 = 0 := rfl
  have inside : left < daysInMonth year month ∧ month ≤ 12 := by
    rcases ending with short | twelve
    · exact short
    · have month_eq : month = 12 := by omega
      subst month_eq
      have december : daysInMonth year 12 = 31 := rfl
      omega
  refine ⟨?_, ?_, years.2.2⟩
  · simp only [sysDays]
    omega
  · simp only [Date.ok, Bool.and_eq_true, decide_eq_true_eq]
    omega

theorem year_le {days : Nat} (bounded : days ≤ lastDay) : (dateOf days).year ≤ 9999 := by
  obtain ⟨whole, -, -⟩ := sysDays_dateOf days
  have last : lastDay = 2932896 := by decide
  by_contra late
  have start : daysBeforeYear (dateOf days).year ≤ days := by
    unfold sysDays at whole
    omega
  unfold daysBeforeYear at start
  omega

/-! ## The text of a time is read back -/

theorem padded_two {n : Nat} (small : n < 100) : ∃ a b, padded 2 n = [a, b] :=
  List.length_eq_two.mp (padded_length (by omega) (by decide))

theorem padded_four {n : Nat} (small : n < 10000) : ∃ a b c d, padded 4 n = [a, b, c, d] := by
  have length : (padded 4 n).length = 4 := padded_length (by omega) (by decide)
  match shape : padded 4 n, length with
  | [a, b, c, d], _ => exact ⟨a, b, c, d, rfl⟩

theorem unsigned_padded (width maximum : Nat) {n : Nat} (bounded : n ≤ maximum)
    (fits : maximum < 2 ^ 64) : unsigned (padded width n) maximum = some n := by
  rw [unsigned, fromChars_padded width (lt_of_le_of_lt bounded fits)]
  simp [bounded]

theorem parse_fields {y₁ y₂ y₃ y₄ m₁ m₂ d₁ d₂ h₁ h₂ i₁ i₂ s₁ s₂ : Char} {date : Date}
    {hour minute second : Nat} (year_read : unsigned [y₁, y₂, y₃, y₄] 9999 = some date.year)
    (month_read : unsigned [m₁, m₂] 12 = some date.month)
    (day_read : unsigned [d₁, d₂] 31 = some date.day) (hour_read : unsigned [h₁, h₂] 23 = some hour)
    (minute_read : unsigned [i₁, i₂] 59 = some minute)
    (second_read : unsigned [s₁, s₂] 59 = some second) (first : 1970 ≤ date.year)
    (ok : date.ok = true) :
    parse ([y₁, y₂, y₃, y₄] ++ '-' :: [m₁, m₂] ++ '-' :: [d₁, d₂] ++ 'T' :: [h₁, h₂] ++
        ':' :: [i₁, i₂] ++ ':' :: [s₁, s₂] ++ ['Z']) =
      .ok (sysDays date * secondsPerDay + hour * 3600 + minute * 60 + second) := by
  have shape : parse ([y₁, y₂, y₃, y₄] ++ '-' :: [m₁, m₂] ++ '-' :: [d₁, d₂] ++ 'T' :: [h₁, h₂] ++
      ':' :: [i₁, i₂] ++ ':' :: [s₁, s₂] ++ ['Z']) =
      match unsigned [y₁, y₂, y₃, y₄] 9999, unsigned [m₁, m₂] 12, unsigned [d₁, d₂] 31,
        unsigned [h₁, h₂] 23, unsigned [i₁, i₂] 59, unsigned [s₁, s₂] 59 with
      | some year, some month, some day, some hour, some minute, some second =>
          if year < 1970 then .error .fields
          else
            let date : Date := { year, month, day }
            if !date.ok then .error .date
            else .ok (sysDays date * secondsPerDay + hour * 3600 + minute * 60 + second)
      | _, _, _, _, _, _ => .error .fields := by
    exact if_neg (by simp)
  rw [shape, year_read, month_read, day_read, hour_read, minute_read, second_read]
  simp only
  rw [if_neg (not_lt.mpr first), if_neg (by simp [ok])]

/-- What `Utc` writes, `ParseUtc` reads. -/
theorem parse_format {time : Int} {text : Text} (formatted : format time = .ok text) :
    parse text = .ok time := by
  unfold format at formatted
  simp only at formatted
  split at formatted
  · cases formatted
  · rename_i inside
    injection formatted with text_eq
    obtain ⟨started, bounded⟩ := not_or.mp inside
    have day_le : (time / secondsPerDay).toNat ≤ lastDay := by omega
    obtain ⟨whole, ok, first⟩ := sysDays_dateOf (time / secondsPerDay).toNat
    have last := year_le day_le
    generalize dateOf (time / secondsPerDay).toNat = date at text_eq whole ok first last
    have days_eq : (sysDays date : Int) = time / secondsPerDay := by omega
    generalize clock_eq : (time - time / secondsPerDay * secondsPerDay).toNat = clock at text_eq
    have clock_val : (clock : Int) = time - sysDays date * 86400 ∧ clock < 86400 := by
      have per : (secondsPerDay : Int) = 86400 := rfl
      rw [per] at clock_eq days_eq
      omega
    have fields := ok
    simp only [Date.ok, Bool.and_eq_true, decide_eq_true_eq] at fields
    have short : daysInMonth date.year date.month ≤ 31 := by
      unfold daysInMonth
      split <;> (try split) <;> omega
    obtain ⟨y₁, y₂, y₃, y₄, year_eq⟩ := padded_four (n := date.year) (by omega)
    obtain ⟨m₁, m₂, month_eq⟩ := padded_two (n := date.month) (by omega)
    obtain ⟨d₁, d₂, day_eq⟩ := padded_two (n := date.day) (by omega)
    obtain ⟨h₁, h₂, hour_eq⟩ := padded_two (n := clock / 3600) (by omega)
    obtain ⟨i₁, i₂, minute_eq⟩ := padded_two (n := clock / 60 % 60) (by omega)
    obtain ⟨s₁, s₂, second_eq⟩ := padded_two (n := clock % 60) (by omega)
    have year_read := unsigned_padded 4 9999 last (by decide)
    have month_read := unsigned_padded 2 12 (n := date.month) (by omega) (by decide)
    have day_read := unsigned_padded 2 31 (n := date.day) (by omega) (by decide)
    have hour_read := unsigned_padded 2 23 (n := clock / 3600) (by omega) (by decide)
    have minute_read :=
      unsigned_padded 2 59 (n := clock / 60 % 60) (by omega) (by decide)
    have second_read := unsigned_padded 2 59 (n := clock % 60) (by omega) (by decide)
    rw [year_eq] at year_read text_eq
    rw [month_eq] at month_read text_eq
    rw [day_eq] at day_read text_eq
    rw [hour_eq] at hour_read text_eq
    rw [minute_eq] at minute_read text_eq
    rw [second_eq] at second_read text_eq
    subst text_eq
    rw [parse_fields year_read month_read day_read hour_read minute_read second_read first ok]
    have per : (secondsPerDay : Int) = 86400 := rfl
    refine congrArg Except.ok ?_
    rw [per]
    omega

end Utc

end Source2Root
