import Source2Root.Utc

/-!
# Only the text of a time is a time

`Utc.parse_format` reads back what `Utc` writes.  Here the other direction: a text
that `ParseUtc` accepts is what `Utc` writes for the time read, so the language of
`ParseUtc` is the image of `Utc` and two texts never stand for one time.
-/

set_option autoImplicit false

namespace Source2Root.Utc

/-- 9999-12-31T23:59:59Z. -/
def lastSecond : Int := 253402300799

theorem lastDay_eq : lastDay = 2932896 := by decide

/-! ## A date is found by its day -/

theorem daysBeforeYear_mono {year later : Nat} (start : 1970 ≤ year) (before : year ≤ later) :
    daysBeforeYear year ≤ daysBeforeYear later := by
  induction later, before using Nat.le_induction with
  | base => exact le_refl _
  | succ later before ih =>
      have next := daysBeforeYear_succ (le_trans start before)
      omega

theorem daysBeforeMonth_mono (year : Nat) {month later : Nat} (started : 1 ≤ month)
    (before : month ≤ later) : daysBeforeMonth year month ≤ daysBeforeMonth year later := by
  induction later, before using Nat.le_induction with
  | base => exact le_refl _
  | succ later before ih =>
      have next := daysBeforeMonth_succ year (le_trans started before)
      omega

theorem Date.ok_iff {date : Date} :
    date.ok = true ↔ 1 ≤ date.month ∧ date.month ≤ 12 ∧ 1 ≤ date.day ∧
      date.day ≤ daysInMonth date.year date.month := by
  simp [Date.ok, and_assoc]

/-- A day of a month lies between the start of the month and the start of the next. -/
theorem day_within_month {date : Date} (ok : date.ok = true) :
    daysBeforeMonth date.year date.month + (date.day - 1) <
      daysBeforeMonth date.year (date.month + 1) := by
  obtain ⟨started, -, first, last⟩ := Date.ok_iff.mp ok
  have next := daysBeforeMonth_succ date.year started
  omega

theorem day_within_year {date : Date} (ok : date.ok = true) :
    daysBeforeMonth date.year date.month + (date.day - 1) < daysInYear date.year := by
  obtain ⟨started, short, -, -⟩ := Date.ok_iff.mp ok
  have month := day_within_month ok
  have rest := daysBeforeMonth_mono date.year (by omega : 1 ≤ date.month + 1)
    (by omega : date.month + 1 ≤ 13)
  have whole : daysBeforeMonth date.year 13 = daysBeforeMonth date.year 12 + 31 :=
    daysBeforeMonth_succ date.year (by decide)
  have last := daysBeforeMonth_twelve date.year
  omega

theorem year_le_of_sysDays {date other : Date} (ok : other.ok = true)
    (start : 1970 ≤ other.year) (same : sysDays date = sysDays other) :
    date.year ≤ other.year := by
  by_contra late
  have mono := daysBeforeYear_mono (by omega : 1970 ≤ other.year + 1)
    (by omega : other.year + 1 ≤ date.year)
  have next := daysBeforeYear_succ start
  have within_year := day_within_year ok
  unfold sysDays at same
  omega

theorem month_le_of_sysDays {date other : Date} (ok : other.ok = true)
    (year : date.year = other.year) (same : sysDays date = sysDays other) :
    date.month ≤ other.month := by
  by_contra late
  have mono := daysBeforeMonth_mono other.year (by omega : 1 ≤ other.month + 1)
    (by omega : other.month + 1 ≤ date.month)
  have within_month := day_within_month ok
  unfold sysDays at same
  rw [year] at same
  omega

/-- Two dates of one day are the same. -/
theorem sysDays_inj {date other : Date} (ok : date.ok = true) (start : 1970 ≤ date.year)
    (other_ok : other.ok = true) (other_start : 1970 ≤ other.year)
    (same : sysDays date = sysDays other) : date = other := by
  have year : date.year = other.year :=
    le_antisymm (year_le_of_sysDays other_ok other_start same)
      (year_le_of_sysDays ok start same.symm)
  have month : date.month = other.month :=
    le_antisymm (month_le_of_sysDays other_ok year same)
      (month_le_of_sysDays ok year.symm same.symm)
  have first := (Date.ok_iff.mp ok).2.2.1
  have other_first := (Date.ok_iff.mp other_ok).2.2.1
  have day : date.day = other.day := by
    unfold sysDays at same
    rw [year, month] at same
    omega
  cases date
  cases other
  simp only at year month day
  rw [year, month, day]

theorem dateOf_sysDays {date : Date} (ok : date.ok = true) (start : 1970 ≤ date.year) :
    dateOf (sysDays date) = date := by
  obtain ⟨whole, found, later⟩ := sysDays_dateOf (sysDays date)
  exact sysDays_inj found later ok start whole

theorem sysDays_le_lastDay {date : Date} (ok : date.ok = true) (start : 1970 ≤ date.year)
    (bounded : date.year ≤ 9999) : sysDays date ≤ lastDay := by
  have mono := daysBeforeYear_mono start bounded
  have within_year := day_within_year ok
  have next := daysBeforeYear_succ start
  have end_of : daysBeforeYear 10000 = 2932897 := by decide
  have later := daysBeforeYear_mono (by omega : 1970 ≤ date.year + 1)
    (by omega : date.year + 1 ≤ 10000)
  rw [lastDay_eq]
  unfold sysDays
  omega

/-- The day after. -/
def Date.next (date : Date) : Date :=
  if date.day < daysInMonth date.year date.month then { date with day := date.day + 1 }
  else if date.month < 12 then { year := date.year, month := date.month + 1, day := 1 }
  else { year := date.year + 1, month := 1, day := 1 }

theorem daysInMonth_pos (year month : Nat) : 1 ≤ daysInMonth year month := by
  unfold daysInMonth
  split <;> (try split) <;> omega

theorem Date.next_ok {date : Date} (ok : date.ok = true) : date.next.ok = true := by
  obtain ⟨started, short, first, last⟩ := Date.ok_iff.mp ok
  rw [Date.ok_iff]
  unfold Date.next
  split
  · simp only
    omega
  · split
    · have positive := daysInMonth_pos date.year (date.month + 1)
      simp only
      omega
    · have positive := daysInMonth_pos (date.year + 1) 1
      simp only
      omega

theorem sysDays_next {date : Date} (ok : date.ok = true) (start : 1970 ≤ date.year) :
    sysDays date.next = sysDays date + 1 := by
  obtain ⟨started, short, first, last⟩ := Date.ok_iff.mp ok
  unfold Date.next
  split
  · unfold sysDays
    simp only
    omega
  · split
    · have next := daysBeforeMonth_succ date.year started
      unfold sysDays
      simp only
      omega
    · have december : date.month = 12 := by omega
      have month : daysInMonth date.year 12 = 31 := rfl
      have january : daysBeforeMonth (date.year + 1) 1 = 0 := rfl
      have whole := daysBeforeMonth_twelve date.year
      have next := daysBeforeYear_succ start
      rw [december, month] at last
      rename_i ended _
      rw [december, month] at ended
      unfold sysDays
      simp only [december, january]
      omega

/-- The dates of the days run through the calendar one by one from 1970-01-01. -/
theorem dateOf_succ (days : Nat) : dateOf (days + 1) = (dateOf days).next := by
  obtain ⟨whole, ok, start⟩ := sysDays_dateOf days
  have later : 1970 ≤ (dateOf days).next.year := by
    unfold Date.next
    split
    · exact start
    · split
      · exact start
      · exact Nat.le_succ_of_le start
  have day : sysDays (dateOf days).next = days + 1 := by rw [sysDays_next ok start, whole]
  rw [← day]
  exact dateOf_sysDays (Date.next_ok ok) later

example : dateOf 0 = { year := 1970, month := 1, day := 1 } := by decide

/-! ## A text that is accepted -/

theorem unsigned_eq_some {text : Text} {maximum n : Nat} (read : unsigned text maximum = some n) :
    padded text.length n = text ∧ n ≤ maximum := by
  obtain ⟨number, bounded⟩ := Option.filter_eq_some_iff.mp read
  obtain ⟨filled, digits, value, -⟩ := fromChars_eq_some number
  exact ⟨value ▸ padded_digitsValue filled digits, of_decide_eq_true bounded⟩

/-- The calendar and the clock of an accepted text. -/
structure Reading (text : Text) (time : Int) where
  date : Date
  hour : Nat
  minute : Nat
  second : Nat
  ok : date.ok = true
  start : 1970 ≤ date.year
  years : date.year ≤ 9999
  hours : hour ≤ 23
  minutes : minute ≤ 59
  seconds : second ≤ 59
  text_eq : text = padded 4 date.year ++ '-' :: padded 2 date.month ++ '-' :: padded 2 date.day ++
    'T' :: padded 2 hour ++ ':' :: padded 2 minute ++ ':' :: padded 2 second ++ ['Z']
  time_eq : time = sysDays date * secondsPerDay + hour * 3600 + minute * 60 + second

theorem text_of_shape {text : Text} (length : text.length = 20) (dash : text[4]? = some '-')
    (dash' : text[7]? = some '-') (letter : text[10]? = some 'T') (colon : text[13]? = some ':')
    (colon' : text[16]? = some ':') (zulu : text[19]? = some 'Z') :
    ∃ y₁ y₂ y₃ y₄ m₁ m₂ d₁ d₂ h₁ h₂ i₁ i₂ s₁ s₂, text = [y₁, y₂, y₃, y₄, '-', m₁, m₂, '-',
      d₁, d₂, 'T', h₁, h₂, ':', i₁, i₂, ':', s₁, s₂, 'Z'] := by
  match text, length with
  | [y₁, y₂, y₃, y₄, c₁, m₁, m₂, c₂, d₁, d₂, c₃, h₁, h₂, c₄, i₁, i₂, c₅, s₁, s₂, c₆], _ =>
      simp only [List.getElem?_cons_succ, List.getElem?_cons_zero, Option.some.injEq] at *
      subst dash dash' letter colon colon' zulu
      exact ⟨y₁, y₂, y₃, y₄, m₁, m₂, d₁, d₂, h₁, h₂, i₁, i₂, s₁, s₂, rfl⟩

/-- What `ParseUtc` accepts is the padded fields of a date and a clock. -/
theorem reading_of_parse {text : Text} {time : Int} (accepted : parse text = .ok time) :
    Nonempty (Reading text time) := by
  unfold parse at accepted
  split at accepted
  · cases accepted
  · rename_i shape
    simp only [not_or, not_not] at shape
    obtain ⟨length, dash, dash', letter, colon, colon', zulu⟩ := shape
    obtain ⟨y₁, y₂, y₃, y₄, m₁, m₂, d₁, d₂, h₁, h₂, i₁, i₂, s₁, s₂, rfl⟩ :=
      text_of_shape length dash dash' letter colon colon' zulu
    split at accepted
    · rename_i year month day hour minute second year_read month_read day_read hour_read
        minute_read second_read
      split at accepted
      · cases accepted
      · rename_i start
        simp only at accepted
        split at accepted
        · cases accepted
        · rename_i calendar
          injection accepted with time_eq
          have years := unsigned_eq_some year_read
          have months := unsigned_eq_some month_read
          have days := unsigned_eq_some day_read
          have hours := unsigned_eq_some hour_read
          have minutes := unsigned_eq_some minute_read
          have seconds := unsigned_eq_some second_read
          simp only [List.drop_succ_cons, List.drop_zero, List.take_succ_cons, List.take_zero,
            List.length_cons, List.length_nil, Nat.zero_add, Nat.reduceAdd]
            at years months days hours minutes seconds
          have ok : Date.ok { year, month, day } = true := by simpa using calendar
          refine ⟨⟨{ year, month, day }, hour, minute, second, ok, not_lt.mp start, years.2,
            hours.2, minutes.2, seconds.2, ?_, time_eq.symm⟩⟩
          simp only [years.1, months.1, days.1, hours.1, minutes.1, seconds.1]
          rfl
    · cases accepted

theorem Reading.format {text : Text} {time : Int} (reading : Reading text time) :
    0 ≤ time ∧ time ≤ lastSecond ∧ Utc.format time = .ok text := by
  obtain ⟨date, hour, minute, second, ok, start, years, hours, minutes, seconds, text_eq, time_eq⟩ :=
    reading
  have bounded := sysDays_le_lastDay ok start years
  have per : (secondsPerDay : Int) = 86400 := rfl
  rw [per] at time_eq
  have day : time / secondsPerDay = sysDays date := by
    rw [per]
    omega
  have clock : (time - time / secondsPerDay * secondsPerDay).toNat =
      hour * 3600 + minute * 60 + second := by
    rw [day, per]
    omega
  have last := lastDay_eq
  refine ⟨by omega, by unfold lastSecond; omega, ?_⟩
  unfold Utc.format
  simp only
  rw [clock, day, if_neg (by omega), Int.toNat_natCast, dateOf_sysDays ok start, text_eq]
  have hour_eq : (hour * 3600 + minute * 60 + second) / 3600 = hour := by omega
  have minute_eq : (hour * 3600 + minute * 60 + second) / 60 % 60 = minute := by omega
  have second_eq : (hour * 3600 + minute * 60 + second) % 60 = second := by omega
  rw [hour_eq, minute_eq, second_eq]

/-- `Utc` writes every second from 1970 to 9999. -/
theorem format_total {time : Int} (first : 0 ≤ time) (last : time ≤ lastSecond) :
    ∃ text, format time = .ok text := by
  have per : (secondsPerDay : Int) = 86400 := rfl
  have day : ¬(time / secondsPerDay < 0 ∨ lastDay < time / secondsPerDay) := by
    rw [per, lastDay_eq]
    unfold lastSecond at last
    omega
  unfold format
  simp only
  rw [if_neg day]
  exact ⟨_, rfl⟩

/-- `ParseUtc` accepts exactly what `Utc` writes. -/
theorem accepts_iff_written :
    (∀ time : Int, 0 ≤ time → time ≤ lastSecond →
      ∃ text, format time = .ok text ∧ parse text = .ok time) ∧
    (∀ (text : Text) (time : Int), parse text = .ok time ↔
      0 ≤ time ∧ time ≤ lastSecond ∧ format time = .ok text) ∧
    (∀ (text : Text) (time : Int), parse text = .ok time → Nonempty (Reading text time)) ∧
    ∀ (text other : Text) (time : Int), parse text = .ok time → parse other = .ok time →
      text = other := by
  have exact_text : ∀ (text : Text) (time : Int), parse text = .ok time ↔
      0 ≤ time ∧ time ≤ lastSecond ∧ format time = .ok text := by
    intro text time
    constructor
    · intro accepted
      obtain ⟨reading⟩ := reading_of_parse accepted
      exact reading.format
    · intro written
      exact parse_format written.2.2
  refine ⟨?_, exact_text, fun text time accepted => reading_of_parse accepted, ?_⟩
  · intro time first last
    obtain ⟨text, written⟩ := format_total first last
    exact ⟨text, written, parse_format written⟩
  · intro text other time read read'
    have written := ((exact_text text time).mp read).2.2
    have written' := ((exact_text other time).mp read').2.2
    exact Except.ok.inj (written.symm.trans written')

end Source2Root.Utc
