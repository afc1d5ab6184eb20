import Source2Root.Settings

/-!
# What the core settings take

Each update against the values that a field takes, the lines of the file against
their grammar, and the settings that any order of updates reaches.
-/

set_option autoImplicit false

namespace Source2Root.Settings

/-! ## Values and fields -/

def Allowed (text : Text) : Prop := text.length ≤ 8 ∧ ∀ c ∈ text, forbidden c = false

/-- The values a field takes. -/
def Field.Takes : Field → Text → Prop
  | .activity, value => ∃ n, fromCharsInt value = some n ∧ 0 ≤ n ∧ n ≤ 15
  | .publicTrigger, value => Allowed value
  | .silentTrigger, value => Allowed value
  | .debug, value => ∃ n, fromCharsInt value = some n ∧ 0 ≤ n ∧ n ≤ 1

/-- A field is what the value says. -/
def CoreSettings.Holds (settings : CoreSettings) : Field → Text → Prop
  | .activity, value => fromCharsInt value = some settings.activity
  | .publicTrigger, value => settings.publicTrigger = value
  | .silentTrigger, value => settings.silentTrigger = value
  | .debug, value => fromCharsInt value = some settings.debug

def CoreSettings.Same (settings other : CoreSettings) : Field → Prop
  | .activity => settings.activity = other.activity
  | .publicTrigger => settings.publicTrigger = other.publicTrigger
  | .silentTrigger => settings.silentTrigger = other.silentTrigger
  | .debug => settings.debug = other.debug

def CoreSettings.InRange (settings : CoreSettings) : Field → Prop
  | .activity => 0 ≤ settings.activity ∧ settings.activity ≤ 15
  | .publicTrigger => Allowed settings.publicTrigger
  | .silentTrigger => Allowed settings.silentTrigger
  | .debug => 0 ≤ settings.debug ∧ settings.debug ≤ 1

/-- The triggers differ unless both are empty. -/
def CoreSettings.Differ (settings : CoreSettings) : Prop :=
  settings.publicTrigger = settings.silentTrigger → settings.publicTrigger = []

structure CoreSettings.Valid (settings : CoreSettings) : Prop where
  inRange : ∀ field, settings.InRange field
  differ : settings.Differ

theorem CoreSettings.valid_default : ({} : CoreSettings).Valid := by
  refine ⟨?_, by unfold CoreSettings.Differ; decide⟩
  intro field
  cases field <;> simp [CoreSettings.InRange, Allowed, forbidden]

theorem CoreSettings.same_refl (settings : CoreSettings) (field : Field) :
    settings.Same settings field := by
  cases field <;> rfl

theorem CoreSettings.Same.symm {settings other : CoreSettings} {field : Field}
    (same : settings.Same other field) : other.Same settings field := by
  cases field <;> exact Eq.symm same

theorem CoreSettings.Same.trans {settings middle other : CoreSettings} {field : Field}
    (first : settings.Same middle field) (second : middle.Same other field) :
    settings.Same other field := by
  cases field <;> exact Eq.trans first second

theorem CoreSettings.eq_of_same {settings other : CoreSettings}
    (same : ∀ field, settings.Same other field) : settings = other := by
  obtain ⟨activity, debug, publicTrigger, silentTrigger⟩ := settings
  have first : activity = other.activity := same .activity
  have second : publicTrigger = other.publicTrigger := same .publicTrigger
  have third : silentTrigger = other.silentTrigger := same .silentTrigger
  have fourth : debug = other.debug := same .debug
  rw [first, second, third, fourth]

theorem CoreSettings.Holds.same {settings other : CoreSettings} {field : Field} {value : Text}
    (first : settings.Holds field value) (second : other.Holds field value) :
    settings.Same other field := by
  cases field with
  | activity => exact Option.some.inj (Eq.trans (Eq.symm first) second)
  | publicTrigger => exact Eq.trans first (Eq.symm second)
  | silentTrigger => exact Eq.trans first (Eq.symm second)
  | debug => exact Option.some.inj (Eq.trans (Eq.symm first) second)

theorem CoreSettings.Same.holds {settings other : CoreSettings} {field : Field} {value : Text}
    (same : settings.Same other field) (holds : other.Holds field value) :
    settings.Holds field value := by
  cases field with
  | activity => exact Eq.trans holds (congrArg some (Eq.symm same))
  | publicTrigger => exact Eq.trans same holds
  | silentTrigger => exact Eq.trans same holds
  | debug => exact Eq.trans holds (congrArg some (Eq.symm same))

theorem CoreSettings.Same.inRange {settings other : CoreSettings} {field : Field}
    (same : settings.Same other field) (inRange : other.InRange field) :
    settings.InRange field := by
  cases field <;> simp only [CoreSettings.Same] at same <;>
    simpa only [CoreSettings.InRange, same] using inRange

theorem CoreSettings.Holds.takes_iff {settings : CoreSettings} {field : Field} {value : Text}
    (holds : settings.Holds field value) : field.Takes value ↔ settings.InRange field := by
  cases field with
  | publicTrigger => exact Iff.of_eq (congrArg Allowed (Eq.symm holds))
  | silentTrigger => exact Iff.of_eq (congrArg Allowed (Eq.symm holds))
  | activity =>
      constructor
      · rintro ⟨n, is, range⟩
        obtain rfl := Option.some.inj (is.symm.trans holds)
        exact range
      · intro range
        exact ⟨_, holds, range⟩
  | debug =>
      constructor
      · rintro ⟨n, is, range⟩
        obtain rfl := Option.some.inj (is.symm.trans holds)
        exact range
      · intro range
        exact ⟨_, holds, range⟩

/-! ## One field -/

theorem Field.named_eq_some {name : Text} {field : Field} :
    Field.named name = some field ↔ field.name = name := by
  unfold Field.named Field.all
  constructor
  · intro found
    have is := List.find?_some found
    exact beq_iff_eq.mp is
  · rintro rfl
    cases field <;> decide

theorem trigger_eq_ok {value text : Text} :
    trigger value = .ok text ↔ text = value ∧ Allowed value := by
  unfold trigger Allowed
  by_cases long : value.length > 8
  · rw [if_pos long]
    constructor
    · intro is
      cases is
    · rintro ⟨-, short, -⟩
      omega
  · rw [if_neg long]
    by_cases bad : value.any forbidden = true
    · rw [if_pos bad]
      obtain ⟨c, within, wrong⟩ := List.any_eq_true.mp bad
      constructor
      · intro is
        cases is
      · rintro ⟨-, -, clean⟩
        rw [clean c within] at wrong
        cases wrong
    · rw [if_neg bad]
      have clean : ∀ c ∈ value, forbidden c = false := by
        simpa [List.any_eq_true] using bad
      constructor
      · intro is
        cases is
        exact ⟨rfl, by omega, clean⟩
      · rintro ⟨rfl, -⟩
        rfl

theorem number_eq_ok {field : Field} {maximum n : Int} {value : Text} :
    number field maximum value = .ok n ↔ fromCharsInt value = some n ∧ 0 ≤ n ∧ n ≤ maximum := by
  unfold number
  cases fromCharsInt value with
  | none => simp
  | some m =>
      simp only [Option.some.injEq]
      split
      · rename_i outside
        constructor
        · intro is
          cases is
        · rintro ⟨rfl, low, high⟩
          omega
      · rename_i inside
        rw [not_or, not_lt, not_lt] at inside
        constructor
        · intro is
          cases is
          exact ⟨rfl, inside⟩
        · rintro ⟨rfl, -⟩
          rfl

theorem CoreSettings.setField_does {settings next : CoreSettings} {name value : Text}
    (does : settings.setField name value = .ok next) :
    ∃ field, field.name = name ∧ field.Takes value ∧ next.Holds field value ∧
      ∀ other, other ≠ field → next.Same settings other := by
  unfold CoreSettings.setField at does
  cases found : Field.named name with
  | none =>
      rw [found] at does
      cases does
  | some field =>
      rw [found] at does
      refine ⟨field, Field.named_eq_some.mp found, ?_⟩
      cases field with
      | activity =>
          obtain ⟨n, is, done⟩ := bind_eq_ok.mp does
          cases done
          obtain ⟨read, range⟩ := number_eq_ok.mp is
          refine ⟨⟨n, read, range⟩, read, ?_⟩
          intro other different
          cases other <;> first | exact absurd rfl different | rfl
      | publicTrigger =>
          obtain ⟨text, is, done⟩ := bind_eq_ok.mp does
          cases done
          obtain ⟨rfl, allowed⟩ := trigger_eq_ok.mp is
          refine ⟨allowed, rfl, ?_⟩
          intro other different
          cases other <;> first | exact absurd rfl different | rfl
      | silentTrigger =>
          obtain ⟨text, is, done⟩ := bind_eq_ok.mp does
          cases done
          obtain ⟨rfl, allowed⟩ := trigger_eq_ok.mp is
          refine ⟨allowed, rfl, ?_⟩
          intro other different
          cases other <;> first | exact absurd rfl different | rfl
      | debug =>
          obtain ⟨n, is, done⟩ := bind_eq_ok.mp does
          cases done
          obtain ⟨read, range⟩ := number_eq_ok.mp is
          refine ⟨⟨n, read, range⟩, read, ?_⟩
          intro other different
          cases other <;> first | exact absurd rfl different | rfl

theorem CoreSettings.setField_takes (settings : CoreSettings) {field : Field} {value : Text}
    (takes : field.Takes value) : ∃ next, settings.setField field.name value = .ok next := by
  unfold CoreSettings.setField
  rw [Field.named_eq_some.mpr rfl]
  cases field with
  | activity =>
      obtain ⟨n, read⟩ := takes
      exact ⟨_, bind_eq_ok.mpr ⟨n, number_eq_ok.mpr read, rfl⟩⟩
  | publicTrigger => exact ⟨_, bind_eq_ok.mpr ⟨value, trigger_eq_ok.mpr ⟨rfl, takes⟩, rfl⟩⟩
  | silentTrigger => exact ⟨_, bind_eq_ok.mpr ⟨value, trigger_eq_ok.mpr ⟨rfl, takes⟩, rfl⟩⟩
  | debug =>
      obtain ⟨n, read⟩ := takes
      exact ⟨_, bind_eq_ok.mpr ⟨n, number_eq_ok.mpr read, rfl⟩⟩

/-- What the values of a list make of a field: the last of them stands. -/
def lastValue (field : Field) : List (Text × Text) → Option Text
  | [] => none
  | (name, value) :: rest =>
      match lastValue field rest with
      | some later => some later
      | none => if field.name = name then some value else none

/-- The field is what was requested last, or as it was. -/
def CoreSettings.Requested (settings : CoreSettings) (requests : List (Text × Text))
    (next : CoreSettings) (field : Field) : Prop :=
  match lastValue field requests with
  | some value => next.Holds field value
  | none => next.Same settings field

/-- Each value is one that its field takes. -/
def Takable (requests : List (Text × Text)) : Prop :=
  ∀ request ∈ requests, ∃ field : Field, field.name = request.1 ∧ field.Takes request.2

theorem CoreSettings.requested_unique {settings next other : CoreSettings}
    {requests : List (Text × Text)} (first : ∀ field, settings.Requested requests next field)
    (second : ∀ field, settings.Requested requests other field) : next = other := by
  refine CoreSettings.eq_of_same ?_
  intro field
  have one := first field
  have two := second field
  unfold CoreSettings.Requested at one two
  cases last : lastValue field requests with
  | none =>
      rw [last] at one two
      exact one.trans two.symm
  | some value =>
      rw [last] at one two
      exact one.same two

theorem Field.name_inj {field other : Field} (same : field.name = other.name) : field = other :=
  Option.some.inj ((Field.named_eq_some.mpr same).symm.trans (Field.named_eq_some.mpr rfl))

theorem Field.name_eq_iff {field other : Field} : field.name = other.name ↔ field = other :=
  ⟨Field.name_inj, congrArg Field.name⟩

theorem CoreSettings.requested_cons {settings middle next : CoreSettings} {field : Field}
    {value : Text} {rest : List (Text × Text)} (holds : middle.Holds field value)
    (kept : ∀ other, other ≠ field → middle.Same settings other)
    (later : ∀ other, middle.Requested rest next other) (other : Field) :
    settings.Requested ((field.name, value) :: rest) next other := by
  have here := later other
  unfold CoreSettings.Requested at here ⊢
  rw [lastValue]
  cases last : lastValue other rest with
  | some latest =>
      rw [last] at here
      exact here
  | none =>
      rw [last] at here
      by_cases is : other = field
      · subst is
        simp only [if_true]
        exact here.holds holds
      · have different : other.name ≠ field.name := fun same => is (Field.name_inj same)
        simp only [if_neg different]
        exact here.trans (kept other is)

theorem CoreSettings.setFields_does {requests : List (Text × Text)} :
    ∀ {settings next : CoreSettings}, settings.setFields requests = .ok next →
      Takable requests ∧ ∀ field, settings.Requested requests next field := by
  induction requests with
  | nil =>
      intro settings next does
      cases does
      exact ⟨by simp [Takable], settings.same_refl⟩
  | cons request rest ih =>
      intro settings next does
      obtain ⟨middle, first, does⟩ := bind_eq_ok.mp does
      obtain ⟨taken, later⟩ := ih does
      obtain ⟨field, named, takes, holds, kept⟩ := CoreSettings.setField_does first
      refine ⟨List.forall_mem_cons.mpr ⟨⟨field, named, takes⟩, taken⟩, ?_⟩
      have result := CoreSettings.requested_cons holds kept later
      rw [named] at result
      exact result

theorem CoreSettings.setFields_takes {requests : List (Text × Text)} (takable : Takable requests) :
    ∀ settings : CoreSettings, ∃ next, settings.setFields requests = .ok next := by
  induction requests with
  | nil => exact fun settings => ⟨settings, rfl⟩
  | cons request rest ih =>
      intro settings
      obtain ⟨⟨field, named, takes⟩, later⟩ := List.forall_mem_cons.mp takable
      obtain ⟨middle, first⟩ := settings.setField_takes takes
      rw [named] at first
      obtain ⟨next, does⟩ := ih later middle
      exact ⟨next, bind_eq_ok.mpr ⟨middle, first, does⟩⟩

/-- One value after the other: each is taken, and each field is what was requested
last. -/
theorem CoreSettings.setFields_eq_ok {requests : List (Text × Text)}
    {settings next : CoreSettings} : settings.setFields requests = .ok next ↔
      Takable requests ∧ ∀ field, settings.Requested requests next field := by
  refine ⟨CoreSettings.setFields_does, ?_⟩
  rintro ⟨takable, requested⟩
  obtain ⟨found, does⟩ := CoreSettings.setFields_takes takable settings
  rw [does, CoreSettings.requested_unique requested (CoreSettings.setFields_does does).2]

theorem CoreSettings.validate_eq_ok {settings : CoreSettings} :
    settings.validate = .ok () ↔ settings.Differ := by
  unfold CoreSettings.validate CoreSettings.Differ
  split
  · rename_i same
    constructor
    · intro is
      cases is
    · intro empty
      exact absurd (empty same.2) same.1
  · rename_i fine
    refine ⟨fun _ same => ?_, fun _ => rfl⟩
    by_contra filled
    exact fine ⟨filled, same⟩

/-- An update: every value requested is taken, and what comes of it has two
triggers. -/
structure CoreSettings.Updated (settings : CoreSettings) (requests : List (Text × Text))
    (next : CoreSettings) : Prop where
  takable : Takable requests
  requested : ∀ field, settings.Requested requests next field
  differ : next.Differ

theorem lastValue_takes {requests : List (Text × Text)} {field : Field} {value : Text}
    (takable : Takable requests) (last : lastValue field requests = some value) :
    field.Takes value := by
  induction requests with
  | nil => cases last
  | cons request rest ih =>
      obtain ⟨⟨named, is, takes⟩, later⟩ := List.forall_mem_cons.mp takable
      rw [lastValue] at last
      cases found : lastValue field rest with
      | some latest =>
          rw [found] at last
          cases last
          exact ih later found
      | none =>
          rw [found] at last
          simp only [Option.ite_none_right_eq_some, Option.some.injEq] at last
          obtain ⟨same, rfl⟩ := last
          rw [Field.name_inj (same.trans is.symm)]
          exact takes

theorem CoreSettings.Updated.valid {settings next : CoreSettings} {requests : List (Text × Text)}
    (valid : settings.Valid) (updated : settings.Updated requests next) : next.Valid := by
  refine ⟨?_, updated.differ⟩
  intro field
  have requested := updated.requested field
  unfold CoreSettings.Requested at requested
  cases last : lastValue field requests with
  | none =>
      rw [last] at requested
      exact requested.inRange (valid.inRange field)
  | some value =>
      rw [last] at requested
      exact requested.takes_iff.mp (lastValue_takes updated.takable last)

theorem CoreSettings.update_eq_ok {settings next : CoreSettings} {requests : List (Text × Text)} :
    (settings.setFields requests >>= fun candidate =>
        candidate.validate >>= fun _ => Except.ok candidate) = .ok next ↔
      settings.Updated requests next := by
  constructor
  · intro does
    obtain ⟨candidate, written, does⟩ := bind_eq_ok.mp does
    obtain ⟨_, fine, does⟩ := bind_eq_ok.mp does
    cases does
    obtain ⟨takable, requested⟩ := CoreSettings.setFields_eq_ok.mp written
    exact ⟨takable, requested, CoreSettings.validate_eq_ok.mp fine⟩
  · rintro ⟨takable, requested, differ⟩
    exact bind_eq_ok.mpr ⟨next, CoreSettings.setFields_eq_ok.mpr ⟨takable, requested⟩,
      bind_eq_ok.mpr ⟨(), CoreSettings.validate_eq_ok.mpr differ, rfl⟩⟩

theorem CoreSettings.set_eq_ok {settings next : CoreSettings} {name value : Text} :
    settings.set name value = .ok next ↔ settings.Updated [(name, value)] next := by
  rw [← CoreSettings.update_eq_ok]
  unfold CoreSettings.set
  cases written : settings.setField name value <;> simp [CoreSettings.setFields, written] <;> rfl

theorem CoreSettings.setAll_eq_updated {settings next : CoreSettings} {values : Field → Text} :
    settings.setAll values = .ok next ↔
      settings.Updated (Field.all.map fun field => (field.name, values field)) next :=
  CoreSettings.update_eq_ok

theorem lastValue_fields (values : Field → Text) (field : Field) (fields : List Field) :
    lastValue field (fields.map fun field => (field.name, values field)) =
      if field ∈ fields then some (values field) else none := by
  induction fields with
  | nil => rfl
  | cons other rest ih =>
      rw [List.map_cons, lastValue, ih]
      by_cases later : field ∈ rest
      · rw [if_pos later, if_pos (List.mem_cons_of_mem _ later)]
      · rw [if_neg later]
        by_cases here : field = other
        · subst here
          simp
        · simp [Field.name_eq_iff, here, later]

theorem lastValue_all (values : Field → Text) (field : Field) :
    lastValue field (Field.all.map fun field => (field.name, values field)) =
      some (values field) := by
  rw [lastValue_fields]
  cases field <;> rfl

/-- All four at once: what comes of it only has to be valid as a whole. -/
theorem CoreSettings.setAll_eq_ok {settings next : CoreSettings} {values : Field → Text} :
    settings.setAll values = .ok next ↔
      (∀ field, next.Holds field (values field)) ∧ next.Valid := by
  have requested : (∀ field, settings.Requested
        (Field.all.map fun field => (field.name, values field)) next field) ↔
      ∀ field, next.Holds field (values field) := by
    refine forall_congr' ?_
    intro field
    rw [CoreSettings.Requested, lastValue_all]
  rw [CoreSettings.setAll_eq_updated]
  constructor
  · rintro ⟨takable, is, differ⟩
    have holds := requested.mp is
    refine ⟨holds, ?_, differ⟩
    intro field
    exact (holds field).takes_iff.mp (lastValue_takes takable (lastValue_all values field))
  · rintro ⟨holds, valid⟩
    refine ⟨?_, requested.mpr holds, valid.differ⟩
    intro request within
    obtain ⟨field, -, rfl⟩ := List.mem_map.mp within
    exact ⟨field, rfl, (holds field).takes_iff.mpr (valid.inRange field)⟩

/-! ## The grammar of a line -/

/-- The bytes of a word, before what follows them.  A comment may begin inside
quotes only. -/
def Worded (quoted : Bool) : Text → Text → Prop
  | [], _ => True
  | c :: rest, next =>
      (c ≠ ';' ∧ 32 ≤ c.toNat ∧ c ≠ '"') ∧
        (quoted = false → blank c = false ∧ comment (c :: (rest ++ next)) = false) ∧
        Worded quoted rest next

/-- The end of a word, and what is left behind it. -/
def Stops (quoted : Bool) (next left : Text) : Prop :=
  if quoted then next = '"' :: left else left = next ∧ spaced next = true

/-- A line and its words. -/
inductive Lined : Text → List Text → Prop
  | nil : Lined [] []
  | blank {c : Char} {text : Text} {words : List Text} :
      blank c = true → Lined text words → Lined (c :: text) words
  | comment (text : Text) : Lined ('/' :: '/' :: text) []
  | quoted {word text : Text} {words : List Text} :
      Worded true word ('"' :: text) → spaced text = true → Lined text words →
        Lined ('"' :: word ++ '"' :: text) (word :: words)
  | bare {word text : Text} {words : List Text} :
      word ≠ [] → Worded false word text → spaced text = true → Lined text words →
        Lined (word ++ text) (word :: words)

theorem scan_of_worded {quoted : Bool} (rest : Text) : ∀ {word next left : Text},
    Worded quoted rest next → Stops quoted next left →
      scan quoted word (rest ++ next) = .ok (word ++ rest, left) := by
  induction rest with
  | nil =>
      intro word next left _ stops
      rw [List.append_nil]
      cases quoted with
      | true =>
          obtain rfl : next = '"' :: left := stops
          rfl
      | false =>
          obtain ⟨rfl, ends⟩ : left = next ∧ spaced next = true := stops
          cases left with
          | nil => rfl
          | cons c rest =>
              rw [List.nil_append, scan.eq_def]
              rw [spaced] at ends
              simp [ends]
  | cons c rest ih =>
      intro word next left worded stops
      obtain ⟨⟨noSemicolon, printable, noQuote⟩, goesOn, worded⟩ := worded
      have inside : (!quoted && (blank c || comment (c :: (rest ++ next)))) = false := by
        cases quoted with
        | true => rfl
        | false => simp [goesOn rfl]
      have noClosing : (c == '"') = false := beq_false_of_ne noQuote
      have fine : (c == ';' || decide (c.toNat < 32)) = false := by
        simp only [Bool.or_eq_false_iff, beq_eq_false_iff_ne, decide_eq_false_iff_not, not_lt]
        exact ⟨noSemicolon, printable⟩
      rw [List.cons_append, scan.eq_def]
      simp only [noClosing, Bool.and_false, Bool.or_false, Bool.false_eq_true, if_false, inside,
        fine]
      rw [ih worded stops, List.append_assoc]
      rfl

theorem worded_of_scan {quoted : Bool} {word text out left : Text}
    (scanned : scan quoted word text = .ok (out, left)) :
    ∃ rest next, text = rest ++ next ∧ Worded quoted rest next ∧ Stops quoted next left ∧
      out = word ++ rest := by
  fun_induction scan quoted word text with
  | case1 word isQuoted => cases scanned
  | case2 word bare =>
      cases scanned
      rw [Bool.not_eq_true] at bare
      subst bare
      exact ⟨[], [], rfl, trivial, ⟨rfl, rfl⟩, (List.append_nil _).symm⟩
  | case3 word c rest closing =>
      cases scanned
      rw [Bool.and_eq_true, beq_iff_eq] at closing
      obtain ⟨rfl, rfl⟩ := closing
      exact ⟨[], _, rfl, trivial, rfl, (List.append_nil _).symm⟩
  | case4 word c rest noClosing ends =>
      cases scanned
      rw [Bool.and_eq_true, Bool.not_eq_true'] at ends
      obtain ⟨rfl, ends⟩ := ends
      exact ⟨[], c :: rest, rfl, trivial, ⟨rfl, ends⟩, (List.append_nil _).symm⟩
  | case5 word c rest noClosing goesOn bad => cases scanned
  | case6 word c rest noClosing goesOn good ih =>
      obtain ⟨later, next, rfl, worded, stops, rfl⟩ := ih scanned
      simp only [Bool.or_eq_true, beq_iff_eq, decide_eq_true_eq, not_or, not_lt] at good
      refine ⟨c :: later, next, rfl, ⟨⟨good.1.1, good.1.2, good.2⟩, ?_, worded⟩, stops, by simp⟩
      rintro rfl
      simpa using goesOn

/-- One turn of the outer loop that reads a word. -/
theorem words_word {found : List Text} {c : Char} {rest word left : Text}
    (noBlank : blank c = false) (noComment : comment (c :: rest) = false)
    (room : found.length < 2)
    (scanned : scan (c == '"') [] (if c = '"' then rest else c :: rest) = .ok (word, left))
    (ends : c = '"' → spaced left = true) :
    words found (c :: rest) = words (found ++ [word]) left := by
  have spacing : (c == '"' && !spaced left) = false := by
    by_cases quote : c = '"'
    · rw [ends quote, Bool.not_true, Bool.and_false]
    · rw [beq_false_of_ne quote, Bool.false_and]
  rw [words.eq_def]
  simp only [noBlank, noComment, Bool.false_eq_true, if_false]
  split
  · rename_i failure failed
    rw [scanned] at failed
    cases failed
  · rename_i token after is
    rw [scanned] at is
    cases is
    simp only [spacing, Bool.false_eq_true, if_false]
    rw [if_neg (by omega)]

theorem words_of_lined {text : Text} {listed : List Text} (lined : Lined text listed) :
    ∀ {found : List Text}, found.length + listed.length ≤ 2 →
      words found text = .ok (found ++ listed) := by
  induction lined with
  | nil =>
      intro found _
      rw [words.eq_def, List.append_nil]
  | blank isBlank _ ih =>
      intro found few
      rw [words.eq_def]
      simp only [isBlank, if_true]
      exact ih few
  | comment text =>
      intro found _
      rw [words.eq_def, List.append_nil]
      rfl
  | @quoted word text listed worded ends _ ih =>
      intro found few
      rw [List.length_cons] at few
      have scanned : scan true [] (word ++ '"' :: text) = .ok ([] ++ word, text) :=
        scan_of_worded word worded rfl
      have turn : words found ('"' :: (word ++ '"' :: text)) = words (found ++ [word]) text :=
        words_word (by decide) rfl (by omega) scanned (fun _ => ends)
      rw [List.cons_append, turn,
        ih (by rw [List.length_append, List.length_singleton]; omega), List.append_assoc]
      rfl
  | @bare word text listed filled worded ends _ ih =>
      intro found few
      rw [List.length_cons] at few
      have scanned : scan false [] (word ++ text) = .ok ([] ++ word, text) :=
        scan_of_worded word worded ⟨rfl, ends⟩
      cases word with
      | nil => exact absurd rfl filled
      | cons c rest =>
          obtain ⟨⟨-, -, noQuote⟩, goesOn, -⟩ := worded
          obtain ⟨noBlank, noComment⟩ := goesOn rfl
          have turn : words found (c :: (rest ++ text)) = words (found ++ [c :: rest]) text :=
            words_word noBlank noComment (by omega)
              (by rw [if_neg noQuote, beq_false_of_ne noQuote]; exact scanned)
              (fun quote => absurd quote noQuote)
          rw [List.cons_append, turn,
            ih (by rw [List.length_append, List.length_singleton]; omega), List.append_assoc]
          rfl

theorem lined_of_words {found out : List Text} {text : Text} (read : words found text = .ok out)
    (few : found.length ≤ 2) :
    ∃ listed, out = found ++ listed ∧ Lined text listed ∧ out.length ≤ 2 := by
  fun_induction words found text with
  | case1 found =>
      cases read
      exact ⟨[], (List.append_nil _).symm, .nil, few⟩
  | case2 found c rest isBlank ih =>
      obtain ⟨listed, is, lined, bounded⟩ := ih read few
      exact ⟨listed, is, lined.blank isBlank, bounded⟩
  | case3 found c rest noBlank isComment =>
      cases read
      unfold comment at isComment
      split at isComment
      · rename_i text is
        cases is
        exact ⟨[], (List.append_nil _).symm, .comment _, few⟩
      · cases isComment
  | case4 found c rest noBlank noComment failure scanned => cases read
  | case5 found c rest noBlank noComment word left scanned unspaced => cases read
  | case6 found c rest noBlank noComment word left scanned spacing full => cases read
  | case7 found c rest noBlank noComment word left scanned spacing room ih =>
      have fits : (found ++ [word]).length ≤ 2 := by
        rw [List.length_append, List.length_singleton]
        omega
      obtain ⟨listed, rfl, lined, bounded⟩ := ih read fits
      refine ⟨word :: listed, by simp, ?_, bounded⟩
      obtain ⟨body, next, is, worded, stops, rfl⟩ := worded_of_scan scanned
      by_cases quote : c = '"'
      · subst quote
        rw [dif_pos rfl] at is
        obtain rfl : next = '"' :: left := stops
        have ends : spaced left = true := by
          simpa using spacing
        rw [is]
        exact Lined.quoted worded ends lined
      · rw [dif_neg quote] at is
        rw [beq_false_of_ne quote] at worded stops
        obtain ⟨rfl, ends⟩ : left = next ∧ spaced next = true := stops
        have filled : word ≠ [] := by
          rintro rfl
          rw [List.nil_append] at is
          rw [← is, spaced] at ends
          simp only [Bool.or_eq_true] at ends
          rcases ends with isBlank | isComment
          · exact noBlank isBlank
          · exact noComment isComment
        rw [is]
        exact Lined.bare filled worded ends lined

theorem parseLine_eq_ok {line : Text} {listed : List Text} :
    parseLine line = .ok listed ↔ Lined line listed ∧ (listed = [] ∨ listed.length = 2) := by
  unfold parseLine
  constructor
  · intro does
    obtain ⟨found, read, does⟩ := bind_eq_ok.mp does
    split at does
    · cases does
    · rename_i count
      cases does
      obtain ⟨_, rfl, lined, -⟩ := lined_of_words read (Nat.zero_le _)
      refine ⟨lined, ?_⟩
      by_contra wrong
      rw [not_or] at wrong
      exact count wrong
  · rintro ⟨lined, count⟩
    have few : ([] : List Text).length + listed.length ≤ 2 := by
      rcases count with rfl | two
      · decide
      · rw [two, List.length_nil]
    refine bind_eq_ok.mpr ⟨listed, words_of_lined lined few, if_neg ?_⟩
    rintro ⟨filled, wrong⟩
    rcases count with empty | two
    · exact filled empty
    · exact wrong two

/-! ## The file -/

/-- What the lines of a file request, in their order. -/
inductive Requests : List Text → List (Text × Text) → Prop
  | nil : Requests [] []
  | idle {line : Text} {rest : List Text} {requests : List (Text × Text)} :
      Lined line [] → Requests rest requests → Requests (line :: rest) requests
  | setting {line name value : Text} {rest : List Text} {requests : List (Text × Text)} :
      Lined line [name, value] → Requests rest requests →
        Requests (line :: rest) ((name, value) :: requests)

theorem CoreSettings.readLines_eq_ok {read : List Text} :
    ∀ {settings next : CoreSettings} {number : Nat}, settings.readLines number read = .ok next ↔
      ∃ requests, Requests read requests ∧ settings.setFields requests = .ok next := by
  induction read with
  | nil =>
      intro settings next number
      constructor
      · intro does
        exact ⟨[], .nil, does⟩
      · rintro ⟨requests, is, does⟩
        cases is
        exact does
  | cons line rest ih =>
      intro settings next number
      rw [CoreSettings.readLines]
      constructor
      · intro does
        cases one : settings.readLine line with
        | error failure =>
            rw [one] at does
            cases does
        | ok middle =>
            rw [one] at does
            obtain ⟨requests, is, later⟩ := ih.mp does
            obtain ⟨listed, parsed, does⟩ := bind_eq_ok.mp one
            obtain ⟨lined, count⟩ := parseLine_eq_ok.mp parsed
            rcases count with rfl | two
            · cases does
              exact ⟨requests, .idle lined is, later⟩
            · obtain ⟨name, value, rfl⟩ := List.length_eq_two.mp two
              exact ⟨(name, value) :: requests, .setting lined is,
                bind_eq_ok.mpr ⟨middle, does, later⟩⟩
      · rintro ⟨requests, is, does⟩
        cases is with
        | idle lined is =>
            have one : settings.readLine line = .ok settings :=
              bind_eq_ok.mpr ⟨[], parseLine_eq_ok.mpr ⟨lined, Or.inl rfl⟩, rfl⟩
            rw [one]
            exact ih.mpr ⟨requests, is, does⟩
        | @setting _ name value _ requests lined is =>
            obtain ⟨middle, first, later⟩ := bind_eq_ok.mp does
            have one : settings.readLine line = .ok middle :=
              bind_eq_ok.mpr ⟨[name, value], parseLine_eq_ok.mpr ⟨lined, Or.inr rfl⟩, first⟩
            rw [one]
            exact ih.mpr ⟨requests, is, later⟩

/-- The file was read whole, and is small enough. -/
def File.Whole (file : File) (bytes : Text) : Prop :=
  file.bytes = some bytes ∧ file.size = some bytes.length ∧ bytes.length ≤ maxFile

theorem CoreSettings.read_eq_ok {settings next : CoreSettings} {file : File} :
    settings.read (some file) = .ok next ↔
      ∃ bytes requests, file.Whole bytes ∧ Requests (lines bytes) requests ∧
        settings.Updated requests next := by
  obtain ⟨size, bytes⟩ := file
  constructor
  · intro does
    unfold CoreSettings.read at does
    cases size with
    | none => cases does
    | some size =>
        simp only at does
        split at does
        · cases does
        · rename_i small
          cases bytes with
          | none => cases does
          | some bytes =>
              simp only at does
              split at does
              · cases does
              · rename_i complete
                split at does
                · cases does
                · rename_i unchanged
                  have same : size = bytes.length := by omega
                  subst same
                  obtain ⟨middle, written, does⟩ := bind_eq_ok.mp does
                  obtain ⟨requests, is, written⟩ := CoreSettings.readLines_eq_ok.mp written
                  exact ⟨bytes, requests, ⟨rfl, rfl, by omega⟩, is,
                    CoreSettings.update_eq_ok.mp (bind_eq_ok.mpr ⟨middle, written, does⟩)⟩
  · rintro ⟨found, requests, ⟨is, size, small⟩, requested, updated⟩
    cases is
    cases size
    obtain ⟨middle, written, does⟩ := bind_eq_ok.mp (CoreSettings.update_eq_ok.mpr updated)
    unfold CoreSettings.read
    simp only [if_neg (Nat.not_lt.mpr small), lt_irrefl, if_false, gt_iff_lt]
    exact bind_eq_ok.mpr
      ⟨middle, CoreSettings.readLines_eq_ok.mpr ⟨requests, requested, written⟩, does⟩

/-! ## The settings as a file -/

/-- A field in a line: its name, in quotes or not, and its value in quotes. -/
structure Entry where
  field : Field
  quoted : Bool
  between : Text
  after : Text

/-- A line: blanks, a field or none, and a comment or none. -/
structure Row where
  before : Text
  entry : Option Entry
  comment : Option Text

def Blanks (text : Text) : Prop := ∀ c ∈ text, blank c = true

structure Entry.Fine (entry : Entry) : Prop where
  apart : entry.between ≠ []
  between : Blanks entry.between
  after : Blanks entry.after

structure Row.Fine (row : Row) : Prop where
  before : Blanks row.before
  entry : ∀ entry, row.entry = some entry → entry.Fine
  comment : ∀ text, row.comment = some text → '\n' ∉ text

def Entry.nameText (entry : Entry) : Text :=
  if entry.quoted then '"' :: entry.field.name ++ ['"'] else entry.field.name

def Row.commentText (row : Row) : Text :=
  match row.comment with
  | none => []
  | some text => '/' :: '/' :: text

def Row.entryText (settings : CoreSettings) (row : Row) : Text :=
  match row.entry with
  | none => []
  | some entry => entry.nameText ++ (entry.between ++
      ('"' :: settings.value entry.field ++ '"' :: entry.after))

def Row.text (settings : CoreSettings) (row : Row) : Text :=
  row.before ++ (row.entryText settings ++ row.commentText)

def source (settings : CoreSettings) : List Row → Text
  | [] => []
  | [row] => row.text settings
  | row :: rest => row.text settings ++ '\n' :: source settings rest

theorem Lined.blanks {before text : Text} {listed : List Text} (blanks : Blanks before)
    (lined : Lined text listed) : Lined (before ++ text) listed := by
  induction before with
  | nil => exact lined
  | cons c rest ih =>
      obtain ⟨here, later⟩ := List.forall_mem_cons.mp blanks
      exact (ih later).blank here

theorem spaced_blanks {before text : Text} (blanks : Blanks before) (ends : spaced text = true) :
    spaced (before ++ text) = true := by
  cases before with
  | nil => exact ends
  | cons c rest => simp [spaced, blanks c]

theorem worded_quoted {word : Text} (next : Text)
    (fine : ∀ c ∈ word, c ≠ ';' ∧ 32 ≤ c.toNat ∧ c ≠ '"') : Worded true word next := by
  induction word with
  | nil => trivial
  | cons c rest ih =>
      obtain ⟨here, later⟩ := List.forall_mem_cons.mp fine
      exact ⟨here, by simp, ih later⟩

theorem worded_bare {word : Text} (next : Text)
    (fine : ∀ c ∈ word, (c ≠ ';' ∧ 32 ≤ c.toNat ∧ c ≠ '"') ∧ blank c = false ∧ c ≠ '/') :
    Worded false word next := by
  induction word with
  | nil => trivial
  | cons c rest ih =>
      obtain ⟨⟨here, noBlank, noSlash⟩, later⟩ := List.forall_mem_cons.mp fine
      refine ⟨here, fun _ => ⟨noBlank, ?_⟩, ih later⟩
      unfold comment
      split
      · rename_i is
        exact absurd (List.cons.inj is).1 noSlash
      · rfl

/-- A small letter or an underscore. -/
def nameByte (c : Char) : Bool := c == '_' || (97 ≤ c.toNat && c.toNat ≤ 122)

theorem plain_of_nameByte {c : Char} (letter : nameByte c = true) :
    (c ≠ ';' ∧ 32 ≤ c.toNat ∧ c ≠ '"') ∧ blank c = false ∧ c ≠ '/' := by
  have large : 95 ≤ c.toNat := by
    simp only [nameByte, Bool.or_eq_true, beq_iff_eq, Bool.and_eq_true, decide_eq_true_eq] at letter
    rcases letter with rfl | range
    · decide
    · omega
  have other : ∀ d : Char, d.toNat < 95 → c ≠ d := by
    rintro d small rfl
    omega
  simp only [blank, Bool.or_eq_false_iff, beq_eq_false_iff_ne]
  exact ⟨⟨other _ (by decide), by omega, other _ (by decide)⟩,
    ⟨⟨other _ (by decide), other _ (by decide)⟩, other _ (by decide)⟩, other _ (by decide)⟩

theorem Field.name_plain (field : Field) :
    ∀ c ∈ field.name, (c ≠ ';' ∧ 32 ≤ c.toNat ∧ c ≠ '"') ∧ blank c = false ∧ c ≠ '/' := by
  have letters : field.name.all nameByte = true := by
    cases field <;> decide
  exact fun c within => plain_of_nameByte (List.all_eq_true.mp letters c within)

theorem CoreSettings.Valid.holds {settings : CoreSettings} (valid : settings.Valid)
    (field : Field) : settings.Holds field (settings.value field) := by
  cases field with
  | activity =>
      have range : 0 ≤ settings.activity ∧ settings.activity ≤ 15 := valid.inRange .activity
      exact fromCharsInt_numberText range.1 (by omega)
  | publicTrigger => rfl
  | silentTrigger => rfl
  | debug =>
      have range : 0 ≤ settings.debug ∧ settings.debug ≤ 1 := valid.inRange .debug
      exact fromCharsInt_numberText range.1 (by omega)

theorem CoreSettings.Valid.takes {settings : CoreSettings} (valid : settings.Valid)
    (field : Field) : field.Takes (settings.value field) :=
  (valid.holds field).takes_iff.mpr (valid.inRange field)

theorem quotable_of_allowed {text : Text} (allowed : Allowed text) :
    ∀ c ∈ text, c ≠ ';' ∧ 32 ≤ c.toNat ∧ c ≠ '"' := by
  intro c within
  have fine := allowed.2 c within
  simp only [forbidden, Bool.or_eq_false_iff, decide_eq_false_iff_not, not_le,
    beq_eq_false_iff_ne] at fine
  exact ⟨fine.1.2, by omega, fine.1.1.2⟩

theorem quotable_of_number {n : Int} (low : 0 ≤ n) :
    ∀ c ∈ numberText n, c ≠ ';' ∧ 32 ≤ c.toNat ∧ c ≠ '"' := by
  intro c within
  rw [numberText_of_nonneg low] at within
  have digit := decimal_digits n.toNat c within
  simp only [isDigit, Bool.and_eq_true, decide_eq_true_eq] at digit
  refine ⟨?_, by omega, ?_⟩
  · rintro rfl
    exact absurd digit.2 (by decide)
  · rintro rfl
    exact absurd digit.1 (by decide)

theorem CoreSettings.Valid.quotable {settings : CoreSettings} (valid : settings.Valid)
    (field : Field) : ∀ c ∈ settings.value field, c ≠ ';' ∧ 32 ≤ c.toNat ∧ c ≠ '"' := by
  have inRange := valid.inRange field
  cases field with
  | activity => exact quotable_of_number inRange.1
  | publicTrigger => exact quotable_of_allowed inRange
  | silentTrigger => exact quotable_of_allowed inRange
  | debug => exact quotable_of_number inRange.1

theorem Row.comment_lined (row : Row) :
    Lined row.commentText [] ∧ spaced row.commentText = true := by
  unfold Row.commentText
  cases row.comment with
  | none => exact ⟨.nil, rfl⟩
  | some text => exact ⟨.comment text, rfl⟩

theorem Row.lined {settings : CoreSettings} (valid : settings.Valid) {row : Row}
    (fine : row.Fine) : Lined (row.text settings)
      (row.entry.elim [] fun entry => [entry.field.name, settings.value entry.field]) := by
  obtain ⟨comment, ends⟩ := row.comment_lined
  refine Lined.blanks fine.before ?_
  unfold Row.entryText
  cases is : row.entry with
  | none => exact comment
  | some entry =>
      have fine := fine.entry entry is
      have value : Lined ('"' :: settings.value entry.field ++ '"' ::
          (entry.after ++ row.commentText)) [settings.value entry.field] :=
        Lined.quoted (worded_quoted _ (valid.quotable entry.field))
          (spaced_blanks fine.after ends) (comment.blanks fine.after)
      have rest := value.blanks fine.between
      have apart : spaced (entry.between ++ ('"' :: settings.value entry.field ++ '"' ::
          (entry.after ++ row.commentText))) = true := by
        cases blanks : entry.between with
        | nil => exact absurd blanks fine.apart
        | cons c later =>
            have here := fine.between c (by rw [blanks]; exact List.mem_cons_self ..)
            simp [spaced, here]
      have plain := entry.field.name_plain
      simp only [Option.elim_some, Entry.nameText, List.append_assoc, List.cons_append]
      cases entry.quoted with
      | true =>
          simp only [if_true, List.cons_append, List.append_assoc, List.nil_append]
          exact Lined.quoted (worded_quoted _ fun c within => (plain c within).1) apart rest
      | false =>
          simp only [Bool.false_eq_true, if_false]
          refine Lined.bare ?_ (worded_bare _ plain) apart rest
          cases entry.field <;> decide

theorem linesFrom_newline (text rest : Text) (plain : '\n' ∉ text) : ∀ line : Text,
    linesFrom line (text ++ '\n' :: rest) = (line ++ text) :: linesFrom [] rest := by
  induction text with
  | nil =>
      intro line
      rw [List.append_nil, List.nil_append, linesFrom, if_pos rfl]
  | cons c text ih =>
      intro line
      rw [List.mem_cons, not_or] at plain
      rw [List.cons_append, linesFrom, if_neg (Ne.symm plain.1), ih plain.2, List.append_assoc]
      rfl

theorem linesFrom_last (text : Text) (plain : '\n' ∉ text) : ∀ line : Text,
    linesFrom line text = if line ++ text = [] then [] else [line ++ text] := by
  induction text with
  | nil =>
      intro line
      rw [List.append_nil, linesFrom]
  | cons c text ih =>
      intro line
      rw [List.mem_cons, not_or] at plain
      rw [linesFrom, if_neg (Ne.symm plain.1), ih plain.2, List.append_assoc]
      rfl

theorem blanks_noNewline {text : Text} (blanks : Blanks text) : '\n' ∉ text := by
  intro within
  exact absurd (blanks _ within) (by decide)

theorem quotable_noNewline {text : Text}
    (quotable : ∀ c ∈ text, c ≠ ';' ∧ 32 ≤ c.toNat ∧ c ≠ '"') : '\n' ∉ text := by
  intro within
  exact absurd (quotable _ within).2.1 (by decide)

theorem Row.noNewline {settings : CoreSettings} (valid : settings.Valid) {row : Row}
    (fine : row.Fine) : '\n' ∉ row.text settings := by
  have comment : '\n' ∉ row.commentText := by
    unfold Row.commentText
    cases is : row.comment with
    | none => simp
    | some text => simp [fine.comment text is]
  have entry : '\n' ∉ row.entryText settings := by
    unfold Row.entryText
    cases is : row.entry with
    | none => simp
    | some entry =>
        have fine := fine.entry entry is
        have name : '\n' ∉ entry.field.name :=
          quotable_noNewline fun c within => (entry.field.name_plain c within).1
        have value := quotable_noNewline (valid.quotable entry.field)
        have nameText : '\n' ∉ entry.nameText := by
          unfold Entry.nameText
          split <;> simp [name]
        simp [nameText, value, blanks_noNewline fine.between, blanks_noNewline fine.after]
  simp [Row.text, comment, entry, blanks_noNewline fine.before]

def Row.request (settings : CoreSettings) (row : Row) : Option (Text × Text) :=
  row.entry.map fun entry => (entry.field.name, settings.value entry.field)

theorem Row.requests {settings : CoreSettings} (valid : settings.Valid) {row : Row}
    (fine : row.Fine) {rest : List Text} {requests : List (Text × Text)}
    (later : Requests rest requests) :
    Requests (row.text settings :: rest) ((row.request settings).toList ++ requests) := by
  have lined := row.lined valid fine
  unfold Row.request
  cases is : row.entry with
  | none =>
      rw [is] at lined
      exact .idle lined later
  | some entry =>
      rw [is] at lined
      exact .setting lined later

theorem Row.entry_of_empty {settings : CoreSettings} {row : Row} (empty : row.text settings = []) :
    row.request settings = none := by
  unfold Row.request
  cases is : row.entry with
  | none => rfl
  | some entry => simp [Row.text, Row.entryText, is] at empty

theorem requests_source {settings : CoreSettings} (valid : settings.Valid) (rows : List Row)
    (fine : ∀ row ∈ rows, row.Fine) :
    Requests (lines (source settings rows)) (rows.filterMap (Row.request settings)) := by
  unfold lines
  fun_induction source settings rows with
  | case1 => exact .nil
  | case2 row =>
      have fine := fine row (List.mem_singleton_self row)
      rw [linesFrom_last _ (row.noNewline valid fine), List.nil_append]
      split
      · rename_i empty
        rw [List.filterMap_cons_none (Row.entry_of_empty empty)]
        exact .nil
      · have one := row.requests valid fine .nil
        cases is : row.request settings with
        | none =>
            rw [is] at one
            rw [List.filterMap_cons_none is]
            exact one
        | some request =>
            rw [is] at one
            rw [List.filterMap_cons_some is]
            exact one
  | case3 row rest more ih =>
      obtain ⟨here, later⟩ := List.forall_mem_cons.mp fine
      rw [linesFrom_newline _ _ (row.noNewline valid here), List.nil_append]
      have both := row.requests valid here (ih later)
      cases is : row.request settings with
      | none =>
          rw [is] at both
          rw [List.filterMap_cons_none is]
          exact both
      | some request =>
          rw [is] at both
          rw [List.filterMap_cons_some is]
          exact both

/-- The fields that a file lists, in its order. -/
def listed (rows : List Row) : List Field := rows.filterMap fun row => row.entry.map Entry.field

theorem requests_listed (settings : CoreSettings) (rows : List Row) :
    rows.filterMap (Row.request settings) =
      (listed rows).map fun field => (field.name, settings.value field) := by
  rw [listed, List.map_filterMap]
  congr 1
  funext row
  rw [Row.request, Option.map_map]
  rfl

theorem CoreSettings.read_source (initial : CoreSettings) {settings : CoreSettings}
    (valid : settings.Valid) (rows : List Row) (fine : ∀ row ∈ rows, row.Fine)
    (all : ∀ field, field ∈ listed rows) (small : (source settings rows).length ≤ maxFile) :
    initial.read (some ⟨some (source settings rows).length, some (source settings rows)⟩) =
      .ok settings := by
  refine CoreSettings.read_eq_ok.mpr ⟨_, _, ⟨rfl, rfl, small⟩, requests_source valid rows fine, ?_⟩
  rw [requests_listed]
  refine ⟨?_, ?_, valid.differ⟩
  · intro request within
    obtain ⟨field, -, rfl⟩ := List.mem_map.mp within
    exact ⟨field, rfl, valid.takes field⟩
  · intro field
    rw [CoreSettings.Requested, lastValue_fields, if_pos (all field)]
    exact valid.holds field

/-! ## Any order of updates -/

inductive Update where
  | set (name value : Text)
  | setAll (values : Field → Text)
  | read (file : Option File)

def CoreSettings.update (settings : CoreSettings) : Update → Except Failure CoreSettings
  | .set name value => settings.set name value
  | .setAll values => settings.setAll values
  | .read file => settings.read file

/-- The settings behind an update, and the error it reports. -/
def CoreSettings.step (settings : CoreSettings) (update : Update) :
    CoreSettings × Option Failure :=
  match settings.update update with
  | .ok next => (next, none)
  | .error failure => (settings, some failure)

def CoreSettings.run (settings : CoreSettings) (updates : List Update) : CoreSettings :=
  updates.foldl (fun settings update => (settings.step update).1) settings

/-- What an update requests. -/
def Asks : Update → List (Text × Text) → Prop
  | .set name value, requests => requests = [(name, value)]
  | .setAll values, requests =>
      requests = Field.all.map fun field => (field.name, values field)
  | .read none, requests => requests = []
  | .read (some file), requests => ∃ bytes, file.Whole bytes ∧ Requests (lines bytes) requests

theorem CoreSettings.update_eq_updated {settings next : CoreSettings} (valid : settings.Valid)
    {update : Update} : settings.update update = .ok next ↔
      ∃ requests, Asks update requests ∧ settings.Updated requests next := by
  cases update with
  | set name value =>
      simp only [CoreSettings.update, Asks, exists_eq_left]
      exact CoreSettings.set_eq_ok
  | setAll values =>
      simp only [CoreSettings.update, Asks, exists_eq_left]
      exact CoreSettings.setAll_eq_updated
  | read file =>
      cases file with
      | none =>
          simp only [CoreSettings.update, Asks, exists_eq_left]
          constructor
          · intro is
            cases is
            exact ⟨by simp [Takable], settings.same_refl, valid.differ⟩
          · rintro ⟨-, same, -⟩
            exact congrArg Except.ok (CoreSettings.eq_of_same same).symm
      | some file =>
          simp only [CoreSettings.update, Asks]
          rw [CoreSettings.read_eq_ok]
          constructor
          · rintro ⟨bytes, requests, whole, is, updated⟩
            exact ⟨requests, ⟨bytes, whole, is⟩, updated⟩
          · rintro ⟨requests, ⟨bytes, whole, is⟩, updated⟩
            exact ⟨bytes, requests, whole, is, updated⟩

theorem CoreSettings.step_valid {settings : CoreSettings} (valid : settings.Valid)
    (update : Update) : (settings.step update).1.Valid := by
  unfold CoreSettings.step
  cases does : settings.update update with
  | error failure => exact valid
  | ok next =>
      obtain ⟨requests, -, updated⟩ := (CoreSettings.update_eq_updated valid).mp does
      exact updated.valid valid

theorem CoreSettings.run_valid (updates : List Update) : ∀ {settings : CoreSettings},
    settings.Valid → (settings.run updates).Valid := by
  induction updates with
  | nil => exact fun valid => valid
  | cons update rest ih =>
      intro settings valid
      exact ih (CoreSettings.step_valid valid update)

/-- An update yields the fields requested or leaves all as they are; no order of
updates leaves the valid settings; four values that are valid as a whole are taken;
the settings are read back from a file that lists them. -/
theorem settings_stay_valid :
    (∀ settings : CoreSettings, settings.Valid → ∀ update,
      (∃ next requests, settings.step update = (next, none) ∧ Asks update requests ∧
        settings.Updated requests next) ∨
      ∃ failure, settings.step update = (settings, some failure) ∧
        ∀ next requests, Asks update requests → ¬ settings.Updated requests next) ∧
    (∀ settings : CoreSettings, settings.Valid → ∀ updates, (settings.run updates).Valid) ∧
    (∀ settings next : CoreSettings, ∀ values, (∀ field, next.Holds field (values field)) →
      next.Valid → settings.step (.setAll values) = (next, none)) ∧
    ∀ settings initial : CoreSettings, settings.Valid → ∀ rows : List Row,
      (∀ row ∈ rows, row.Fine) → (∀ field, field ∈ listed rows) →
      (source settings rows).length ≤ maxFile →
      initial.step (.read (some ⟨some (source settings rows).length,
        some (source settings rows)⟩)) = (settings, none) := by
  refine ⟨?_, fun _ valid updates => CoreSettings.run_valid updates valid, ?_, ?_⟩
  · intro settings valid update
    have iff : ∀ next, settings.update update = .ok next ↔
        ∃ requests, Asks update requests ∧ settings.Updated requests next :=
      fun _ => CoreSettings.update_eq_updated valid
    unfold CoreSettings.step
    cases does : settings.update update with
    | ok next =>
        obtain ⟨requests, asks, updated⟩ := (iff next).mp does
        exact Or.inl ⟨next, requests, rfl, asks, updated⟩
    | error failure =>
        refine Or.inr ⟨failure, rfl, ?_⟩
        intro next requests asks updated
        rw [(iff next).mpr ⟨requests, asks, updated⟩] at does
        cases does
  · intro settings next values holds valid
    have does : settings.setAll values = .ok next := CoreSettings.setAll_eq_ok.mpr ⟨holds, valid⟩
    unfold CoreSettings.step CoreSettings.update
    simp only [does]
  · intro settings initial valid rows fine all small
    unfold CoreSettings.step CoreSettings.update
    simp only [initial.read_source valid rows fine all small]

/-- The default settings with their triggers swapped. -/
def swapped : CoreSettings := { publicTrigger := ['/'], silentTrigger := ['!'] }

theorem settings_stay_valid_swap :
    ({} : CoreSettings).step (.setAll swapped.value) = (swapped, none) ∧
      ((({} : CoreSettings).step (.setAll swapped.value)).1.run
        [.set Field.publicTrigger.name ['!']]).Valid := by
  have valid : swapped.Valid := by
    refine ⟨?_, by unfold CoreSettings.Differ; decide⟩
    intro field
    cases field <;> simp [swapped, CoreSettings.InRange, Allowed, forbidden]
  have swap := settings_stay_valid.2.2.1 {} swapped swapped.value valid.holds valid
  rw [swap]
  exact ⟨rfl, settings_stay_valid.2.1 swapped valid [.set Field.publicTrigger.name ['!']]⟩

end Source2Root.Settings
