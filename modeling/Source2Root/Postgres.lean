import Mathlib
import Source2Root.Decimal

/-!
# The guard of PostgreSQL statements

`FirstKeyword` and `ValidateQuery`, and the blanks that may stand before a command:
whitespace, line comments and block comments, which nest.
-/

set_option autoImplicit false

namespace Source2Root.Postgres

inductive Failure where
  | sqlText
  | manyParameters
  | missingParameter
  | parameterText
  | parameterNumber
  | largeParameters
  | unterminated
  | noKeyword
  | unavailable
deriving DecidableEq, Repr

def Failure.message : Failure → String
  | .sqlText => "SQL must contain one statement of at most 4095 bytes without NUL."
  | .manyParameters => "Query exceeds 64 parameters."
  | .missingParameter => "Every parameter up to the highest bound index must be set."
  | .parameterText => "Invalid parameter text."
  | .parameterNumber => "Parameter number must be finite."
  | .largeParameters => "Query parameters exceed 64 KiB."
  | .unterminated => "Unterminated SQL comment."
  | .noKeyword => "PostgreSQL SQL must begin with a command keyword."
  | .unavailable => "PostgreSQL transaction, session-control and COPY commands are unavailable."

def space (c : Char) : Bool :=
  c == ' ' || c == '\t' || c == '\r' || c == '\n' || c == '\x0c' || c == '\x0b'

def letter (c : Char) : Bool := ('a' ≤ c && c ≤ 'z') || ('A' ≤ c && c ≤ 'Z')

def upper (c : Char) : Char :=
  if 'a' ≤ c ∧ c ≤ 'z' then Char.ofNat (c.toNat - 'a'.toNat + 'A'.toNat) else c

def lineEnd (c : Char) : Bool := c == '\n' || c == '\r'

/-- The loop inside a block comment; its depth is an `unsigned`. -/
def skipBlock : Nat → Text → Nat × Text
  | 0, text => (0, text)
  | depth + 1, '/' :: '*' :: rest => skipBlock ((depth + 2) % 2 ^ 32) rest
  | depth + 1, '*' :: '/' :: rest => skipBlock depth rest
  | depth + 1, _ :: rest => skipBlock (depth + 1) rest
  | depth + 1, [] => (depth + 1, [])

theorem skipBlock_left (depth : Nat) (text : Text) :
    (skipBlock depth text).2.length ≤ text.length := by
  fun_induction skipBlock depth text with
  | case1 text => exact le_refl _
  | case2 depth rest ih =>
      simp only [List.length_cons]
      omega
  | case3 depth rest ih =>
      simp only [List.length_cons]
      omega
  | case4 depth c rest _ _ ih =>
      rw [List.length_cons]
      omega
  | case5 depth => exact le_refl _

/-- The outer loop: what is left where no blank begins. -/
def skip (text : Text) : Except Failure Text :=
  match _ : text.dropWhile space with
  | '-' :: '-' :: rest => skip (rest.dropWhile fun c => !lineEnd c)
  | '/' :: '*' :: rest =>
      if (skipBlock 1 rest).1 ≠ 0 then .error .unterminated else skip (skipBlock 1 rest).2
  | text => .ok text
  termination_by text.length
  decreasing_by
    · rename_i is
      have first := (List.dropWhile_suffix (l := text) space).length_le
      have second := (List.dropWhile_suffix (l := rest) fun c => !lineEnd c).length_le
      rw [is] at first
      simp only [List.length_cons] at first
      omega
    · rename_i is _
      have first := (List.dropWhile_suffix (l := text) space).length_le
      have second := skipBlock_left 1 rest
      rw [is] at first
      simp only [List.length_cons] at first
      omega

def firstKeyword (sql : Text) : Except Failure Text :=
  skip sql >>= fun rest =>
    if (rest.takeWhile letter).map upper = [] then .error .noKeyword
    else .ok ((rest.takeWhile letter).map upper)

/-! ## Queries -/

inductive Parameter where
  | null
  | integer (value : Int)
  | number (value : Float)
  | text (value : Text)

structure QueryInput where
  sql : Text
  parameters : List (Option Parameter)

def maxSql : Nat := 4095

def nul : Char := Char.ofNat 0

def checkParameter : Parameter → Except Failure Nat
  | .text value =>
      if value.length > 4095 ∨ nul ∈ value then .error .parameterText else .ok value.length
  | .number value => if !value.isFinite then .error .parameterNumber else .ok 0
  | _ => .ok 0

/-- The bytes of the texts among the parameters. -/
def checkParameters (bytes : Nat) : List (Option Parameter) → Except Failure Nat
  | [] => .ok bytes
  | none :: _ => .error .missingParameter
  | some parameter :: rest => do
      let more ← checkParameter parameter
      checkParameters (bytes + more) rest

def QueryInput.validate (input : QueryInput) : Except Failure Unit :=
  if input.sql = [] ∨ input.sql.length > maxSql ∨ nul ∈ input.sql then .error .sqlText
  else if input.parameters.length > 64 then .error .manyParameters
  else do
    let bytes ← checkParameters 0 input.parameters
    if bytes > 65536 then .error .largeParameters else .ok ()

def prohibited : List Text :=
  ["BEGIN".toList, "START".toList, "COMMIT".toList, "END".toList, "ROLLBACK".toList,
    "ABORT".toList, "SAVEPOINT".toList, "RELEASE".toList, "PREPARE".toList, "DEALLOCATE".toList,
    "SET".toList, "RESET".toList, "DISCARD".toList, "COPY".toList]

def validateQuery (input : QueryInput) : Except Failure Unit := do
  input.validate
  let keyword ← firstKeyword input.sql
  if prohibited.contains keyword then .error .unavailable else .ok ()

/-! ## Blanks -/

/-- The byte opens or closes a block comment. -/
def marker (c : Char) (next : Option Char) : Bool :=
  (c == '/' && next == some '*') || (c == '*' && next == some '/')

/-- What stands inside a block comment, before what follows it. -/
inductive Inside : Text → Text → Prop
  | nil (next : Text) : Inside [] next
  | byte {c : Char} {rest next : Text} :
      marker c (rest ++ next).head? = false → Inside rest next → Inside (c :: rest) next
  | block {body rest next : Text} :
      Inside body ('*' :: '/' :: (rest ++ next)) → Inside rest next →
        Inside ('/' :: '*' :: (body ++ '*' :: '/' :: rest)) next

/-- Whitespace, line comments with the end of their line and block comments. -/
inductive Blank : Text → Prop
  | nil : Blank []
  | space {c : Char} {rest : Text} : space c = true → Blank rest → Blank (c :: rest)
  | line {body rest : Text} {c : Char} :
      (∀ d ∈ body, lineEnd d = false) → lineEnd c = true → Blank rest →
        Blank ('-' :: '-' :: (body ++ c :: rest))
  | block {body rest : Text} :
      Inside body ['*', '/'] → Blank rest →
        Blank ('/' :: '*' :: (body ++ '*' :: '/' :: rest))

/-- A block comment begins and does not end. -/
def Unterminated (text : Text) : Prop :=
  ∃ rest, text = '/' :: '*' :: rest ∧
    ∀ body left, Inside body ['*', '/'] → rest ≠ body ++ '*' :: '/' :: left

theorem Inside.before {body next : Text} (inside : Inside body next) :
    ∀ {other : Text}, next.head? = other.head? → Inside body other := by
  induction inside with
  | nil next => exact fun _ => .nil _
  | @byte c rest next plain _ ih =>
      intro other same
      have heads : (rest ++ next).head? = (rest ++ other).head? := by
        cases rest with
        | nil => exact same
        | cons d rest => rfl
      rw [heads] at plain
      exact .byte plain (ih same)
  | block _ _ first second => exact fun same => .block (first rfl) (second same)

theorem skipBlock_byte {depth : Nat} {c : Char} {rest : Text}
    (plain : marker c rest.head? = false) :
    skipBlock (depth + 1) (c :: rest) = skipBlock (depth + 1) rest := by
  rw [skipBlock]
  · rintro left rfl rfl
    exact absurd plain (by simp [marker])
  · rintro left rfl rfl
    exact absurd plain (by simp [marker])

/-- A comment inside is passed, however deep it stands, where the depth does not
wrap. -/
theorem skipBlock_inside {body next : Text} (inside : Inside body next) :
    ∀ {depth : Nat}, 2 * (depth + 1) + body.length < 2 ^ 33 →
      skipBlock (depth + 1) (body ++ next) = skipBlock (depth + 1) next := by
  induction inside with
  | nil next => exact fun _ => rfl
  | byte plain _ ih =>
      intro depth small
      rw [List.length_cons] at small
      rw [List.cons_append, skipBlock_byte plain]
      exact ih (by omega)
  | @block body rest next _ _ first second =>
      intro depth small
      simp only [List.length_cons, List.length_append] at small
      have shape : '/' :: '*' :: (body ++ '*' :: '/' :: rest) ++ next =
          '/' :: '*' :: (body ++ '*' :: '/' :: (rest ++ next)) := by simp
      rw [shape, skipBlock, Nat.mod_eq_of_lt (by omega), first (by omega), skipBlock]
      exact second (by omega)

/-- What was passed where the comments of some depth ended. -/
theorem inside_of_skipBlock (length : Nat) : ∀ {text left : Text} {depth : Nat},
    text.length ≤ length → 2 * (depth + 1) + text.length < 2 ^ 33 →
    skipBlock (depth + 1) text = (0, left) →
    ∃ body rest, text = body ++ '*' :: '/' :: rest ∧ Inside body ['*', '/'] ∧
      skipBlock depth rest = (0, left) := by
  induction length with
  | zero =>
      intro text left depth short _ passed
      rw [List.length_eq_zero_iff.mp (Nat.le_zero.mp short)] at passed
      cases passed
  | succ length ih =>
      intro text left depth short small passed
      cases text with
      | nil => cases passed
      | cons c rest =>
          rw [List.length_cons] at short small
          cases mark : marker c rest.head? with
          | false =>
              rw [skipBlock_byte mark] at passed
              obtain ⟨body, after, rfl, inside, closed⟩ := ih (by omega) (by omega) passed
              refine ⟨c :: body, after, rfl, .byte ?_ inside, closed⟩
              cases body with
              | nil => exact mark
              | cons d body => exact mark
          | true =>
              simp only [marker, Bool.or_eq_true, Bool.and_eq_true, beq_iff_eq] at mark
              rcases mark with ⟨rfl, head⟩ | ⟨rfl, head⟩
              · obtain ⟨tail, rfl⟩ := List.head?_eq_some_iff.mp head
                rw [List.length_cons] at short small
                rw [skipBlock, Nat.mod_eq_of_lt (by omega)] at passed
                obtain ⟨body, after, rfl, inside, closed⟩ := ih (by omega) (by omega) passed
                simp only [List.length_append, List.length_cons] at short small
                obtain ⟨later, rest, rfl, outside, closed⟩ := ih (by omega) (by omega) closed
                refine ⟨'/' :: '*' :: (body ++ '*' :: '/' :: later), rest, by simp, ?_, closed⟩
                exact .block (inside.before rfl) outside
              · obtain ⟨tail, rfl⟩ := List.head?_eq_some_iff.mp head
                rw [skipBlock] at passed
                exact ⟨[], tail, rfl, .nil _, passed⟩

theorem skipBlock_eq {text left : Text} (small : text.length + 2 < 2 ^ 33) :
    skipBlock 1 text = (0, left) ↔
      ∃ body, text = body ++ '*' :: '/' :: left ∧ Inside body ['*', '/'] := by
  constructor
  · intro passed
    have room : 2 * (0 + 1) + text.length < 2 ^ 33 := by omega
    obtain ⟨body, rest, rfl, inside, closed⟩ :=
      inside_of_skipBlock text.length (le_refl _) room passed
    rw [skipBlock] at closed
    cases closed
    exact ⟨body, rfl, inside⟩
  · rintro ⟨body, rfl, inside⟩
    simp only [List.length_append, List.length_cons] at small
    have behind : Inside body ('*' :: '/' :: left) := inside.before rfl
    have passed : skipBlock (0 + 1) (body ++ '*' :: '/' :: left) =
        skipBlock (0 + 1) ('*' :: '/' :: left) := skipBlock_inside behind (by omega)
    rw [Nat.zero_add] at passed
    rw [passed, skipBlock, skipBlock]

/-! ## The longest blank -/

/-- No blank begins here. -/
def Stuck (rest : Text) : Prop := ∀ blank left, rest = blank ++ left → Blank blank → blank = []

theorem Blank.append {first second : Text} (one : Blank first) (two : Blank second) :
    Blank (first ++ second) := by
  induction one with
  | nil => exact two
  | space isSpace _ ih => exact .space isSpace ih
  | @line body rest c plain ends _ ih =>
      have shape : '-' :: '-' :: (body ++ c :: rest) ++ second =
          '-' :: '-' :: (body ++ c :: (rest ++ second)) := by simp
      rw [shape]
      exact .line plain ends ih
  | @block body rest inside _ ih =>
      have shape : '/' :: '*' :: (body ++ '*' :: '/' :: rest) ++ second =
          '/' :: '*' :: (body ++ '*' :: '/' :: (rest ++ second)) := by simp
      rw [shape]
      exact .block inside ih

theorem lineEnd_space {c : Char} (ends : lineEnd c = true) : space c = true := by
  simp only [lineEnd, Bool.or_eq_true, beq_iff_eq] at ends
  rcases ends with rfl | rfl <;> decide

theorem behind_space {c : Char} {rest : Text} (isSpace : space c = true)
    (blank : Blank (c :: rest)) : Blank rest := by
  cases blank with
  | space _ blank => exact blank
  | line => exact absurd isSpace (by decide)
  | block => exact absurd isSpace (by decide)

/-- A line ends where its first line end stands. -/
theorem line_unique {body other rest left : Text} {c d : Char}
    (plain : ∀ e ∈ body, lineEnd e = false) (ends : lineEnd c = true)
    (plain' : ∀ e ∈ other, lineEnd e = false) (ends' : lineEnd d = true)
    (same : body ++ c :: rest = other ++ d :: left) : rest = left := by
  induction body generalizing other with
  | nil =>
      cases other with
      | nil => exact (List.cons.inj same).2
      | cons e other =>
          have clash := plain' e (List.mem_cons_self ..)
          rw [← (List.cons.inj same).1, ends] at clash
          cases clash
  | cons e body ih =>
      cases other with
      | nil =>
          have clash := plain e (List.mem_cons_self ..)
          rw [(List.cons.inj same).1, ends'] at clash
          cases clash
      | cons f other =>
          exact ih (fun g within => plain g (List.mem_cons_of_mem _ within))
            (fun g within => plain' g (List.mem_cons_of_mem _ within)) (List.cons.inj same).2

theorem Blank.behind {first rest : Text} (one : Blank first)
    (small : (first ++ rest).length < 2 ^ 33) (both : Blank (first ++ rest)) : Blank rest := by
  induction one with
  | nil => exact both
  | space isSpace _ ih =>
      simp only [List.cons_append, List.length_cons] at small
      exact ih (by omega) (behind_space isSpace both)
  | @line body later c plain ends _ ih =>
      have shape : '-' :: '-' :: (body ++ c :: later) ++ rest =
          '-' :: '-' :: (body ++ c :: (later ++ rest)) := by simp
      rw [shape] at both small
      simp only [List.length_cons, List.length_append] at small ih
      generalize whole : body ++ c :: (later ++ rest) = text at both
      cases both with
      | space isSpace _ => exact absurd isSpace (by decide)
      | line plain' ends' blank =>
          have same := line_unique plain ends plain' ends' whole
          rw [← same] at blank
          exact ih (by omega) blank
  | @block body later inside _ ih =>
      have shape : '/' :: '*' :: (body ++ '*' :: '/' :: later) ++ rest =
          '/' :: '*' :: (body ++ '*' :: '/' :: (later ++ rest)) := by simp
      rw [shape] at both small
      generalize whole : body ++ '*' :: '/' :: (later ++ rest) = text at both small
      have room : text.length + 2 < 2 ^ 33 := by
        simp only [List.length_cons] at small
        omega
      cases both with
      | space isSpace _ => exact absurd isSpace (by decide)
      | @block other left inside' blank =>
          have one := (skipBlock_eq room).mpr ⟨body, whole.symm, inside⟩
          have two := (skipBlock_eq room).mpr ⟨other, rfl, inside'⟩
          have same : later ++ rest = left := (Prod.mk.inj (one.symm.trans two)).2
          rw [← same] at blank
          have length := congrArg List.length whole
          simp only [List.length_append, List.length_cons] at length small ih
          exact ih (by omega) blank

/-- The longest blank is the one behind which none begins. -/
theorem blank_unique {first second rest left : Text} (one : Blank first) (two : Blank second)
    (stuck : Stuck rest) (same : first ++ rest = second ++ left)
    (small : (first ++ rest).length < 2 ^ 33) : second.length ≤ first.length := by
  rcases List.append_eq_append_iff.mp same with ⟨more, is, shape⟩ | ⟨more, is, -⟩
  · subst is
    rw [shape, ← List.append_assoc, List.length_append] at small
    have blank := one.behind (by omega) two
    rw [stuck more left shape blank, List.append_nil]
  · rw [is, List.length_append]
    omega

theorem stuck_nil : Stuck [] := by
  intro blank left is _
  exact (List.append_eq_nil_iff.mp is.symm).1

theorem stuck_line {body : Text} (plain : ∀ c ∈ body, lineEnd c = false) :
    Stuck ('-' :: '-' :: body) := by
  intro blank left is isBlank
  cases isBlank with
  | nil => rfl
  | space isSpace _ =>
      rw [List.cons_append] at is
      rw [← (List.cons.inj is).1] at isSpace
      exact absurd isSpace (by decide)
  | @line inner rest c _ ends _ =>
      have within : c ∈ body := by
        simp only [List.cons_append, List.cons.injEq, true_and] at is
        simp [is]
      rw [plain c within] at ends
      cases ends
  | block =>
      simp at is

theorem stuck_block {text : Text} (unterminated : Unterminated text) : Stuck text := by
  obtain ⟨rest, rfl, never⟩ := unterminated
  intro blank left is isBlank
  cases isBlank with
  | nil => rfl
  | space isSpace _ =>
      rw [List.cons_append] at is
      rw [← (List.cons.inj is).1] at isSpace
      exact absurd isSpace (by decide)
  | line => simp at is
  | @block body later inside _ =>
      simp only [List.cons_append, List.append_assoc, List.cons.injEq, true_and] at is
      exact absurd is (never body (later ++ left) inside)

/-- A text that begins with neither whitespace nor a comment. -/
theorem stuck_plain {c : Char} {text : Text} (noSpace : space c = false)
    (noLine : ∀ rest, c :: text ≠ '-' :: '-' :: rest)
    (noBlock : ∀ rest, c :: text ≠ '/' :: '*' :: rest) : Stuck (c :: text) := by
  intro blank left is isBlank
  cases isBlank with
  | nil => rfl
  | space isSpace _ =>
      rw [List.cons_append] at is
      rw [← (List.cons.inj is).1, noSpace] at isSpace
      cases isSpace
  | line => exact absurd is (noLine _)
  | block => exact absurd is (noBlock _)

theorem skip_line {text rest : Text} (opened : text.dropWhile space = '-' :: '-' :: rest) :
    skip text = skip (rest.dropWhile fun c => !lineEnd c) := by
  rw [skip.eq_def]
  split
  · rename_i other is
    rw [opened] at is
    cases is
    rfl
  · rename_i other is
    rw [opened] at is
    cases is
  · rename_i noLine _
    exact absurd opened (noLine rest)

theorem skip_block {text rest : Text} (opened : text.dropWhile space = '/' :: '*' :: rest) :
    skip text = if (skipBlock 1 rest).1 ≠ 0 then .error .unterminated
      else skip (skipBlock 1 rest).2 := by
  rw [skip.eq_def]
  split
  · rename_i other is
    rw [opened] at is
    cases is
  · rename_i other is
    rw [opened] at is
    cases is
    rfl
  · rename_i _ noBlock
    exact absurd opened (noBlock rest)

theorem skip_stop {text : Text} (noLine : ∀ rest, text.dropWhile space ≠ '-' :: '-' :: rest)
    (noBlock : ∀ rest, text.dropWhile space ≠ '/' :: '*' :: rest) :
    skip text = .ok (text.dropWhile space) := by
  rw [skip.eq_def]
  split
  · rename_i rest is
    exact absurd is (noLine rest)
  · rename_i rest is
    exact absurd is (noBlock rest)
  · rfl

theorem skip_space {c : Char} {rest : Text} (isSpace : space c = true) :
    skip (c :: rest) = skip rest := by
  have same : (c :: rest).dropWhile space = rest.dropWhile space :=
    List.dropWhile_cons_of_pos isSpace
  by_cases line : ∃ left, rest.dropWhile space = '-' :: '-' :: left
  · obtain ⟨left, opened⟩ := line
    rw [skip_line opened, skip_line (same.trans opened)]
  · by_cases block : ∃ left, rest.dropWhile space = '/' :: '*' :: left
    · obtain ⟨left, opened⟩ := block
      rw [skip_block opened, skip_block (same.trans opened)]
    · rw [not_exists] at line block
      rw [skip_stop line block, skip_stop (by rwa [same]) (by rwa [same]), same]

theorem split_spaces (text : Text) :
    ∃ front, text = front ++ text.dropWhile space ∧ Blank front := by
  refine ⟨_, (List.takeWhile_append_dropWhile (p := space) (l := text)).symm, ?_⟩
  induction text with
  | nil => exact .nil
  | cons c rest ih =>
      rw [List.takeWhile_cons]
      split
      · rename_i isSpace
        exact .space isSpace ih
      · exact .nil

theorem split_line (text : Text) :
    ∃ body, text = body ++ text.dropWhile (fun c => !lineEnd c) ∧
      ∀ c ∈ body, lineEnd c = false := by
  refine ⟨_, (List.takeWhile_append_dropWhile (p := fun c => !lineEnd c) (l := text)).symm, ?_⟩
  intro c within
  simpa using List.mem_takeWhile_imp within

theorem dropWhile_head {f : Char → Bool} {text rest : Text} {c : Char}
    (is : text.dropWhile f = c :: rest) : f c = false := by
  have head := List.head?_dropWhile_not f text
  rw [is] at head
  simpa using head

/-- Where the loop stops: behind the longest blank, which only an open line comment
may follow that it passes, too. -/
structure Skips (text blank rest : Text) : Prop where
  whole : text = blank ++ rest
  blank : Blank blank
  stuck : Stuck rest
  outcome : (skip text = .error .unterminated ∧ Unterminated rest) ∨
    (¬ Unterminated rest ∧
      ∃ left, skip text = .ok left ∧ left.takeWhile letter = rest.takeWhile letter)

/-- A blank in front of what the loop does with the rest. -/
theorem Skips.behind {text front later blank rest : Text} (whole : text = front ++ later)
    (isBlank : Blank front) (same : skip text = skip later) (skips : Skips later blank rest) :
    Skips text (front ++ blank) rest := by
  refine ⟨?_, isBlank.append skips.blank, skips.stuck, ?_⟩
  · rw [whole, skips.whole, List.append_assoc]
  · rw [same]
    exact skips.outcome

theorem skip_does (length : Nat) : ∀ {text : Text}, text.length ≤ length →
    text.length < 2 ^ 33 → ∃ blank rest, Skips text blank rest := by
  induction length with
  | zero =>
      intro text short _
      obtain rfl := List.length_eq_zero_iff.mp (Nat.le_zero.mp short)
      refine ⟨[], [], rfl, .nil, stuck_nil, Or.inr ⟨?_, [], ?_, rfl⟩⟩
      · rintro ⟨rest, is, -⟩
        cases is
      · exact skip_stop (by simp) (by simp)
  | succ length ih =>
      intro text short small
      obtain ⟨front, whole, spaces⟩ := split_spaces text
      have parts := congrArg List.length whole
      rw [List.length_append] at parts
      by_cases line : ∃ rest, text.dropWhile space = '-' :: '-' :: rest
      · obtain ⟨rest, opened⟩ := line
        have skips := skip_line opened
        obtain ⟨body, inner, plain⟩ := split_line rest
        have lengths := congrArg List.length inner
        rw [opened] at whole parts
        cases ended : rest.dropWhile fun c => !lineEnd c with
        | nil =>
            rw [ended, List.append_nil] at inner
            rw [← inner] at plain
            refine ⟨front, _, whole, spaces, stuck_line plain, Or.inr ⟨?_, [], ?_, rfl⟩⟩
            · rintro ⟨other, is, -⟩
              cases is
            · rw [skips, ended]
              exact skip_stop (by simp) (by simp)
        | cons c left =>
            have ends : lineEnd c = true := by
              simpa using dropWhile_head ended
            rw [ended] at inner skips lengths
            rw [skip_space (lineEnd_space ends)] at skips
            simp only [List.length_append, List.length_cons] at lengths parts
            have shorter : left.length ≤ length := by omega
            obtain ⟨blank, stop, later⟩ := ih shorter (by omega)
            have comment := Blank.line plain ends .nil
            refine ⟨_, stop, Skips.behind ?_ (spaces.append comment) skips later⟩
            rw [whole, inner]
            simp
      · by_cases block : ∃ rest, text.dropWhile space = '/' :: '*' :: rest
        · obtain ⟨rest, opened⟩ := block
          have skips := skip_block opened
          rw [opened] at whole parts
          simp only [List.length_cons] at parts
          by_cases closed : (skipBlock 1 rest).1 = 0
          · obtain ⟨body, is, inside⟩ :=
              (skipBlock_eq (by omega)).mp (Prod.ext closed rfl : skipBlock 1 rest = (0, _))
            have behind := skipBlock_left 1 rest
            have shorter : (skipBlock 1 rest).2.length ≤ length := by omega
            rw [if_neg (not_not.mpr closed)] at skips
            obtain ⟨blank, stop, later⟩ := ih shorter (by omega)
            have comment := Blank.block inside .nil
            refine ⟨_, stop, Skips.behind ?_ (spaces.append comment) skips later⟩
            rw [whole]
            nth_rewrite 1 [is]
            simp
          · rw [if_pos closed] at skips
            have never : Unterminated ('/' :: '*' :: rest) := by
              refine ⟨rest, rfl, ?_⟩
              intro body left inside is
              have passed := (skipBlock_eq (by omega)).mpr ⟨body, is, inside⟩
              rw [passed] at closed
              exact closed rfl
            exact ⟨front, _, whole, spaces, stuck_block never, Or.inl ⟨skips, never⟩⟩
        · rw [not_exists] at line block
          have stuck : Stuck (text.dropWhile space) := by
            cases is : text.dropWhile space with
            | nil => exact stuck_nil
            | cons c rest =>
                rw [is] at line block
                exact stuck_plain (dropWhile_head is) line block
          refine ⟨front, _, whole, spaces, stuck, Or.inr ⟨?_, _, skip_stop line block, rfl⟩⟩
          rintro ⟨rest, is, -⟩
          exact block rest is

/-- The upper-cased run of letters that a text begins with. -/
def run (text : Text) : Text := (text.takeWhile letter).map upper

/-- `FirstKeyword` behind the longest blank. -/
theorem firstKeyword_eq {text : Text} (small : text.length < 2 ^ 33) :
    ∃ blank rest, text = blank ++ rest ∧ Blank blank ∧ Stuck rest ∧
      (Unterminated rest → firstKeyword text = .error .unterminated) ∧
      (¬ Unterminated rest → firstKeyword text =
        if run rest = [] then .error .noKeyword else .ok (run rest)) := by
  obtain ⟨blank, rest, whole, isBlank, stuck, outcome⟩ := skip_does text.length (le_refl _) small
  refine ⟨blank, rest, whole, isBlank, stuck, ?_, ?_⟩
  · intro unterminated
    rcases outcome with ⟨skips, -⟩ | ⟨never, -⟩
    · rw [firstKeyword, skips]
      rfl
    · exact absurd unterminated never
  · intro never
    rcases outcome with ⟨-, unterminated⟩ | ⟨-, left, skips, same⟩
    · exact absurd unterminated never
    · rw [firstKeyword, skips, run, ← same]
      rfl

/-- Any decomposition at a blank behind which none begins gives the keyword. -/
theorem firstKeyword_behind {text blank rest : Text} (small : text.length < 2 ^ 33)
    (whole : text = blank ++ rest) (isBlank : Blank blank) (stuck : Stuck rest) :
    (Unterminated rest → firstKeyword text = .error .unterminated) ∧
      (¬ Unterminated rest → firstKeyword text =
        if run rest = [] then .error .noKeyword else .ok (run rest)) := by
  obtain ⟨other, left, same, isBlank', stuck', does⟩ := firstKeyword_eq small
  have equal := whole.symm.trans same
  rw [whole] at small
  have first := blank_unique isBlank isBlank' stuck equal small
  have second := blank_unique isBlank' isBlank stuck' equal.symm (by rw [← equal]; exact small)
  obtain ⟨-, rfl⟩ := List.append_inj equal (le_antisymm second first)
  exact does

/-! ## What the guard lets through -/

theorem stuck_of_run {rest : Text} (word : run rest ≠ []) : Stuck rest ∧ ¬ Unterminated rest := by
  cases rest with
  | nil => exact absurd rfl word
  | cons c rest =>
      have isLetter : letter c = true := by
        by_contra other
        refine word ?_
        rw [run, List.takeWhile_cons_of_neg other]
        rfl
      have noSpace : space c = false := by
        by_contra isSpace
        rw [Bool.not_eq_false] at isSpace
        simp only [space, Bool.or_eq_true, beq_iff_eq] at isSpace
        rcases isSpace with ((((rfl | rfl) | rfl) | rfl) | rfl) | rfl <;>
          exact absurd isLetter (by decide)
      refine ⟨stuck_plain noSpace ?_ ?_, ?_⟩
      · rintro left is
        rw [(List.cons.inj is).1] at isLetter
        exact absurd isLetter (by decide)
      · rintro left is
        rw [(List.cons.inj is).1] at isLetter
        exact absurd isLetter (by decide)
      · rintro ⟨left, is, -⟩
        rw [(List.cons.inj is).1] at isLetter
        exact absurd isLetter (by decide)

/-- A blank in front changes nothing. -/
theorem firstKeyword_blank {blank text : Text} (isBlank : Blank blank)
    (small : (blank ++ text).length < 2 ^ 33) :
    firstKeyword (blank ++ text) = firstKeyword text := by
  have shorter : text.length < 2 ^ 33 := by
    rw [List.length_append] at small
    omega
  obtain ⟨front, rest, whole, isFront, stuck, open', ends⟩ := firstKeyword_eq shorter
  have both := firstKeyword_behind small (by rw [whole, List.append_assoc])
    (isBlank.append isFront) stuck
  by_cases unterminated : Unterminated rest
  · rw [open' unterminated, both.1 unterminated]
  · rw [ends unterminated, both.2 unterminated]

def QueryInput.Within (input : QueryInput) : Prop :=
  input.sql ≠ [] ∧ input.sql.length ≤ maxSql ∧ nul ∉ input.sql

theorem QueryInput.validate_within {input : QueryInput} (within : input.Within) :
    input.validate = if input.parameters.length > 64 then .error .manyParameters
      else checkParameters 0 input.parameters >>= fun bytes =>
        if bytes > 65536 then .error .largeParameters else .ok () := by
  unfold QueryInput.validate
  refine if_neg ?_
  rintro (empty | long | zero)
  · exact within.1 empty
  · exact absurd within.2.1 (by omega)
  · exact within.2.2 zero

theorem validateQuery_outside {input : QueryInput} (outside : ¬ input.Within) :
    validateQuery input = .error .sqlText := by
  have fails : input.validate = .error .sqlText := by
    unfold QueryInput.validate
    refine if_pos ?_
    by_contra inside
    simp only [not_or, not_lt] at inside
    exact outside ⟨inside.1, inside.2.1, inside.2.2⟩
  rw [validateQuery, fails]
  rfl

theorem validateQuery_blank {blank sql : Text} (isBlank : Blank blank)
    (parameters : List (Option Parameter)) (filled : sql ≠ [])
    (within : QueryInput.Within ⟨blank ++ sql, parameters⟩) :
    validateQuery ⟨blank ++ sql, parameters⟩ = validateQuery ⟨sql, parameters⟩ := by
  obtain ⟨-, short, noNul⟩ := within
  simp only at short noNul
  have short' := short
  rw [List.length_append] at short'
  have behind : QueryInput.Within ⟨sql, parameters⟩ :=
    ⟨filled, by simp only; omega, fun zero => noNul (List.mem_append_right _ zero)⟩
  have front : QueryInput.Within ⟨blank ++ sql, parameters⟩ := ⟨by simp [filled], short, noNul⟩
  have small : (blank ++ sql).length < 2 ^ 33 := by
    unfold maxSql at short
    omega
  have same := firstKeyword_blank isBlank small
  rw [validateQuery, validateQuery, QueryInput.validate_within front,
    QueryInput.validate_within behind, same]

theorem prohibited_filled {word : Text} (among : word ∈ prohibited) : word ≠ [] := by
  rintro rfl
  exact absurd among (by decide)

theorem validateQuery_prohibited {input : QueryInput} {blank rest : Text}
    (whole : input.sql = blank ++ rest) (isBlank : Blank blank) (among : run rest ∈ prohibited) :
    validateQuery input ≠ .ok () := by
  intro does
  by_cases within : input.Within
  · obtain ⟨stuck, never⟩ := stuck_of_run (prohibited_filled among)
    have short := within.2.1
    have keyword := (firstKeyword_behind (by unfold maxSql at short; omega) whole isBlank stuck).2
      never
    rw [if_neg (prohibited_filled among)] at keyword
    obtain ⟨_, -, does⟩ := bind_eq_ok.mp does
    obtain ⟨word, is, does⟩ := bind_eq_ok.mp does
    rw [keyword] at is
    cases is
    rw [if_pos (List.contains_iff_mem.mpr among)] at does
    cases does
  · rw [validateQuery_outside within] at does
    cases does

/-- The guard gives one answer with a blank in front and without it, and refuses a
prohibited word behind any blank.  The keyword is the run of letters behind the longest
blank, as long as the depth of comments does not wrap. -/
theorem guard_sees_keyword :
    (∀ (blank sql : Text) (parameters : List (Option Parameter)), Blank blank →
      QueryInput.Within ⟨blank ++ sql, parameters⟩ →
      (validateQuery ⟨blank ++ sql, parameters⟩ = .ok () ↔
        validateQuery ⟨sql, parameters⟩ = .ok ()) ∧
      (sql ≠ [] →
        validateQuery ⟨blank ++ sql, parameters⟩ = validateQuery ⟨sql, parameters⟩)) ∧
    (∀ text : Text, text.length < 2 ^ 33 →
      ∃ blank rest, text = blank ++ rest ∧ Blank blank ∧
        (∀ other left, text = other ++ left → Blank other → other.length ≤ blank.length) ∧
        (Unterminated rest → firstKeyword text = .error .unterminated) ∧
        (¬ Unterminated rest → firstKeyword text =
          if run rest = [] then .error .noKeyword else .ok (run rest))) ∧
    ∀ (input : QueryInput) (blank rest : Text), input.sql = blank ++ rest → Blank blank →
      run rest ∈ prohibited → validateQuery input ≠ .ok () := by
  refine ⟨?_, ?_, fun _ _ _ => validateQuery_prohibited⟩
  · intro blank sql parameters isBlank within
    refine ⟨?_, fun filled => validateQuery_blank isBlank parameters filled within⟩
    by_cases filled : sql = []
    · subst filled
      have outside : ¬ QueryInput.Within ⟨[], parameters⟩ := fun inside => inside.1 rfl
      have short : (blank ++ []).length ≤ maxSql := within.2.1
      have small : (blank ++ []).length < 2 ^ 33 := by
        unfold maxSql at short
        omega
      have never : ¬ Unterminated [] := by
        rintro ⟨rest, is, -⟩
        cases is
      have keyword := (firstKeyword_behind small rfl isBlank stuck_nil).2 never
      rw [validateQuery_outside outside]
      constructor
      · intro does
        obtain ⟨_, -, does⟩ := bind_eq_ok.mp does
        obtain ⟨word, is, -⟩ := bind_eq_ok.mp does
        rw [keyword] at is
        cases is
      · intro does
        cases does
    · rw [validateQuery_blank isBlank parameters filled within]
  · intro text small
    obtain ⟨blank, rest, whole, isBlank, stuck, does⟩ := firstKeyword_eq small
    refine ⟨blank, rest, whole, isBlank, ?_, does⟩
    intro other left same isOther
    rw [whole] at small
    exact blank_unique isBlank isOther stuck (whole.symm.trans same) small

theorem guard_sees_keyword_commit :
    validateQuery ⟨" /*x*/ cOmmit".toList, []⟩ ≠ .ok () := by
  have blank : Blank " /*x*/ ".toList :=
    .space (by decide) (Blank.block (.byte (by decide) (.nil _)) (.space (by decide) .nil))
  exact guard_sees_keyword.2.2 ⟨" /*x*/ cOmmit".toList, []⟩ " /*x*/ ".toList "cOmmit".toList rfl
    blank (by decide)

/-- The text `/*` so many times. -/
def openers (count : Nat) : Text := (List.replicate count ['/', '*']).flatten

theorem openers_succ (count : Nat) (text : Text) :
    openers (count + 1) ++ text = '/' :: '*' :: (openers count ++ text) := by
  simp [openers, List.replicate_succ]

theorem skipBlock_openers (text : Text) (count : Nat) : ∀ {depth : Nat},
    depth + 1 + count < 2 ^ 32 →
      skipBlock (depth + 1) (openers count ++ text) = skipBlock (depth + 1 + count) text := by
  induction count with
  | zero => exact fun _ => rfl
  | succ count ih =>
      intro depth small
      rw [openers_succ, skipBlock, Nat.mod_eq_of_lt (by omega), ih (by omega)]
      congr 1
      omega

theorem inside_openers {body next : Text} (inside : Inside body next) :
    ∀ (count : Nat) (word : Text), next.head? = some '*' → '*' ∉ word → '/' ∉ word →
      body ++ next ≠ openers count ++ word := by
  induction inside with
  | nil next =>
      intro count word head noStar _ is
      rw [List.nil_append] at is
      cases count with
      | zero =>
          rw [openers, List.replicate_zero, List.flatten_nil, List.nil_append] at is
          rw [is] at head
          exact noStar (List.mem_of_mem_head? head)
      | succ count =>
          rw [openers_succ] at is
          rw [is] at head
          cases head
  | @byte c rest next plain _ ih =>
      intro count word head noStar noSlash is
      cases count with
      | zero =>
          rw [openers, List.replicate_zero, List.flatten_nil, List.nil_append] at is
          refine noStar ?_
          rw [← is]
          exact List.mem_cons_of_mem _ (List.mem_append_right _ (List.mem_of_mem_head? head))
      | succ count =>
          rw [openers_succ, List.cons_append] at is
          obtain ⟨rfl, behind⟩ := List.cons.inj is
          rw [behind] at plain
          exact absurd plain (by simp [marker])
  | block _ _ first _ =>
      intro count word head noStar noSlash is
      cases count with
      | zero =>
          rw [openers, List.replicate_zero, List.flatten_nil, List.nil_append] at is
          refine noSlash ?_
          rw [← is]
          exact List.mem_cons_self ..
      | succ count =>
          rw [openers_succ] at is
          simp only [List.cons_append, List.append_assoc, List.cons.injEq, true_and] at is
          exact first count word rfl noStar noSlash is

theorem openers_concat (count : Nat) (text : Text) :
    openers (count + 1) ++ text = openers count ++ '/' :: '*' :: text := by
  simp [openers, List.replicate_succ']

/-- So many comments that the depth wraps are no unterminated comment to the loop. -/
theorem firstKeyword_wraps :
    Unterminated (openers (2 ^ 32) ++ "SELECT".toList) ∧
      firstKeyword (openers (2 ^ 32) ++ "SELECT".toList) = .ok "SELECT".toList := by
  obtain ⟨count, wraps⟩ : ∃ count, count + 2 = 2 ^ 32 := ⟨2 ^ 32 - 2, by norm_num⟩
  have first : openers (2 ^ 32) ++ "SELECT".toList =
      '/' :: '*' :: (openers (count + 1) ++ "SELECT".toList) := by
    rw [← openers_succ, ← wraps]
  have passed : skipBlock 1 (openers (count + 1) ++ "SELECT".toList) = (0, "SELECT".toList) := by
    have deep : skipBlock (0 + 1) (openers count ++ '/' :: '*' :: "SELECT".toList) =
        skipBlock (0 + 1 + count) ('/' :: '*' :: "SELECT".toList) :=
      skipBlock_openers _ count (by omega)
    rw [openers_concat]
    rw [Nat.zero_add, Nat.add_comm, skipBlock, wraps, Nat.mod_self, skipBlock] at deep
    exact deep
  rw [first]
  refine ⟨⟨_, rfl, ?_⟩, ?_⟩
  · intro body left inside is
    have behind : Inside body ('*' :: '/' :: left) := inside.before rfl
    exact inside_openers behind (count + 1) "SELECT".toList rfl (by decide) (by decide) is.symm
  · have skips : skip ('/' :: '*' :: (openers (count + 1) ++ "SELECT".toList)) = _ :=
      skip_block rfl
    have stops : skip "SELECT".toList = .ok "SELECT".toList :=
      skip_stop (by simp [space]) (by simp [space])
    rw [passed, if_neg (by simp), stops] at skips
    rw [firstKeyword, skips]
    decide

end Source2Root.Postgres
