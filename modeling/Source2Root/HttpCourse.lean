import Source2Root.HttpRequests

/-!
# The course of one request

What a single request may go through, said without the extension: an automaton over what
happened that listens to what is about its own request and to the loss of its token.  The
order of what happens to a request is a fact about this automaton.
-/

set_option autoImplicit false

namespace Source2Root.HttpRequests

open Transition
open Source2Root.Http

/-- `called` and `missed` are the two ends of a request that was answered. -/
inductive Stage where
  | building
  | sent
  | complete
  | called
  | missed
  | canceled
deriving DecidableEq, Repr

/-- What was sent, once it was, and what came of it. -/
structure Course where
  stage : Stage := .building
  job : Nat := 0
  input : Http.Request := { url := [] }
  data : Int := 0
  token : Token := 0
  handle : Int := 0
  transferred : Bool := false
  /-- What the work came to. -/
  outcome : Option (Except String Response) := none
  result : Except String Response := .ok {}
  lost : Bool := false
  closed : Bool := false

/-- Sent and not answered yet. -/
def Course.pending (c : Course) : Bool :=
  (c.stage == .sent || c.stage == .complete) && !c.closed

/-- The request that something is about. -/
def Happening.request? : Happening → Option Nat
  | .sent id .. | .transferred id .. | .worked id .. | .completed id .. | .called id ..
  | .missed id | .canceled id | .closed id => some id
  | .captured _ | .dropped _ | .lost _ => none

/-- Something about this request happens. -/
def Course.advance (c : Course) : Happening → Option Course
  | .sent _ job input data token handle =>
      if c.stage = .building ∧ c.closed = false then
        some { c with stage := .sent, job, input, data, token, handle }
      else none
  | .transferred _ job input =>
      if c.stage = .sent ∧ c.closed = false ∧ c.transferred = false ∧ c.job = job ∧
          c.input = input then
        some { c with transferred := true }
      else none
  | .worked _ job result =>
      if c.transferred = true ∧ c.job = job ∧ c.outcome = none then
        some { c with outcome := some result }
      else none
  | .completed _ job result =>
      if c.stage = .sent ∧ c.closed = false ∧ c.job = job ∧ c.outcome = some result then
        some { c with stage := .complete, result }
      else none
  | .called _ token handle data error =>
      if c.stage = .complete ∧ c.closed = false ∧ c.lost = false ∧ c.token = token ∧
          c.handle = handle ∧ c.data = data ∧ errorOf c.result = error then
        some { c with stage := .called }
      else none
  | .missed _ =>
      if c.stage = .complete ∧ c.closed = false ∧ c.lost = true then
        some { c with stage := .missed }
      else none
  | .canceled _ => if c.pending then some { c with stage := .canceled } else none
  | .closed _ => if c.closed = false then some { c with closed := true } else none
  | .captured _ | .dropped _ | .lost _ => none

/-- The core has the token no more; that matters while it is to be used. -/
def Course.hear (c : Course) : Happening → Course
  | .lost token => if c.pending ∧ c.token = token then { c with lost := true } else c
  | _ => c

def Course.next (id : Nat) (c : Course) (e : Happening) : Option Course :=
  match e.request? with
  | some i => if i = id then c.advance e else some c
  | none => some (c.hear e)

/-- The course of a request, after all that happened. -/
def Course.of (id : Nat) (log : List Happening) : Option Course := run (Course.next id) {} log

variable {id i : Nat} {log events : List Happening} {e : Happening} {c later : Course}

theorem Course.of_concat :
    Course.of id (log ++ [e]) = (Course.of id log).bind (Course.next id · e) := by
  rw [Course.of, run_append]
  congr 1
  funext c
  simp only [run]
  cases Course.next id c e <;> rfl

theorem Course.of_snoc (was : Course.of id log = some c) :
    Course.of id (log ++ [e]) = Course.next id c e := by
  rw [Course.of_concat, was, Option.bind_some]

theorem Course.of_shorter (now : Course.of id (log ++ events) = some later) :
    ∃ c, Course.of id log = some c ∧ run (Course.next id) c events = some later := by
  rw [Course.of, run_append] at now
  exact Option.bind_eq_some_iff.mp now

theorem Course.next_own (own : e.request? = some id) : Course.next id c e = c.advance e := by
  rw [Course.next, own]
  exact if_pos rfl

theorem Course.next_other (about : e.request? = some i) (other : i ≠ id) :
    Course.next id c e = some c := by
  rw [Course.next, about]
  exact if_neg other

theorem Course.next_all (about : e.request? = none) : Course.next id c e = some (c.hear e) := by
  rw [Course.next, about]

/-! ## What the fields remember -/

/-- What ends the life of a request for the script: after it no function is called. -/
def Happening.ends (id : Nat) : Happening → Bool
  | .called i .. | .missed i | .canceled i | .closed i => i == id
  | _ => false

/-- The fields of a course against what happened. -/
structure Course.Recorded (id : Nat) (log : List Happening) (c : Course) : Prop where
  sent : c.stage ≠ .building → Happening.sent id c.job c.input c.data c.token c.handle ∈ log
  transferred : ∀ job input, Happening.transferred id job input ∈ log ↔
    c.transferred = true ∧ c.job = job ∧ c.input = input
  idle : c.stage = .building → c.transferred = false ∧ c.lost = false
  begun : c.outcome ≠ none → c.transferred = true
  worked : ∀ job result, Happening.worked id job result ∈ log ↔
    c.job = job ∧ c.outcome = some result
  found : c.stage = .complete → c.outcome = some c.result
  completed : c.stage = .complete ∨ c.stage = .called ∨ c.stage = .missed →
    Happening.completed id c.job c.result ∈ log
  ended : (∃ e ∈ log, e.ends id = true) ↔
    c.stage = .called ∨ c.stage = .missed ∨ c.stage = .canceled ∨ c.closed = true

theorem Course.recorded_start : Course.Recorded id [] {} := by
  constructor <;> simp

theorem Happening.ends_eq_false (other : e.request? ≠ some id) : e.ends id = false := by
  cases e <;> simp_all [Happening.ends, Happening.request?]

theorem exists_ends_snoc : (∃ other ∈ log ++ [e], other.ends id = true) ↔
    (∃ other ∈ log, other.ends id = true) ∨ e.ends id = true := by
  simp [or_and_right, exists_or]

theorem Course.Recorded.snoc (recorded : c.Recorded id log) (other : e.request? ≠ some id) :
    c.Recorded id (log ++ [e]) := by
  have silent := Happening.ends_eq_false other
  have untransferred (job : Nat) (input : Http.Request) :
      Happening.transferred id job input ≠ e := fun same => other (same ▸ rfl)
  have unworked (job : Nat) (result : Except String Response) :
      Happening.worked id job result ≠ e := fun same => other (same ▸ rfl)
  obtain ⟨sent, transferred, idle, begun, worked, found, completed, ended⟩ := recorded
  refine ⟨fun h => List.mem_append_left _ (sent h), ?_, idle, begun, ?_, found,
    fun h => List.mem_append_left _ (completed h), ?_⟩
  · intro job input
    rw [List.mem_append, List.mem_singleton, or_iff_left (untransferred job input), transferred]
  · intro job result
    rw [List.mem_append, List.mem_singleton, or_iff_left (unworked job result), worked]
  · rw [exists_ends_snoc, ended]
    simp [silent]

theorem Course.Recorded.next (recorded : c.Recorded id log)
    (moved : Course.next id c e = some later) : later.Recorded id (log ++ [e]) := by
  by_cases own : e.request? = some id
  · rw [Course.next_own own] at moved
    obtain ⟨sent, transferred, idle, begun, worked, found, completed, ended⟩ := recorded
    have ended' := (exists_ends_snoc (e := e)).trans (or_congr_left ended)
    clear ended
    cases e with
    | captured token | dropped token | lost token => cases own
    | _ =>
        -- Each of these starts from the stages its guard names, and ends in one.
        cases own
        simp only [Course.advance, Option.ite_none_right_eq_some, Option.some.injEq] at moved
        obtain ⟨guard, rfl⟩ := moved
        refine ⟨?_, ?_, ?_, ?_, ?_, ?_, ?_, ended'.trans ?_⟩ <;> clear ended' <;>
          simp_all [Happening.ends, Course.pending] <;> grind
  · have same := recorded.snoc own
    cases about : e.request? with
    | none =>
        rw [Course.next_all about] at moved
        cases moved
        cases e with
        | lost token =>
            rw [Course.hear]
            split
            · rename_i heard
              obtain ⟨sent, transferred, idle, begun, worked, found, completed, ended⟩ := same
              refine ⟨sent, transferred, fun building => ?_, begun, worked, found, completed, ended⟩
              replace building : c.stage = .building := building
              simp [Course.pending, building] at heard
            · exact same
        | _ => exact same
    | some i =>
        rw [Course.next_other about fun same => own (about.trans (congrArg some same))] at moved
        cases moved
        exact same

theorem Course.recorded (now : Course.of id log = some c) : c.Recorded id log := by
  induction log using List.reverseRecOn generalizing c with
  | nil =>
      cases now
      exact Course.recorded_start
  | append_singleton log e ih =>
      rw [Course.of_concat] at now
      obtain ⟨before, was, moved⟩ := Option.bind_eq_some_iff.mp now
      exact (ih was).next moved

/-! ## What the work came to -/

/-- What is about the request finds the course that was then. -/
theorem Course.of_own {before after : List Happening}
    (now : Course.of id (before ++ e :: after) = some c) (own : e.request? = some id) :
    ∃ then_ later, Course.of id before = some then_ ∧ then_.advance e = some later := by
  obtain ⟨then_, was, moved⟩ := Course.of_shorter now
  obtain ⟨later, stepped, -⟩ := Option.bind_eq_some_iff.mp moved
  rw [Course.next_own own] at stepped
  exact ⟨then_, later, was, stepped⟩

theorem Course.of_worked {job : Nat} {result : Except String Response}
    {before after : List Happening}
    (now : Course.of id (before ++ .worked id job result :: after) = some c) :
    ∃ then_, Course.of id before = some then_ ∧ then_.transferred = true ∧ then_.job = job ∧
      then_.outcome = none := by
  obtain ⟨then_, later, was, moved⟩ := Course.of_own now rfl
  simp only [Course.advance, Option.ite_none_right_eq_some] at moved
  exact ⟨then_, was, moved.1⟩

/-- The work of a request ends once. -/
theorem Course.worked_once {job : Nat} {result : Except String Response}
    {before after : List Happening}
    (now : Course.of id (before ++ .worked id job result :: after) = some c) (job' : Nat)
    (other : Except String Response) : Happening.worked id job' other ∉ before ++ after := by
  intro member
  rcases List.mem_append.mp member with early | late
  · obtain ⟨then_, was, -, -, outcome⟩ := Course.of_worked now
    rw [((Course.recorded was).worked _ _).mp early |>.2] at outcome
    cases outcome
  · obtain ⟨front, back, rfl⟩ := List.append_of_mem late
    have split : before ++ .worked id job result :: (front ++ .worked id job' other :: back) =
        (before ++ .worked id job result :: front) ++ .worked id job' other :: back := by simp
    rw [split] at now
    obtain ⟨then_, was, -, -, outcome⟩ := Course.of_worked now
    rw [((Course.recorded was).worked job result).mp (by simp) |>.2] at outcome
    cases outcome

/-- A request is completed with what its work came to. -/
theorem Course.completed_found {job : Nat} {result : Except String Response}
    {before after : List Happening}
    (now : Course.of id (before ++ .completed id job result :: after) = some c) :
    Happening.worked id job result ∈ before := by
  obtain ⟨then_, later, was, moved⟩ := Course.of_own now rfl
  simp only [Course.advance, Option.ite_none_right_eq_some] at moved
  obtain ⟨-, -, own, found⟩ := moved.1
  exact ((Course.recorded was).worked job result).mpr ⟨own, found⟩

/-- A function is called with what was sent and after what the work came to was completed,
and nothing has ended the request before. -/
structure Owed (id : Nat) (token : Token) (handle data : Int) (error : String)
    (before : List Happening) : Prop where
  completed : ∃ job input result,
    Happening.sent id job input data token handle ∈ before ∧
      Happening.transferred id job input ∈ before ∧ Happening.worked id job result ∈ before ∧
        Happening.completed id job result ∈ before ∧ error = errorOf result
  unended : ∀ e ∈ before, e.ends id = false

theorem Course.owed {token : Token} {handle data : Int} {error : String}
    {before after : List Happening}
    (now : Course.of id (before ++ .called id token handle data error :: after) = some c) :
    Owed id token handle data error before := by
  obtain ⟨then_, later, was, stepped⟩ := Course.of_own now rfl
  simp only [Course.advance, Option.ite_none_right_eq_some] at stepped
  obtain ⟨⟨stage, open_, -, rfl, rfl, rfl, rfl⟩, -⟩ := stepped
  have recorded := Course.recorded was
  have found := recorded.found stage
  have transferred := recorded.begun (by simp [found])
  refine ⟨⟨then_.job, then_.input, then_.result, recorded.sent (by simp [stage]),
    (recorded.transferred _ _).mpr ⟨transferred, rfl, rfl⟩, (recorded.worked _ _).mpr ⟨rfl, found⟩,
    recorded.completed (Or.inl stage), rfl⟩, ?_⟩
  intro e member
  by_contra ends
  have ended := recorded.ended.mp ⟨e, member, by simpa using ends⟩
  simp [stage, open_] at ended

end Source2Root.HttpRequests
