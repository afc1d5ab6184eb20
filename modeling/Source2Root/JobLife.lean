import Source2Root.WorkQueue

/-!
# The life of one job

What a single job may go through, said without the queue: an automaton over the
queue's labels that only listens to the labels of its own job and to the three
labels that concern every job.  The ordering facts of the protocol are facts
about this automaton; the queue has them because every run of the queue is a
run of the automaton of each of its jobs.
-/

set_option autoImplicit false

namespace Source2Root.WorkQueue

open Transition

inductive Phase where
  | fresh
  | waiting
  | took
  | working
  | finished
  | ready
  | popped
  | calling
  | answered (answer : Answer)
  | releasing
  | gone
deriving DecidableEq, Repr

/-- `served` says that the completion was called in the present dispatch. -/
structure Life where
  phase : Phase := .fresh
  canceled : Bool := false
  started : Bool := false
  ended : Bool := false
  spent : Bool := false
  served : Bool := false
deriving DecidableEq, Repr

/-- The job a label is about. -/
def Label.job? : Label → Option Nat
  | .submit j | .cancel j | .take _ j | .workStart _ j | .workSkip _ j | .workEnd _ j _
  | .publish _ j | .pop j | .call j | .skip j | .answer j _ | .release j | .erase j
  | .retain j => some j
  | .refuse | .exit _ | .dispatch _ | .recursive | .done | .stop | .join => none

/-- A label about this job. -/
def Life.advance (life : Life) : Label → Option Life
  | .submit _ => if life.phase = .fresh then some { life with phase := .waiting } else none
  | .cancel _ => if life.phase ≠ .fresh then some { life with canceled := true } else none
  | .take _ _ => if life.phase = .waiting then some { life with phase := .took } else none
  | .workStart _ _ =>
      if life.phase = .took ∧ life.canceled = false then
        some { life with phase := .working, started := true }
      else none
  | .workSkip _ _ =>
      if life.phase = .took ∧ life.canceled = true then some { life with phase := .finished }
      else none
  | .workEnd _ _ _ =>
      if life.phase = .working then some { life with phase := .finished, ended := true } else none
  | .publish _ _ => if life.phase = .finished then some { life with phase := .ready } else none
  | .pop _ => if life.phase = .ready then some { life with phase := .popped } else none
  | .call _ =>
      if life.phase = .popped ∧ life.canceled = false ∧ life.served = false then
        some { life with phase := .calling, served := true }
      else none
  | .skip _ =>
      if life.phase = .popped ∧ life.canceled = true then
        some { life with phase := .answered .consumed }
      else none
  | .answer _ answer =>
      if life.phase = .calling then
        some { life with phase := .answered answer, spent := life.spent || answer != .retained }
      else none
  | .release _ =>
      match life.phase with
      | .answered answer =>
          if answer ≠ .retained ∨ life.canceled = true then some { life with phase := .releasing }
          else none
      | _ => none
  | .erase _ => if life.phase = .releasing then some { life with phase := .gone } else none
  | .retain _ =>
      if life.phase = .answered .retained ∧ life.canceled = false then
        some { life with phase := .ready }
      else none
  | _ => none

/-- A label that concerns every job. -/
def Life.hear (life : Life) : Label → Option Life
  | .dispatch _ => some { life with served := false }
  | .stop =>
      if life.phase = .fresh ∨ life.phase = .gone then some life
      else some { life with canceled := true }
  | .join =>
      if life.phase = .fresh ∨ life.phase = .gone then some life
      else if life.canceled = true then some { life with phase := .gone }
      else none
  | _ => some life

def Life.next (j : Nat) (life : Life) (label : Label) : Option Life :=
  match label.job? with
  | some i => if i = j then life.advance label else some life
  | none => life.hear label

theorem Life.next_own {j : Nat} {life : Life} {label : Label} (own : label.job? = some j) :
    Life.next j life label = life.advance label := by
  simp [Life.next, own]

theorem Life.next_other {i j : Nat} {life : Life} {label : Label} (about : label.job? = some i)
    (other : i ≠ j) : Life.next j life label = some life := by
  simp [Life.next, about, other]

theorem Life.next_all {j : Nat} {life : Life} {label : Label} (about : label.job? = none) :
    Life.next j life label = life.hear label := by
  simp [Life.next, about]

/-! ## What the phases imply -/

structure Life.Sound (life : Life) : Prop where
  uncanceled : life.phase = .fresh → life.canceled = false
  unstarted : life.phase = .fresh ∨ life.phase = .waiting ∨ life.phase = .took →
    life.started = false
  ended : life.phase = .finished ∨ life.phase = .ready ∨ life.phase = .popped ∨
    life.phase = .calling ∨ life.phase = .answered .retained →
    life.ended = true ∨ life.canceled = true
  spent : life.spent = true → life.phase = .answered .consumed ∨ life.phase = .answered .threw ∨
    life.phase = .releasing ∨ life.phase = .gone
  settled : life.phase = .answered .consumed ∨ life.phase = .answered .threw ∨
    life.phase = .releasing ∨ life.phase = .gone → life.spent = true ∨ life.canceled = true

theorem Life.sound_start : Life.Sound {} := by
  constructor <;> simp

theorem Life.Sound.advance {life later : Life} {label : Label} (sound : life.Sound)
    (moved : life.advance label = some later) : later.Sound := by
  obtain ⟨uncanceled, unstarted, ended, spent, settled⟩ := sound
  cases label with
  | release j =>
      simp only [Life.advance] at moved
      split at moved
      · rename_i answer phase
        simp only [Option.ite_none_right_eq_some, Option.some.injEq] at moved
        obtain ⟨final, rfl⟩ := moved
        refine ⟨by simp, by simp, by simp, by simp, ?_⟩
        intro _
        cases answer with
        | retained => exact Or.inr (by simpa using final)
        | consumed => exact settled (Or.inl phase)
        | threw => exact settled (Or.inr (Or.inl phase))
      · cases moved
  | answer j answer =>
      simp only [Life.advance, Option.ite_none_right_eq_some, Option.some.injEq] at moved
      obtain ⟨phase, rfl⟩ := moved
      have unspent : life.spent = false := by simpa [phase] using spent
      have worked := ended (by simp [phase])
      refine ⟨by simp, by simp, fun _ => worked, ?_, ?_⟩ <;> cases answer <;> simp [unspent]
  | cancel j =>
      simp only [Life.advance, Option.ite_none_right_eq_some, Option.some.injEq] at moved
      obtain ⟨phase, rfl⟩ := moved
      exact ⟨fun fresh => absurd fresh phase, unstarted, fun _ => Or.inr rfl, spent,
        fun _ => Or.inr rfl⟩
  | refuse | exit | dispatch | recursive | done | stop | join => cases moved
  | _ =>
      -- Each remaining label starts from one phase and ends in one.
      simp only [Life.advance, Option.ite_none_right_eq_some, Option.some.injEq] at moved
      obtain ⟨guard, rfl⟩ := moved
      constructor <;> simp_all

theorem Life.Sound.hear {life later : Life} {label : Label} (sound : life.Sound)
    (moved : life.hear label = some later) : later.Sound := by
  obtain ⟨uncanceled, unstarted, ended, spent, settled⟩ := sound
  cases label with
  | stop =>
      simp only [Life.hear] at moved
      split at moved
      · cases moved
        exact ⟨uncanceled, unstarted, ended, spent, settled⟩
      · rename_i placed
        cases moved
        exact ⟨fun fresh => absurd (Or.inl fresh) placed, unstarted, fun _ => Or.inr rfl, spent,
          fun _ => Or.inr rfl⟩
  | join =>
      simp only [Life.hear] at moved
      split at moved
      · cases moved
        exact ⟨uncanceled, unstarted, ended, spent, settled⟩
      · simp only [Option.ite_none_right_eq_some, Option.some.injEq] at moved
        obtain ⟨canceled, rfl⟩ := moved
        exact ⟨by simp, by simp, by simp, by simp, fun _ => Or.inr canceled⟩
  | _ =>
      cases Option.some.inj moved
      exact ⟨uncanceled, unstarted, ended, spent, settled⟩

theorem Life.Sound.next {j : Nat} {life later : Life} {label : Label} (sound : life.Sound)
    (moved : Life.next j life label = some later) : later.Sound := by
  cases about : label.job? with
  | none => exact sound.hear (Life.next_all about ▸ moved)
  | some i =>
      by_cases own : i = j
      · subst own
        exact sound.advance (Life.next_own about ▸ moved)
      · rw [Life.next_other about own] at moved
        cases moved
        exact sound

/-! ## What the fields remember -/

def startsWork (j : Nat) : Label → Bool
  | .workStart _ i => i == j
  | _ => false

def endsWork (j : Nat) : Label → Bool
  | .workEnd _ i _ => i == j
  | _ => false

/-- The completion of the job answered true or threw. -/
def spends (j : Nat) : Label → Bool
  | .answer i answer => i == j && answer != .retained
  | _ => false

def calls (j : Nat) : Label → Bool
  | .call i => i == j
  | _ => false

def isDispatch : Label → Bool
  | .dispatch _ => true
  | _ => false

/-- The fields of a life against the labels already seen. -/
structure Recorded (j : Nat) (history : List Label) (life : Life) : Prop where
  started : life.started = history.any (startsWork j)
  ended : life.ended = history.any (endsWork j)
  spent : life.spent = history.any (spends j)
  submitted : life.phase = .fresh ↔ Label.submit j ∉ history
  canceled : Label.cancel j ∈ history → life.canceled = true
  cause : life.canceled = true → Label.cancel j ∈ history ∨ Label.stop ∈ history
  served : ∀ before after, history = before ++ .call j :: after →
    life.served = true ∨ ∃ label ∈ after, isDispatch label = true

theorem recorded_start (j : Nat) : Recorded j [] {} := by
  constructor <;> simp

/-- What one label adds to the fields. -/
structure Life.Change (j : Nat) (label : Label) (life later : Life) : Prop where
  started : later.started = (life.started || startsWork j label)
  ended : later.ended = (life.ended || endsWork j label)
  spent : later.spent = (life.spent || spends j label)
  fresh : later.phase = .fresh ↔ life.phase = .fresh ∧ label ≠ .submit j
  cause : later.canceled = true → life.canceled = true ∨ label = .cancel j ∨ label = .stop
  canceled : life.canceled = true ∨ label = .cancel j → later.canceled = true
  kept : life.served = true → later.served = true ∨ isDispatch label = true
  called : label = .call j → later.served = true

theorem Life.next_change {j : Nat} {life later : Life} {label : Label}
    (moved : Life.next j life label = some later) : Life.Change j label life later := by
  cases about : label.job? with
  | none =>
      rw [Life.next_all about] at moved
      cases label with
      | stop =>
          simp only [Life.hear] at moved
          split at moved <;> cases moved <;> constructor <;> simp_all [startsWork, endsWork, spends, isDispatch]
      | join =>
          simp only [Life.hear] at moved
          split at moved
          · cases moved
            constructor <;> simp [startsWork, endsWork, spends, isDispatch]
          · simp only [Option.ite_none_right_eq_some, Option.some.injEq] at moved
            obtain ⟨canceled, rfl⟩ := moved
            constructor <;> simp_all [startsWork, endsWork, spends, isDispatch]
      | refuse | exit | dispatch | recursive | done =>
          cases Option.some.inj moved
          constructor <;> simp [startsWork, endsWork, spends, isDispatch]
      | _ => cases about
  | some i =>
      by_cases own : i = j
      · subst own
        rw [Life.next_own about] at moved
        cases label with
        | refuse | exit | dispatch | recursive | done | stop | join => cases moved
        | release k =>
            simp only [Life.advance] at moved
            split at moved
            · rename_i answer phase
              simp only [Option.ite_none_right_eq_some, Option.some.injEq] at moved
              obtain ⟨-, rfl⟩ := moved
              constructor <;> simp [phase, startsWork, endsWork, spends, isDispatch]
            · cases moved
        | _ =>
            cases about
            simp only [Life.advance, Option.ite_none_right_eq_some, Option.some.injEq] at moved
            obtain ⟨guard, rfl⟩ := moved
            constructor <;> simp_all [startsWork, endsWork, spends, isDispatch]
      · rw [Life.next_other about own] at moved
        cases moved
        cases label <;> cases about <;> constructor <;>
          simp_all [startsWork, endsWork, spends, isDispatch]

theorem Recorded.next {j : Nat} {history : List Label} {life later : Life} {label : Label}
    (recorded : Recorded j history life) (moved : Life.next j life label = some later) :
    Recorded j (history ++ [label]) later := by
  have change := Life.next_change moved
  refine ⟨?_, ?_, ?_, ?_, ?_, ?_, ?_⟩
  · simp [change.started, recorded.started]
  · simp [change.ended, recorded.ended]
  · simp [change.spent, recorded.spent]
  · rw [change.fresh, recorded.submitted]
    simp [eq_comm]
  · intro member
    rcases List.mem_append.mp member with old | new
    · exact change.canceled (Or.inl (recorded.canceled old))
    · exact change.canceled (Or.inr (List.mem_singleton.mp new).symm)
  · intro flag
    rcases change.cause flag with old | rfl | rfl
    · exact (recorded.cause old).imp (List.mem_append_left _) (List.mem_append_left _)
    · exact Or.inl (by simp)
    · exact Or.inr (by simp)
  · intro before after split
    rcases concat_split split with ⟨rfl, rfl, called⟩ | ⟨rest, rfl, same⟩
    · exact Or.inl (change.called called)
    · rcases recorded.served before rest same with flag | ⟨mark, member, dispatch⟩
      · rcases change.kept flag with kept | dispatch
        · exact Or.inl kept
        · exact Or.inr ⟨label, by simp, dispatch⟩
      · exact Or.inr ⟨mark, List.mem_append_left _ member, dispatch⟩

/-! ## The order of a job's events -/

theorem Life.next_start {j : Nat} {life later : Life} {label : Label}
    (moved : Life.next j life label = some later) (starts : startsWork j label = true) :
    life.phase = .took := by
  cases label with
  | workStart w i =>
      have own : i = j := by simpa [startsWork] using starts
      rw [Life.next_own (by simp [Label.job?, own])] at moved
      simp only [Life.advance, Option.ite_none_right_eq_some] at moved
      exact moved.1.1
  | _ => cases starts

theorem Life.next_call {j : Nat} {life later : Life}
    (moved : Life.next j life (.call j) = some later) :
    life.phase = .popped ∧ life.canceled = false ∧ life.served = false := by
  rw [Life.next_own rfl] at moved
  simp only [Life.advance, Option.ite_none_right_eq_some] at moved
  exact moved.1

/-- The order every run keeps among the events of one job. -/
structure Ordered (j : Nat) (history : List Label) : Prop where
  once : NeverAfter (startsWork j · = true) (startsWork j · = true) history
  worked : OnlyAfter (endsWork j · = true) (· = .call j) history
  spent : NeverAfter (spends j · = true) (· = .call j) history
  canceled : NeverAfter (· = .cancel j) (· = .call j) history
  again : ∀ before between after,
    history = before ++ .call j :: (between ++ .call j :: after) →
      ∃ label ∈ between, isDispatch label = true

theorem Ordered.next {j : Nat} {history : List Label} {life later : Life} {label : Label}
    (ordered : Ordered j history) (recorded : Recorded j history life) (sound : life.Sound)
    (moved : Life.next j life label = some later) : Ordered j (history ++ [label]) := by
  refine ⟨?_, ?_, ?_, ?_, ?_⟩
  · apply ordered.once.concat
    intro starts e member marked
    have unstarted := sound.unstarted (Or.inr (Or.inr (Life.next_start moved starts)))
    rw [recorded.started, List.any_eq_false] at unstarted
    exact unstarted e member marked
  · apply ordered.worked.concat
    rintro rfl
    obtain ⟨phase, live, -⟩ := Life.next_call moved
    have worked := sound.ended (by simp [phase])
    rw [live, recorded.ended] at worked
    simpa using worked
  · apply ordered.spent.concat
    rintro rfl e member marked
    obtain ⟨phase, -, -⟩ := Life.next_call moved
    have spent : life.spent = true := by
      rw [recorded.spent]
      exact List.any_eq_true.mpr ⟨e, member, marked⟩
    simpa [phase] using sound.spent spent
  · apply ordered.canceled.concat
    rintro rfl e member rfl
    obtain ⟨-, live, -⟩ := Life.next_call moved
    rw [recorded.canceled member] at live
    cases live
  · intro before between after split
    have shaped : history ++ [label] = (before ++ .call j :: between) ++ .call j :: after := by
      simpa using split
    rcases concat_split shaped with ⟨-, same, rfl⟩ | ⟨rest, -, same⟩
    · obtain ⟨-, -, unserved⟩ := Life.next_call moved
      rcases recorded.served before between same.symm with served | found
      · rw [unserved] at served
        cases served
      · exact found
    · exact ordered.again before between rest (by simpa using same)

theorem Life.run_ordered (j : Nat) : ∀ history life,
    run (Life.next j) {} history = some life →
      Recorded j history life ∧ life.Sound ∧ Ordered j history := by
  refine history_induction ⟨recorded_start j, Life.sound_start, ?_⟩ ?_
  · exact ⟨neverAfter_nil _ _, onlyAfter_nil _ _, neverAfter_nil _ _, neverAfter_nil _ _, by simp⟩
  · intro history life label later ⟨recorded, sound, ordered⟩ moved
    exact ⟨recorded.next moved, sound.next moved, ordered.next recorded sound moved⟩

end Source2Root.WorkQueue
