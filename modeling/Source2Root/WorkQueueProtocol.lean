import Source2Root.JobLife

/-!
# The worker queue protocol

What every run of the worker queue keeps, whatever the number of workers and
the capacity and however the threads interleave.  `Step` says once what each
label can do.  The state invariant `Held` accounts for every job the queue
holds; the history invariants tie the events already seen to the place a job is
in, and the ordering facts about histories follow from them.
-/

set_option autoImplicit false

namespace Source2Root.WorkQueue

open Transition

/-! ## What one step does -/

inductive Step : State → Label → State → Prop
  | submit {s : State} (free : s.owner.free = true) (open_ : s.stopping = false)
      (room : s.jobs.length < s.capacity) :
      Step s (.submit s.submitted) { s with
        jobs := s.jobs ++ [s.submitted], waiting := s.waiting ++ [s.submitted],
        job := Function.update s.job s.submitted {}, submitted := s.submitted + 1 }
  | refuse {s : State} : Step s .refuse s
  | cancel {s : State} {j : Nat} (known : j < s.submitted) :
      Step s (.cancel j) (s.setJob j fun job => { job with canceled := true })
  | take {s : State} {w j : Nat} {rest : List Nat} (at_ : s.workers[w]? = some .waiting)
      (head : s.waiting = j :: rest) :
      Step s (.take w j) { s with waiting := rest, workers := s.workers.set w (.took j) }
  | workStart {s : State} {w j : Nat} (at_ : s.workers[w]? = some (.took j))
      (live : (s.job j).canceled = false) :
      Step s (.workStart w j) { s with workers := s.workers.set w (.working j) }
  | workSkip {s : State} {w j : Nat} (at_ : s.workers[w]? = some (.took j))
      (canceled : (s.job j).canceled = true) :
      Step s (.workSkip w j) { s with workers := s.workers.set w (.finished j) }
  | workEnd {s : State} {w j : Nat} {threw : Bool} (at_ : s.workers[w]? = some (.working j)) :
      Step s (.workEnd w j threw) { s.setJob j (fun job => { job with error := threw }) with
        workers := s.workers.set w (.finished j) }
  | publish {s : State} {w j : Nat} (at_ : s.workers[w]? = some (.finished j)) :
      Step s (.publish w j) { s with
        ready := s.ready ++ [j], workers := s.workers.set w .waiting }
  | exit {s : State} {w : Nat} (at_ : s.workers[w]? = some .waiting) :
      Step s (.exit w) { s with workers := s.workers.set w .exited }
  | dispatch {s : State} (idle : s.owner = .idle) :
      Step s (.dispatch s.ready.length) { s with owner := .loop s.ready.length }
  | recursive {s : State} : Step s .recursive s
  | pop {s : State} {j remaining : Nat} {rest : List Nat} (at_ : s.owner = .loop (remaining + 1))
      (head : s.ready = j :: rest) :
      Step s (.pop j) { s with ready := rest, owner := .popped j remaining }
  | call {s : State} {j remaining : Nat} (at_ : s.owner = .popped j remaining)
      (live : (s.job j).canceled = false) :
      Step s (.call j) { s with owner := .calling j remaining }
  | skip {s : State} {j remaining : Nat} (at_ : s.owner = .popped j remaining)
      (canceled : (s.job j).canceled = true) :
      Step s (.skip j) { s with owner := .answered j remaining .consumed }
  | answer {s : State} {j remaining : Nat} {outcome : Answer}
      (at_ : s.owner = .calling j remaining) :
      Step s (.answer j outcome) { s with owner := .answered j remaining outcome }
  | release {s : State} {j remaining : Nat} {outcome : Answer}
      (at_ : s.owner = .answered j remaining outcome)
      (spent : outcome ≠ .retained ∨ (s.job j).canceled = true) :
      Step s (.release j) { s.setJob j (fun job => { job with released := true, error := false }) with
        owner := .releasing j remaining (outcome == .threw) }
  | erase {s : State} {j remaining : Nat} {failure : Bool}
      (at_ : s.owner = .releasing j remaining failure) :
      Step s (.erase j) { s with
        jobs := s.jobs.filter (· ≠ j), owner := if failure then .idle else .loop remaining }
  | retain {s : State} {j remaining : Nat} (at_ : s.owner = .answered j remaining .retained)
      (live : (s.job j).canceled = false) :
      Step s (.retain j) { s with ready := s.ready ++ [j], owner := .loop remaining }
  | done {s : State} (at_ : s.owner = .loop 0) : Step s .done { s with owner := .idle }
  | stop {s : State} (idle : s.owner = .idle) :
      Step s .stop { s with
        stopping := true, owner := .joining,
        job := fun j => if j ∈ s.jobs then { s.job j with canceled := true } else s.job j }
  | join {s : State} (at_ : s.owner = .joining) (left : ∀ worker ∈ s.workers, worker = .exited) :
      Step s .join { s with
        owner := .stopped, jobs := [], ready := [], waiting := [],
        job := fun j =>
          if j ∈ s.jobs then { s.job j with released := true, error := false } else s.job j }

theorem next_step {s t : State} {label : Label} (stepped : next s label = some t) :
    Step s label t := by
  cases label with
  | submit j =>
      simp only [next, submit, Option.ite_none_right_eq_some, Option.some.injEq] at stepped
      obtain ⟨⟨free, open_, room, rfl⟩, rfl⟩ := stepped
      exact .submit free open_ room
  | refuse =>
      simp only [next, refuse, Option.ite_none_right_eq_some, Option.some.injEq] at stepped
      obtain ⟨-, rfl⟩ := stepped
      exact .refuse
  | cancel j =>
      simp only [next, cancel, Option.ite_none_right_eq_some, Option.some.injEq] at stepped
      obtain ⟨⟨-, known⟩, rfl⟩ := stepped
      exact .cancel known
  | take w j =>
      simp only [next, take] at stepped
      split at stepped
      · rename_i head rest at_ waiting
        simp only [Option.ite_none_right_eq_some, Option.some.injEq] at stepped
        obtain ⟨rfl, rfl⟩ := stepped
        exact .take at_ waiting
      · cases stepped
  | workStart w j =>
      simp only [next, workStart, Option.ite_none_right_eq_some, Option.some.injEq] at stepped
      obtain ⟨⟨at_, live⟩, rfl⟩ := stepped
      exact .workStart at_ live
  | workSkip w j =>
      simp only [next, workSkip, Option.ite_none_right_eq_some, Option.some.injEq] at stepped
      obtain ⟨⟨at_, canceled⟩, rfl⟩ := stepped
      exact .workSkip at_ canceled
  | workEnd w j threw =>
      simp only [next, workEnd, Option.ite_none_right_eq_some, Option.some.injEq] at stepped
      obtain ⟨at_, rfl⟩ := stepped
      exact .workEnd at_
  | publish w j =>
      simp only [next, publish, Option.ite_none_right_eq_some, Option.some.injEq] at stepped
      obtain ⟨at_, rfl⟩ := stepped
      exact .publish at_
  | exit w =>
      simp only [next, exit] at stepped
      split at stepped
      · rename_i at_ _
        simp only [Option.ite_none_right_eq_some, Option.some.injEq] at stepped
        obtain ⟨-, rfl⟩ := stepped
        exact .exit at_
      · cases stepped
  | dispatch ready =>
      simp only [next, dispatch, Option.ite_none_right_eq_some, Option.some.injEq] at stepped
      obtain ⟨⟨idle, rfl⟩, rfl⟩ := stepped
      exact .dispatch idle
  | recursive =>
      simp only [next, recursive, Option.ite_none_right_eq_some, Option.some.injEq] at stepped
      obtain ⟨-, rfl⟩ := stepped
      exact .recursive
  | pop j =>
      simp only [next, pop] at stepped
      split at stepped
      · rename_i remaining head rest at_ ready
        simp only [Option.ite_none_right_eq_some, Option.some.injEq] at stepped
        obtain ⟨rfl, rfl⟩ := stepped
        exact .pop at_ ready
      · cases stepped
  | call j =>
      simp only [next, call] at stepped
      split at stepped
      · rename_i popped remaining at_
        simp only [Option.ite_none_right_eq_some, Option.some.injEq] at stepped
        obtain ⟨⟨rfl, live⟩, rfl⟩ := stepped
        exact .call at_ live
      · cases stepped
  | skip j =>
      simp only [next, skip] at stepped
      split at stepped
      · rename_i popped remaining at_
        simp only [Option.ite_none_right_eq_some, Option.some.injEq] at stepped
        obtain ⟨⟨rfl, canceled⟩, rfl⟩ := stepped
        exact .skip at_ canceled
      · cases stepped
  | answer j outcome =>
      simp only [next, answer] at stepped
      split at stepped
      · rename_i called remaining at_
        simp only [Option.ite_none_right_eq_some, Option.some.injEq] at stepped
        obtain ⟨rfl, rfl⟩ := stepped
        exact .answer at_
      · cases stepped
  | release j =>
      simp only [next, release] at stepped
      split at stepped
      · rename_i answered remaining outcome at_
        simp only [Option.ite_none_right_eq_some, Option.some.injEq] at stepped
        obtain ⟨⟨rfl, spent⟩, rfl⟩ := stepped
        exact .release at_ spent
      · cases stepped
  | erase j =>
      simp only [next, erase] at stepped
      split at stepped
      · rename_i released remaining failure at_
        simp only [Option.ite_none_right_eq_some, Option.some.injEq] at stepped
        obtain ⟨rfl, rfl⟩ := stepped
        exact .erase at_
      · cases stepped
  | retain j =>
      simp only [next, retain] at stepped
      split at stepped
      · rename_i answered remaining at_
        simp only [Option.ite_none_right_eq_some, Option.some.injEq] at stepped
        obtain ⟨⟨rfl, live⟩, rfl⟩ := stepped
        exact .retain at_ live
      · cases stepped
  | done =>
      simp only [next, done, Option.ite_none_right_eq_some, Option.some.injEq] at stepped
      obtain ⟨at_, rfl⟩ := stepped
      exact .done at_
  | stop =>
      simp only [next, stop, Option.ite_none_right_eq_some, Option.some.injEq] at stepped
      obtain ⟨idle, rfl⟩ := stepped
      exact .stop idle
  | join =>
      simp only [next, join, Option.ite_none_right_eq_some, Option.some.injEq] at stepped
      obtain ⟨⟨at_, left⟩, rfl⟩ := stepped
      exact .join at_ left

/-! ## The jobs the queue holds -/

theorem count_running_set (j : Nat) (x y : Worker) : ∀ (workers : List Worker) (w : Nat),
    workers[w]? = some y →
      ((workers.set w x).filterMap Worker.job?).count j + y.job?.toList.count j =
        (workers.filterMap Worker.job?).count j + x.job?.toList.count j := by
  intro workers
  induction workers with
  | nil => intro w at_; simp at at_
  | cons head rest ih =>
      intro w at_
      have split (z : Worker) (tail : List Worker) :
          ((z :: tail).filterMap Worker.job?).count j =
            z.job?.toList.count j + (tail.filterMap Worker.job?).count j := by
        cases found : z.job? <;> simp [found, List.count_cons, Nat.add_comm]
      cases w with
      | zero =>
          have same : head = y := by simpa using at_
          subst same
          simp only [List.set_cons_zero, split]
          omega
      | succ w =>
          have tail := ih w (by simpa using at_)
          simp only [List.set_cons_succ, split]
          omega

theorem mem_running_of_at {s : State} {w j : Nat} {x : Worker} (at_ : s.workers[w]? = some x)
    (holds : x.job? = some j) : j ∈ s.running := by
  refine List.mem_filterMap.mpr ⟨x, ?_, holds⟩
  obtain ⟨bound, same⟩ := List.getElem?_eq_some_iff.mp at_
  exact same ▸ List.getElem_mem bound

theorem running_of_exited {s : State} (left : ∀ worker ∈ s.workers, worker = .exited) :
    s.running = [] := by
  apply List.filterMap_eq_nil_iff.mpr
  intro worker member
  rw [left worker member]
  rfl

/-- Every job the queue holds is in exactly one place. -/
structure Held (s : State) : Prop where
  places : ∀ j, s.jobs.count j =
    s.waiting.count j + s.running.count j + s.ready.count j + s.dispatched.count j
  nodup : s.jobs.Nodup
  fits : s.jobs.length ≤ s.capacity
  named : ∀ j ∈ s.jobs, j < s.submitted

theorem held_init (workers capacity : Nat) : Held (init workers capacity) := by
  refine ⟨?_, List.nodup_nil, Nat.zero_le _, by simp [init]⟩
  intro j
  have quiet : (init workers capacity).running = [] := by
    apply List.filterMap_eq_nil_iff.mpr
    intro worker member
    rw [List.eq_of_mem_replicate member]
    rfl
  rw [quiet]
  simp [init, State.dispatched, Owner.job?]

theorem Held.places_set {s : State} (held : Held s) {w : Nat} {x y : Worker}
    (at_ : s.workers[w]? = some y) (j : Nat) :
    s.jobs.count j + x.job?.toList.count j =
      s.waiting.count j + ((s.workers.set w x).filterMap Worker.job?).count j +
        y.job?.toList.count j + s.ready.count j + s.dispatched.count j := by
  have moved := count_running_set j x y s.workers w at_
  have places := held.places j
  simp only [State.running] at places
  omega

theorem Held.step {s t : State} {label : Label} (held : Held s) (stepped : Step s label t) :
    Held t := by
  cases stepped with
  | submit free open_ room =>
      have fresh : s.submitted ∉ s.jobs := fun member => Nat.lt_irrefl _ (held.named _ member)
      refine ⟨?_, ?_, ?_, ?_⟩
      · intro j
        have places := held.places j
        simp only [State.running, State.dispatched, List.count_append] at places ⊢
        omega
      · exact List.nodup_append.mpr ⟨held.nodup, List.nodup_singleton _, by
          intro a member b single same
          exact fresh (by simpa [List.mem_singleton.mp single, same] using member)⟩
      · simp only [List.length_append, List.length_singleton]
        omega
      · intro j member
        rcases List.mem_append.mp member with member | member
        · exact Nat.lt_succ_of_lt (held.named j member)
        · simp only [List.mem_singleton] at member
          exact member ▸ Nat.lt_succ_self _
  | refuse => exact held
  | cancel known => exact ⟨held.places, held.nodup, held.fits, held.named⟩
  | @take w j rest at_ head =>
      refine ⟨?_, held.nodup, held.fits, held.named⟩
      intro i
      have places := held.places_set (x := .took j) at_ i
      simp only [State.running, State.dispatched, head, Worker.job?, Option.toList, List.count_cons,
        List.count_nil] at places ⊢
      omega
  | @workStart w j at_ =>
      refine ⟨?_, held.nodup, held.fits, held.named⟩
      intro i
      have places := held.places_set (x := .working j) at_ i
      simp only [State.running, State.dispatched, Worker.job?, Option.toList] at places ⊢
      omega
  | @workSkip w j at_ _ =>
      refine ⟨?_, held.nodup, held.fits, held.named⟩
      intro i
      have places := held.places_set (x := .finished j) at_ i
      simp only [State.running, State.dispatched, Worker.job?, Option.toList] at places ⊢
      omega
  | @workEnd w j threw at_ =>
      refine ⟨?_, held.nodup, held.fits, held.named⟩
      intro i
      have places := held.places_set (x := .finished j) at_ i
      simp only [State.setJob, State.running, State.dispatched, Worker.job?, Option.toList]
        at places ⊢
      omega
  | @publish w j at_ =>
      refine ⟨?_, held.nodup, held.fits, held.named⟩
      intro i
      have places := held.places_set (x := .waiting) at_ i
      simp only [State.running, State.dispatched, Worker.job?, Option.toList, List.count_append,
        List.count_nil] at places ⊢
      omega
  | @exit w at_ =>
      refine ⟨?_, held.nodup, held.fits, held.named⟩
      intro i
      have places := held.places_set (x := .exited) at_ i
      simp only [State.running, State.dispatched, Worker.job?, Option.toList, List.count_nil]
        at places ⊢
      omega
  | dispatch idle =>
      refine ⟨?_, held.nodup, held.fits, held.named⟩
      intro i
      simpa [State.running, State.dispatched, idle, Owner.job?] using held.places i
  | recursive => exact held
  | pop at_ head =>
      refine ⟨?_, held.nodup, held.fits, held.named⟩
      intro i
      have places := held.places i
      simp only [State.running, State.dispatched, at_, head, Owner.job?, Option.toList,
        List.count_cons, List.count_nil] at places ⊢
      omega
  | call at_ | skip at_ | answer at_ | release at_ =>
      refine ⟨?_, held.nodup, held.fits, held.named⟩
      intro i
      simpa [State.setJob, State.running, State.dispatched, at_, Owner.job?] using held.places i
  | @erase j remaining failure at_ =>
      have fewer := List.length_filter_le (· ≠ j) s.jobs
      refine ⟨?_, held.nodup.filter _, Nat.le_trans fewer held.fits, ?_⟩
      · intro i
        have places := held.places i
        have unowned : ((if failure then Owner.idle else .loop remaining).job?) = none := by
          cases failure <;> rfl
        simp only [State.running, State.dispatched, at_, Owner.job?, Option.toList, List.count_cons,
          List.count_nil] at places
        simp only [State.running, State.dispatched, unowned, Option.toList, List.count_nil]
        by_cases same : i = j
        · subst same
          have once : s.jobs.count i ≤ 1 := List.nodup_iff_count_le_one.mp held.nodup i
          have gone : (s.jobs.filter (· ≠ i)).count i = 0 := by
            simp [List.count_eq_zero]
          simp only [beq_self_eq_true, if_true] at places
          omega
        · have other : (j == i) = false := by simpa using Ne.symm same
          rw [List.count_filter (by simpa using same)]
          simp only [other] at places
          simpa using places
      · intro i member
        exact held.named i (List.mem_filter.mp member).1
  | retain at_ =>
      refine ⟨?_, held.nodup, held.fits, held.named⟩
      intro i
      have places := held.places i
      simp only [State.running, State.dispatched, at_, Owner.job?, Option.toList, List.count_append,
        List.count_nil] at places ⊢
      omega
  | done at_ =>
      refine ⟨?_, held.nodup, held.fits, held.named⟩
      intro i
      simpa [State.running, State.dispatched, at_, Owner.job?] using held.places i
  | stop idle =>
      refine ⟨?_, held.nodup, held.fits, held.named⟩
      intro i
      simpa [State.running, State.dispatched, idle, Owner.job?] using held.places i
  | join at_ left =>
      refine ⟨?_, List.nodup_nil, Nat.zero_le _, by simp⟩
      intro i
      have quiet := running_of_exited left
      simp only [State.running] at quiet
      simp [State.running, State.dispatched, quiet, Owner.job?]

theorem Held.mem_jobs {s : State} (held : Held s) {j : Nat}
    (placed : j ∈ s.waiting ∨ j ∈ s.running ∨ j ∈ s.ready ∨ s.owner.job? = some j) :
    j ∈ s.jobs := by
  have places := held.places j
  have positive : 0 < s.jobs.count j := by
    rcases placed with member | member | member | member
    · have := List.count_pos_iff.mpr member
      omega
    · have := List.count_pos_iff.mpr member
      omega
    · have := List.count_pos_iff.mpr member
      omega
    · have : 0 < s.dispatched.count j := by simp [State.dispatched, member]
      omega
  exact List.count_pos_iff.mp positive

/-- A job is in no two places at once. -/
theorem Held.apart {s : State} (held : Held s) {j : Nat} :
    s.waiting.count j + s.running.count j + s.ready.count j + s.dispatched.count j ≤ 1 :=
  held.places j ▸ List.nodup_iff_count_le_one.mp held.nodup j

theorem Held.not_ready_of_dispatched {s : State} (held : Held s) {j : Nat}
    (at_ : s.owner.job? = some j) : j ∉ s.waiting ∧ j ∉ s.running ∧ j ∉ s.ready := by
  have once := held.apart (j := j)
  have taken : s.dispatched.count j = 1 := by simp [State.dispatched, at_]
  refine ⟨?_, ?_, ?_⟩ <;> intro member <;> have := List.count_pos_iff.mpr member <;> omega

theorem Held.perm {s : State} (held : Held s) :
    s.jobs.Perm (s.waiting ++ s.running ++ s.ready ++ s.dispatched) := by
  rw [List.perm_iff_count]
  intro i
  simpa only [List.count_append] using held.places i

/-- Publishing a result never grows the ready list past its reserved capacity. -/
theorem Held.publish_fits {s : State} (held : Held s) {w j : Nat}
    (at_ : s.workers[w]? = some (.finished j)) : s.ready.length < s.capacity := by
  have sizes := held.perm.length_eq
  have busy : 0 < s.running.length := List.length_pos_of_mem (mem_running_of_at at_ rfl)
  have fits := held.fits
  simp only [List.length_append] at sizes
  omega

/-! ## The drain loop and shutdown -/

/-- The jobs the present dispatch has still to pop. -/
def Owner.owed : Owner → Nat
  | .loop remaining | .popped _ remaining | .calling _ remaining | .answered _ remaining _
  | .releasing _ remaining _ => remaining
  | .idle | .joining | .stopped => 0

/-- The drain loop never pops from an empty list, and `Stop` joins only once
every job it still holds is canceled. -/
structure Paced (s : State) : Prop where
  owed : s.owner.owed ≤ s.ready.length
  closing : s.owner = .joining → ∀ j ∈ s.jobs, (s.job j).canceled = true

theorem paced_init (workers capacity : Nat) : Paced (init workers capacity) := by
  constructor <;> simp [init, Owner.owed]

theorem Paced.step {s t : State} {label : Label} (paced : Paced s) (stepped : Step s label t) :
    Paced t := by
  have owed := paced.owed
  cases stepped with
  | submit free open_ room =>
      refine ⟨owed, ?_⟩
      intro joining
      rw [show s.owner = .joining from joining] at free
      cases free
  | refuse | recursive | take | workStart | workSkip | exit => exact ⟨owed, paced.closing⟩
  | @cancel j known =>
      refine ⟨owed, ?_⟩
      intro joining i member
      have flag := paced.closing joining i member
      by_cases same : i = j <;> simp [State.setJob, Function.update, same]
      exact flag
  | @workEnd w j threw at_ =>
      refine ⟨owed, ?_⟩
      intro joining i member
      have flag := paced.closing joining i member
      by_cases same : i = j <;> simp [State.setJob, Function.update, same]
      · exact same ▸ flag
      · exact flag
  | publish at_ =>
      refine ⟨?_, paced.closing⟩
      simp only [List.length_append]
      omega
  | dispatch idle => exact ⟨Nat.le_refl _, by simp⟩
  | pop at_ head =>
      refine ⟨?_, by simp⟩
      simp only [at_, head, Owner.owed, List.length_cons] at owed ⊢
      omega
  | call at_ | skip at_ | answer at_ | release at_ =>
      refine ⟨?_, by simp⟩
      simpa [State.setJob, at_, Owner.owed] using owed
  | @erase j remaining failure at_ =>
      cases failure
      · exact ⟨by simpa [at_, Owner.owed] using owed, by simp⟩
      · exact ⟨Nat.zero_le _, by simp⟩
  | retain at_ =>
      refine ⟨?_, by simp⟩
      simp only [at_, Owner.owed, List.length_append] at owed ⊢
      omega
  | done at_ => exact ⟨Nat.zero_le _, by simp⟩
  | stop idle =>
      refine ⟨Nat.zero_le _, ?_⟩
      intro _ i member
      simp [show i ∈ s.jobs from member]
  | join at_ left => exact ⟨Nat.zero_le _, by simp⟩

/-! ## Where a job stands

`At s j phase` says where the queue keeps a job that is in this phase of its
life.  A job is in one phase only. -/

def At (s : State) (j : Nat) : Phase → Prop
  | .fresh => s.submitted ≤ j
  | .waiting => j ∈ s.waiting
  | .took => Worker.took j ∈ s.workers
  | .working => Worker.working j ∈ s.workers
  | .finished => Worker.finished j ∈ s.workers
  | .ready => j ∈ s.ready
  | .popped => ∃ remaining, s.owner = .popped j remaining
  | .calling => ∃ remaining, s.owner = .calling j remaining
  | .answered answer => ∃ remaining, s.owner = .answered j remaining answer
  | .releasing => ∃ remaining failure, s.owner = .releasing j remaining failure
  | .gone => j < s.submitted ∧ j ∉ s.jobs

inductive Zone where
  | outside
  | waiting
  | running
  | ready
  | dispatched
deriving DecidableEq

def Phase.zone : Phase → Zone
  | .fresh | .gone => .outside
  | .waiting => .waiting
  | .took | .working | .finished => .running
  | .ready => .ready
  | .popped | .calling | .answered _ | .releasing => .dispatched

def State.zone (s : State) (j : Nat) : Zone → Nat
  | .outside => 1 - s.jobs.count j
  | .waiting => s.waiting.count j
  | .running => s.running.count j
  | .ready => s.ready.count j
  | .dispatched => s.dispatched.count j

theorem mem_running {s : State} {j : Nat} {x : Worker} (member : x ∈ s.workers)
    (holds : x.job? = some j) : j ∈ s.running :=
  List.mem_filterMap.mpr ⟨x, member, holds⟩

theorem At.zone {s : State} {j : Nat} {phase : Phase} (held : Held s) (at_ : At s j phase) :
    0 < s.zone j phase.zone := by
  cases phase with
  | fresh =>
      have outside : j ∉ s.jobs := fun member => Nat.not_lt.mpr at_ (held.named j member)
      simp [Phase.zone, State.zone, List.count_eq_zero.mpr outside]
  | gone => simp [Phase.zone, State.zone, List.count_eq_zero.mpr at_.2]
  | waiting => exact List.count_pos_iff.mpr at_
  | ready => exact List.count_pos_iff.mpr at_
  | took => exact List.count_pos_iff.mpr (mem_running at_ rfl)
  | working => exact List.count_pos_iff.mpr (mem_running at_ rfl)
  | finished => exact List.count_pos_iff.mpr (mem_running at_ rfl)
  | popped | calling | answered =>
      obtain ⟨remaining, owner⟩ := at_
      simp [Phase.zone, State.zone, State.dispatched, owner, Owner.job?]
  | releasing =>
      obtain ⟨remaining, failure, owner⟩ := at_
      simp [Phase.zone, State.zone, State.dispatched, owner, Owner.job?]

theorem Held.zone_unique {s : State} (held : Held s) {j : Nat} {x y : Zone}
    (inX : 0 < s.zone j x) (inY : 0 < s.zone j y) : x = y := by
  have places := held.places j
  have once := List.nodup_iff_count_le_one.mp held.nodup j
  cases x <;> cases y <;> first | rfl | (simp only [State.zone] at inX inY; omega)

/-- No two workers hold the same job. -/
theorem one_worker {j : Nat} {x y : Worker} (xHolds : x.job? = some j) (yHolds : y.job? = some j) :
    ∀ workers : List Worker, (workers.filterMap Worker.job?).count j ≤ 1 →
      x ∈ workers → y ∈ workers → x = y := by
  intro workers
  induction workers with
  | nil => intro _ member; cases member
  | cons head rest ih =>
      intro once inX inY
      have counted (z : Worker) (holds : z.job? = some j) (member : z ∈ rest) :
          0 < (rest.filterMap Worker.job?).count j :=
        List.count_pos_iff.mpr (List.mem_filterMap.mpr ⟨z, member, holds⟩)
      rcases List.mem_cons.mp inX with rfl | inX <;> rcases List.mem_cons.mp inY with rfl | inY
      · rfl
      · have := counted y yHolds (by assumption)
        rw [List.filterMap_cons_some xHolds, List.count_cons_self] at once
        omega
      · have := counted x xHolds (by assumption)
        rw [List.filterMap_cons_some yHolds, List.count_cons_self] at once
        omega
      · refine ih ?_ inX inY
        cases found : head.job? with
        | none => rwa [List.filterMap_cons_none found] at once
        | some k =>
            rw [List.filterMap_cons_some found, List.count_cons] at once
            omega

def Owner.phase? : Owner → Option Phase
  | .idle | .loop _ | .joining | .stopped => none
  | .popped _ _ => some .popped
  | .calling _ _ => some .calling
  | .answered _ _ answer => some (.answered answer)
  | .releasing _ _ _ => some .releasing

theorem At.owner {s : State} {j : Nat} {phase : Phase} (place : At s j phase)
    (dispatched : phase.zone = .dispatched) : s.owner.phase? = some phase := by
  cases phase with
  | popped | calling | answered =>
      obtain ⟨remaining, owner⟩ := place
      rw [owner, Owner.phase?]
  | releasing =>
      obtain ⟨remaining, failure, owner⟩ := place
      rw [owner, Owner.phase?]
  | _ => cases dispatched

theorem At.unique {s : State} {j : Nat} {p q : Phase} (held : Held s) (inP : At s j p)
    (inQ : At s j q) : p = q := by
  have zone := held.zone_unique (inP.zone held) (inQ.zone held)
  have once : (s.workers.filterMap Worker.job?).count j ≤ 1 := by
    have := held.apart (j := j)
    simp only [State.running] at this
    omega
  cases p <;> cases q <;> first
    | rfl
    | (simp only [Phase.zone, reduceCtorEq] at zone; done)
    | (have same := one_worker rfl rfl s.workers once inP inQ; simp at same)
    | exact Option.some.inj ((inP.owner rfl).symm.trans (inQ.owner rfl))
    | (simp only [At] at inP inQ; omega)

/-! ## Every job lives its life -/

/-- The present dispatch may still call the job. -/
def Due (s : State) (j : Nat) : Prop :=
  j ∈ s.ready.take s.owner.owed ∨ ∃ remaining, s.owner = .popped j remaining

structure Follows (s : State) (j : Nat) (life : Life) : Prop where
  place : At s j life.phase
  canceled : life.phase ≠ .fresh → life.canceled = (s.job j).canceled
  due : Due s j → life.served = false

/-- What a step leaves alone about a job it is not about. -/
structure Unmoved (s t : State) (j : Nat) : Prop where
  submitted : t.submitted ≤ j ↔ s.submitted ≤ j := by exact Iff.rfl
  jobs : j ∈ t.jobs ↔ j ∈ s.jobs := by exact Iff.rfl
  waiting : j ∈ s.waiting → j ∈ t.waiting := by exact id
  workers : ∀ x ∈ s.workers, x.job? = some j → x ∈ t.workers := by exact fun _ member _ => member
  ready : j ∈ s.ready → j ∈ t.ready := by exact id
  owner : s.owner.job? = some j → t.owner = s.owner := by exact fun _ => rfl

structure Apart (s t : State) (j : Nat) : Prop extends Unmoved s t j where
  canceled : j < s.submitted → (t.job j).canceled = (s.job j).canceled := by exact fun _ => rfl
  due : Due t j → Due s j := by exact id

theorem At.unmoved {s t : State} {j : Nat} {phase : Phase} (place : At s j phase)
    (apart : Unmoved s t j) : At t j phase := by
  cases phase with
  | fresh => exact apart.submitted.mpr place
  | gone =>
      refine ⟨Nat.not_le.mp fun late => ?_, fun member => place.2 (apart.jobs.mp member)⟩
      exact Nat.not_le.mpr place.1 (apart.submitted.mp late)
  | waiting => exact apart.waiting place
  | ready => exact apart.ready place
  | took | working | finished => exact apart.workers _ place rfl
  | popped | calling | answered =>
      obtain ⟨remaining, owner⟩ := place
      exact ⟨remaining, by rw [apart.owner (by simp [owner, Owner.job?]), owner]⟩
  | releasing =>
      obtain ⟨remaining, failure, owner⟩ := place
      exact ⟨remaining, failure, by rw [apart.owner (by simp [owner, Owner.job?]), owner]⟩

theorem At.mem_jobs {s : State} {j : Nat} {phase : Phase} (held : Held s) (place : At s j phase)
    (inside : ¬ (phase = .fresh ∨ phase = .gone)) : j ∈ s.jobs := by
  have zone := place.zone held
  rw [← List.count_pos_iff, held.places j]
  cases phase with
  | fresh => exact absurd (Or.inl rfl) inside
  | gone => exact absurd (Or.inr rfl) inside
  | _ =>
      simp only [Phase.zone, State.zone] at zone
      omega

theorem At.known {s : State} {j : Nat} {phase : Phase} (held : Held s) (place : At s j phase)
    (accepted : phase ≠ .fresh) : j < s.submitted := by
  by_cases gone : phase = .gone
  · subst gone
    exact place.1
  · exact held.named j (place.mem_jobs held (by simp [accepted, gone]))

theorem Follows.apart {s t : State} {j : Nat} {life : Life} (held : Held s)
    (follows : Follows s j life) (apart : Apart s t j) : Follows t j life := by
  refine ⟨follows.place.unmoved apart.toUnmoved, ?_, fun due => follows.due (apart.due due)⟩
  intro accepted
  rw [apart.canceled (follows.place.known held accepted)]
  exact follows.canceled accepted

theorem mem_set_of_ne {workers : List Worker} {w : Nat} {x y : Worker} (z : Worker)
    (member : x ∈ workers) (at_ : workers[w]? = some y) (other : x ≠ y) :
    x ∈ workers.set w z := by
  obtain ⟨k, found⟩ := List.mem_iff_getElem?.mp member
  have apart : w ≠ k := by
    rintro rfl
    exact other (Option.some.inj (found.symm.trans at_))
  exact List.mem_iff_getElem?.mpr ⟨k, by rw [List.getElem?_set_ne apart, found]⟩

theorem mem_set_self {workers : List Worker} {w : Nat} {y : Worker} (z : Worker)
    (at_ : workers[w]? = some y) : z ∈ workers.set w z := by
  obtain ⟨bound, -⟩ := List.getElem?_eq_some_iff.mp at_
  exact List.mem_set bound z

theorem mem_workers {s : State} {w : Nat} {x : Worker} (at_ : s.workers[w]? = some x) :
    x ∈ s.workers := List.mem_of_getElem? at_

theorem Follows.step {s t : State} {label : Label} {j : Nat} {life : Life} (held : Held s)
    (paced : Paced s) (sound : life.Sound) (follows : Follows s j life)
    (stepped : Step s label t) :
    ∃ later, Life.next j life label = some later ∧ Follows t j later := by
  have stands (phase : Phase) (there : At s j phase) : life.phase = phase :=
    follows.place.unique held there
  cases stepped with
  | submit free open_ room =>
      by_cases own : s.submitted = j
      · subst own
        have phase := stands .fresh (Nat.le_refl _)
        refine ⟨{ life with phase := .waiting }, ?_, ?_, ?_, follows.due⟩
        · simp [Life.next, Label.job?, Life.advance, phase]
        · simp [At]
        · simp [sound.uncanceled phase]
      · refine ⟨life, Life.next_other rfl own, follows.apart held
          { submitted := ?_, jobs := ?_, waiting := ?_, canceled := ?_ }⟩
        · constructor <;> intro late <;> simp only at late ⊢ <;> omega
        · simp [Ne.symm own]
        · exact List.mem_append_left _
        · simp [Function.update, Ne.symm own]
  | refuse | recursive => exact ⟨life, rfl, follows⟩
  | @cancel i known =>
      by_cases own : i = j
      · subst own
        have accepted : life.phase ≠ .fresh := by
          intro fresh
          have place := follows.place
          rw [fresh] at place
          exact Nat.not_le.mpr known place
        refine ⟨{ life with canceled := true }, ?_, follows.place.unmoved {}, ?_, follows.due⟩
        · simp [Life.next, Label.job?, Life.advance, accepted]
        · simp [State.setJob]
      · exact ⟨life, Life.next_other rfl own, follows.apart held
          { canceled := by simp [State.setJob, Function.update, Ne.symm own] }⟩
  | @take w i rest at_ head =>
      by_cases own : i = j
      · subst own
        have phase := stands .waiting (by simp [At, head])
        refine ⟨{ life with phase := .took }, ?_, ?_, ?_, follows.due⟩
        · simp [Life.next, Label.job?, Life.advance, phase]
        · exact mem_set_self _ at_
        · exact fun _ => follows.canceled (by simp [phase])
      · refine ⟨life, Life.next_other rfl own, follows.apart held
          { waiting := ?_, workers := ?_ }⟩
        · simp [head, Ne.symm own]
        · intro x member holds
          exact mem_set_of_ne _ member at_ (by rintro rfl; simp [Worker.job?] at holds)
  | @workStart w i at_ live =>
      by_cases own : i = j
      · subst own
        have phase := stands .took (mem_workers at_)
        have flag := follows.canceled (by simp [phase])
        refine ⟨{ life with phase := .working, started := true }, ?_, mem_set_self _ at_,
          fun _ => flag, follows.due⟩
        simp [Life.next, Label.job?, Life.advance, phase, flag, live]
      · refine ⟨life, Life.next_other rfl own, follows.apart held { workers := ?_ }⟩
        intro x member holds
        exact mem_set_of_ne _ member at_ (by rintro rfl; simp [Worker.job?, own] at holds)
  | @workSkip w i at_ canceled =>
      by_cases own : i = j
      · subst own
        have phase := stands .took (mem_workers at_)
        have flag := follows.canceled (by simp [phase])
        refine ⟨{ life with phase := .finished }, ?_, mem_set_self _ at_, fun _ => flag,
          follows.due⟩
        simp [Life.next, Label.job?, Life.advance, phase, flag, canceled]
      · refine ⟨life, Life.next_other rfl own, follows.apart held { workers := ?_ }⟩
        intro x member holds
        exact mem_set_of_ne _ member at_ (by rintro rfl; simp [Worker.job?, own] at holds)
  | @workEnd w i threw at_ =>
      by_cases own : i = j
      · subst own
        have phase := stands .working (mem_workers at_)
        refine ⟨{ life with phase := .finished, ended := true }, ?_, mem_set_self _ at_, ?_,
          follows.due⟩
        · simp [Life.next, Label.job?, Life.advance, phase]
        · intro _
          simpa [State.setJob] using follows.canceled (by simp [phase])
      · refine ⟨life, Life.next_other rfl own, follows.apart held
          { workers := ?_, canceled := ?_ }⟩
        · intro x member holds
          exact mem_set_of_ne _ member at_ (by rintro rfl; simp [Worker.job?, own] at holds)
        · simp [State.setJob, Function.update, Ne.symm own]
  | @publish w i at_ =>
      have prefix_ : (s.ready ++ [i]).take s.owner.owed = s.ready.take s.owner.owed :=
        List.take_append_of_le_length paced.owed
      by_cases own : i = j
      · subst own
        have phase := stands .finished (mem_workers at_)
        refine ⟨{ life with phase := .ready }, ?_, by simp [At], ?_, ?_⟩
        · simp [Life.next, Label.job?, Life.advance, phase]
        · exact fun _ => follows.canceled (by simp [phase])
        · intro due
          exact follows.due (by simpa [Due, prefix_] using due)
      · refine ⟨life, Life.next_other rfl own, follows.apart held
          { workers := ?_, ready := List.mem_append_left _, due := ?_ }⟩
        · intro x member holds
          exact mem_set_of_ne _ member at_ (by rintro rfl; simp [Worker.job?, own] at holds)
        · simp [Due, prefix_]
  | @exit w at_ =>
      refine ⟨life, rfl, follows.apart held { workers := ?_ }⟩
      intro x member holds
      exact mem_set_of_ne _ member at_ (by rintro rfl; simp [Worker.job?] at holds)
  | dispatch idle =>
      refine ⟨{ life with served := false }, rfl, follows.place.unmoved { owner := ?_ },
        follows.canceled, fun _ => rfl⟩
      simp [idle, Owner.job?]
  | @pop i remaining rest at_ head =>
      by_cases own : i = j
      · subst own
        have phase := stands .ready (by simp [At, head])
        refine ⟨{ life with phase := .popped }, ?_, ⟨remaining, rfl⟩, ?_, ?_⟩
        · simp [Life.next, Label.job?, Life.advance, phase]
        · exact fun _ => follows.canceled (by simp [phase])
        · exact fun _ => follows.due (Or.inl (by simp [at_, head, Owner.owed]))
      · refine ⟨life, Life.next_other rfl own, follows.apart held
          { ready := ?_, owner := ?_, due := ?_ }⟩
        · simp [head, Ne.symm own]
        · simp [at_, Owner.job?]
        · simp only [Due, at_, head, Owner.owed, List.take_succ_cons, List.mem_cons]
          rintro (later | ⟨other, same⟩)
          · exact Or.inl (Or.inr later)
          · simp [own] at same
  | @call i remaining at_ live =>
      by_cases own : i = j
      · subst own
        have phase := stands .popped ⟨remaining, at_⟩
        have flag := follows.canceled (by simp [phase])
        have unserved := follows.due (Or.inr ⟨remaining, at_⟩)
        have absent := (held.not_ready_of_dispatched (j := i) (by simp [at_, Owner.job?])).2.2
        refine ⟨{ life with phase := .calling, served := true }, ?_, ⟨remaining, rfl⟩,
          fun _ => flag, ?_⟩
        · simp [Life.next, Label.job?, Life.advance, phase, flag, live, unserved]
        · rintro (later | ⟨other, same⟩)
          · exact absurd (List.mem_of_mem_take later) absent
          · simp at same
      · refine ⟨life, Life.next_other rfl own, follows.apart held { owner := ?_, due := ?_ }⟩
        · simp [at_, Owner.job?, own]
        · simp [Due, at_, Owner.owed, own]
  | @skip i remaining at_ canceled =>
      by_cases own : i = j
      · subst own
        have phase := stands .popped ⟨remaining, at_⟩
        have flag := follows.canceled (by simp [phase])
        refine ⟨{ life with phase := .answered .consumed }, ?_, ⟨remaining, rfl⟩,
          fun _ => flag, ?_⟩
        · simp [Life.next, Label.job?, Life.advance, phase, flag, canceled]
        · exact fun _ => follows.due (Or.inr ⟨remaining, at_⟩)
      · refine ⟨life, Life.next_other rfl own, follows.apart held { owner := ?_, due := ?_ }⟩
        · simp [at_, Owner.job?, own]
        · simp [Due, at_, Owner.owed, own]
  | @answer i remaining outcome at_ =>
      have due : Due { s with owner := .answered i remaining outcome } j → Due s j := by
        simp [Due, at_, Owner.owed]
      by_cases own : i = j
      · subst own
        have phase := stands .calling ⟨remaining, at_⟩
        refine ⟨{ life with
          phase := .answered outcome, spent := life.spent || outcome != .retained }, ?_,
          ⟨remaining, rfl⟩, ?_, fun later => follows.due (due later)⟩
        · simp [Life.next, Label.job?, Life.advance, phase]
        · exact fun _ => follows.canceled (by simp [phase])
      · refine ⟨life, Life.next_other rfl own, follows.apart held { owner := ?_, due := due }⟩
        simp [at_, Owner.job?, own]
  | @release i remaining outcome at_ spent =>
      by_cases own : i = j
      · subst own
        have phase := stands (.answered outcome) ⟨remaining, at_⟩
        have flag := follows.canceled (by simp [phase])
        refine ⟨{ life with phase := .releasing }, ?_, ⟨remaining, _, rfl⟩, ?_, ?_⟩
        · simpa [Life.next, Label.job?, Life.advance, phase, flag, imp_iff_not_or] using spent
        · simpa [State.setJob] using flag
        · intro later
          exact follows.due (by simpa [Due, State.setJob, at_, Owner.owed] using later)
      · refine ⟨life, Life.next_other rfl own, follows.apart held
          { owner := ?_, canceled := ?_, due := ?_ }⟩
        · simp [at_, Owner.job?, own]
        · simp [State.setJob, Function.update, Ne.symm own]
        · simp [Due, State.setJob, at_, Owner.owed]
  | @erase i remaining failure at_ =>
      have due : Due { s with
          jobs := s.jobs.filter (· ≠ i), owner := if failure then .idle else .loop remaining } j →
          Due s j := by
        cases failure <;> simp [Due, at_, Owner.owed]
      by_cases own : i = j
      · subst own
        have phase := stands .releasing ⟨remaining, failure, at_⟩
        have known := follows.place.known held (by simp [phase])
        refine ⟨{ life with phase := .gone }, ?_, ⟨known, by simp⟩, ?_,
          fun later => follows.due (due later)⟩
        · simp [Life.next, Label.job?, Life.advance, phase]
        · exact fun _ => follows.canceled (by simp [phase])
      · refine ⟨life, Life.next_other rfl own, follows.apart held
          { jobs := ?_, owner := ?_, due := due }⟩
        · simp [Ne.symm own]
        · simp [at_, Owner.job?, own]
  | @retain i remaining at_ live =>
      have fits : remaining ≤ s.ready.length := by simpa [at_, Owner.owed] using paced.owed
      have due : Due { s with ready := s.ready ++ [i], owner := .loop remaining } j → Due s j := by
        simp [Due, at_, Owner.owed, List.take_append_of_le_length fits]
      by_cases own : i = j
      · subst own
        have phase := stands (.answered .retained) ⟨remaining, at_⟩
        have flag := follows.canceled (by simp [phase])
        refine ⟨{ life with phase := .ready }, ?_, by simp [At], fun _ => flag,
          fun later => follows.due (due later)⟩
        simp [Life.next, Label.job?, Life.advance, phase, flag, live]
      · refine ⟨life, Life.next_other rfl own, follows.apart held
          { ready := List.mem_append_left _, owner := ?_, due := due }⟩
        simp [at_, Owner.job?, own]
  | done at_ =>
      refine ⟨life, rfl, follows.apart held { owner := ?_, due := ?_ }⟩
      · simp [at_, Owner.job?]
      · simp [Due, Owner.owed]
  | stop idle =>
      have unowned : s.owner.job? ≠ some j := by simp [idle, Owner.job?]
      by_cases outside : life.phase = .fresh ∨ life.phase = .gone
      · refine ⟨life, by simp [Life.next, Label.job?, Life.hear, outside],
          follows.place.unmoved { owner := fun owns => absurd owns unowned }, ?_,
          by simp [Due, Owner.owed]⟩
        intro accepted
        have place := follows.place
        rw [outside.resolve_left accepted] at place
        simp [place.2, follows.canceled accepted]
      · refine ⟨{ life with canceled := true }, by simp [Life.next, Label.job?, Life.hear, outside],
          follows.place.unmoved { owner := fun owns => absurd owns unowned }, ?_,
          by simp [Due, Owner.owed]⟩
        simp [follows.place.mem_jobs held outside]
  | join at_ left =>
      by_cases outside : life.phase = .fresh ∨ life.phase = .gone
      · refine ⟨life, by simp [Life.next, Label.job?, Life.hear, outside], ?_, ?_,
          by simp [Due, Owner.owed]⟩
        · have place := follows.place
          rcases outside with phase | phase <;> rw [phase] at place ⊢
          · exact place
          · exact ⟨place.1, by simp⟩
        · intro accepted
          have place := follows.place
          rw [outside.resolve_left accepted] at place
          simp [place.2, follows.canceled accepted]
      · have inside := follows.place.mem_jobs held outside
        have accepted : life.phase ≠ .fresh := fun fresh => outside (Or.inl fresh)
        have flag := (follows.canceled accepted).trans (paced.closing at_ j inside)
        refine ⟨{ life with phase := .gone }, ?_, ⟨held.named j inside, by simp⟩, ?_,
          by simp [Due, Owner.owed]⟩
        · simp [Life.next, Label.job?, Life.hear, outside, flag]
        · simp [inside, follows.canceled accepted]

theorem follows_init (workers capacity j : Nat) : Follows (init workers capacity) j {} := by
  refine ⟨Nat.zero_le _, by simp, by simp [Due, init, Owner.owed]⟩

/-! ## The calls of one dispatch -/

def isCall : Label → Bool
  | .call _ => true
  | _ => false

/-- The ready jobs the last dispatch found and the completions called since. -/
def round : List Label → Nat × Nat :=
  List.foldl (fun
    | _, .dispatch ready => (ready, 0)
    | (ready, called), .call _ => (ready, called + 1)
    | counts, _ => counts) (0, 0)

/-- A popped job is one call the dispatch may still make beyond its loop count. -/
def Owner.budget : Owner → Nat
  | .popped _ remaining => remaining + 1
  | owner => owner.owed

theorem round_step {history : List Label} {s t : State} {label : Label}
    (within : (round history).2 + s.owner.budget ≤ (round history).1) (stepped : Step s label t) :
    (round (history ++ [label])).2 + t.owner.budget ≤ (round (history ++ [label])).1 := by
  rw [round, List.foldl_append]
  rw [← round]
  cases stepped with
  | dispatch idle => simp [Owner.budget, Owner.owed]
  | pop at_ | call at_ | skip at_ | answer at_ | release at_ | retain at_ | done at_ | stop at_
  | join at_ =>
      simp only [at_, Owner.budget, Owner.owed, List.foldl_cons, List.foldl_nil] at within ⊢
      omega
  | @erase i remaining failure at_ =>
      cases failure <;>
        simp only [at_, Owner.budget, Owner.owed, List.foldl_cons, List.foldl_nil] at within ⊢ <;>
        simp <;> omega
  | _ => exact within

theorem round_dispatch (before middle : List Label) (ready : Nat)
    (same : ∀ label ∈ middle, isDispatch label = false) :
    round (before ++ .dispatch ready :: middle) = (ready, middle.countP isCall) := by
  induction middle using List.reverseRecOn with
  | nil => simp [round]
  | append_singleton middle label ih =>
      have earlier := ih fun l member => same l (List.mem_append_left _ member)
      have last := same label (by simp)
      have shaped : before ++ .dispatch ready :: (middle ++ [label]) =
          (before ++ .dispatch ready :: middle) ++ [label] := by simp
      rw [shaped, round, List.foldl_append, ← round, earlier, List.countP_append]
      cases label <;> first | rfl | cases last

/-! ## The protocol -/

structure Invariant (history : List Label) (s : State) : Prop where
  held : Held s
  paced : Paced s
  lives : ∀ j, ∃ life, run (Life.next j) {} history = some life ∧ Follows s j life
  within : (round history).2 + s.owner.budget ≤ (round history).1

theorem invariant_init (workers capacity : Nat) : Invariant [] (init workers capacity) :=
  ⟨held_init workers capacity, paced_init workers capacity,
    fun j => ⟨{}, rfl, follows_init workers capacity j⟩, Nat.le_refl _⟩

theorem Invariant.step {history : List Label} {s t : State} {label : Label}
    (inv : Invariant history s) (stepped : Step s label t) :
    Invariant (history ++ [label]) t := by
  refine ⟨inv.held.step stepped, inv.paced.step stepped, ?_, round_step inv.within stepped⟩
  intro j
  obtain ⟨life, ran, follows⟩ := inv.lives j
  have sound := (Life.run_ordered j history life ran).2.1
  obtain ⟨later, moved, followed⟩ := follows.step inv.held inv.paced sound stepped
  refine ⟨later, ?_, followed⟩
  rw [run_append, ran]
  simp [run, moved]

theorem invariant_run (workers capacity : Nat) : ∀ history s,
    run next (init workers capacity) history = some s → Invariant history s :=
  history_induction (invariant_init workers capacity)
    fun _ _ _ _ inv stepped => inv.step (next_step stepped)

theorem capacity_run (workers capacity : Nat) : ∀ history s,
    run next (init workers capacity) history = some s → s.capacity = capacity := by
  refine history_induction (P := fun _ (s : State) => s.capacity = capacity) rfl ?_
  intro history s label t same stepped
  rw [← same]
  cases next_step stepped <;> rfl

/-- What a run of the queue promises, whatever the threads do. -/
structure Protocol (workers capacity : Nat) (history : List Label) (s : State) : Prop where
  union : s.jobs.Perm (s.waiting ++ s.running ++ s.ready ++ s.dispatched)
  disjoint : (s.waiting ++ s.running ++ s.ready ++ s.dispatched).Nodup
  bounded : s.jobs.length ≤ capacity
  reserved : ∀ (w j : Nat), s.workers[w]? = some (.finished j) → s.ready.length < capacity
  ordered : ∀ j, Ordered j history
  kept : ∀ j, Label.submit j ∈ history →
    j ∈ s.jobs ∨ (∃ label ∈ history, spends j label = true) ∨ (s.job j).canceled = true
  cause : ∀ j, Label.submit j ∈ history → (s.job j).canceled = true →
    Label.cancel j ∈ history ∨ Label.stop ∈ history
  began : ∀ before ready after, history = before ++ .dispatch ready :: after →
    ∃ start, run next (init workers capacity) before = some start ∧ start.ready.length = ready
  budget : ∀ before ready middle after,
    history = before ++ .dispatch ready :: (middle ++ after) →
      (∀ label ∈ middle, isDispatch label = false) → middle.countP isCall ≤ ready

theorem Invariant.kept {history : List Label} {s : State} (inv : Invariant history s) {j : Nat}
    (accepted : Label.submit j ∈ history) :
    j ∈ s.jobs ∨ (∃ label ∈ history, spends j label = true) ∨ (s.job j).canceled = true := by
  obtain ⟨life, ran, follows⟩ := inv.lives j
  obtain ⟨recorded, sound, -⟩ := Life.run_ordered j history life ran
  have later : life.phase ≠ .fresh := fun fresh => recorded.submitted.mp fresh accepted
  by_cases gone : life.phase = .gone
  · right
    rcases sound.settled (by simp [gone]) with spent | canceled
    · rw [recorded.spent] at spent
      exact Or.inl (List.any_eq_true.mp spent)
    · exact Or.inr (follows.canceled later ▸ canceled)
  · exact Or.inl (follows.place.mem_jobs inv.held (by simp [later, gone]))

theorem workQueue_protocol (workers capacity : Nat) (history : List Label) (s : State)
    (ran : run next (init workers capacity) history = some s) :
    Protocol workers capacity history s := by
  have inv := invariant_run workers capacity history s ran
  have size := capacity_run workers capacity history s ran
  have union : s.jobs.Perm (s.waiting ++ s.running ++ s.ready ++ s.dispatched) := inv.held.perm
  refine ⟨union, union.nodup_iff.mp inv.held.nodup, size ▸ inv.held.fits, ?_, ?_,
    fun j => inv.kept, ?_, ?_, ?_⟩
  · intro w j at_
    exact size ▸ inv.held.publish_fits at_
  · intro j
    obtain ⟨life, lived, -⟩ := inv.lives j
    exact (Life.run_ordered j history life lived).2.2
  · intro j accepted canceled
    obtain ⟨life, lived, follows⟩ := inv.lives j
    have recorded := (Life.run_ordered j history life lived).1
    have later : life.phase ≠ .fresh := fun fresh => recorded.submitted.mp fresh accepted
    exact recorded.cause ((follows.canceled later).trans canceled)
  · rintro before ready after rfl
    rw [run_append] at ran
    obtain ⟨start, first, rest⟩ := Option.bind_eq_some_iff.mp ran
    obtain ⟨_, stepped, -⟩ := Option.bind_eq_some_iff.mp rest
    refine ⟨start, first, ?_⟩
    cases next_step stepped
    rfl
  · rintro before ready middle after rfl same
    have shaped : before ++ .dispatch ready :: (middle ++ after) =
        (before ++ .dispatch ready :: middle) ++ after := by simp
    rw [shaped, run_append] at ran
    obtain ⟨reached, first, -⟩ := Option.bind_eq_some_iff.mp ran
    have within := (invariant_run workers capacity _ reached first).within
    rw [round_dispatch before middle ready same] at within
    exact Nat.le_trans (Nat.le_add_right _ _) within

theorem workQueue_protocol_retained :
    ∃ s, run next (init 1 2) [.submit 0, .take 0 0, .workStart 0 0, .workEnd 0 0 true,
        .publish 0 0, .dispatch 1, .pop 0, .call 0, .submit 1, .answer 0 .retained, .retain 0,
        .done, .dispatch 1, .pop 0, .call 0, .answer 0 .consumed] = some s ∧
      s.jobs = [0, 1] ∧ Protocol 1 2 [.submit 0, .take 0 0, .workStart 0 0, .workEnd 0 0 true,
        .publish 0 0, .dispatch 1, .pop 0, .call 0, .submit 1, .answer 0 .retained, .retain 0,
        .done, .dispatch 1, .pop 0, .call 0, .answer 0 .consumed] s :=
  ⟨_, rfl, rfl, workQueue_protocol 1 2 _ _ rfl⟩

end Source2Root.WorkQueue
