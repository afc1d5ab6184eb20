import Source2Root.Transition

/-!
# The worker queue

`source2root::WorkQueue`: the owner thread submits jobs and dispatches their
completions, worker threads take, run and publish them.  Every critical section
under `mutex_` is one step; the stretches between two critical sections are
steps of their own, so that the threads interleave at exactly the points where
the source drops the lock.  A job is named by the order of its submission: two
jobs are never the same shared pointer.
-/

set_option autoImplicit false

namespace Source2Root.WorkQueue

/-- The fields of `Job` the queue itself reads or writes.  `released` is set
when the closures have been dropped on the owner thread. -/
structure Job where
  canceled : Bool := false
  error : Bool := false
  released : Bool := false
deriving DecidableEq, Repr

/-- Where one worker thread stands in `Run`. -/
inductive Worker where
  | waiting
  | took (job : Nat)
  | working (job : Nat)
  | finished (job : Nat)
  | exited
deriving DecidableEq, Repr

def Worker.job? : Worker → Option Nat
  | .waiting | .exited => none
  | .took job | .working job | .finished job => some job

/-- How a completion ended. -/
inductive Answer where
  | consumed
  | retained
  | threw
deriving DecidableEq, Repr

/-- Where the owner thread stands in `Dispatch` and `Stop`. `loop` is the head
of the drain loop, `calling` the inside of a completion, `releasing` the
destruction of a consumed job's closures. -/
inductive Owner where
  | idle
  | loop (remaining : Nat)
  | popped (job remaining : Nat)
  | calling (job remaining : Nat)
  | answered (job remaining : Nat) (answer : Answer)
  | releasing (job remaining : Nat) (failure : Bool)
  | joining
  | stopped
deriving DecidableEq, Repr

/-- The job the dispatcher has taken off the ready list and not settled yet. -/
def Owner.job? : Owner → Option Nat
  | .idle | .loop _ | .joining | .stopped => none
  | .popped job _ | .calling job _ | .answered job _ _ | .releasing job _ _ => some job

structure State where
  capacity : Nat
  jobs : List Nat
  ready : List Nat
  waiting : List Nat
  workers : List Worker
  job : Nat → Job
  submitted : Nat
  stopping : Bool
  owner : Owner

/-- `WorkQueue(workers, capacity)`. -/
def init (workers capacity : Nat) : State where
  capacity := capacity
  jobs := []
  ready := []
  waiting := []
  workers := List.replicate workers .waiting
  job := fun _ => {}
  submitted := 0
  stopping := false
  owner := .idle

inductive Label where
  /-- `Submit` accepted the job. -/
  | submit (job : Nat)
  /-- `Submit` found the queue full. -/
  | refuse
  | cancel (job : Nat)
  | take (worker job : Nat)
  | workStart (worker job : Nat)
  | workSkip (worker job : Nat)
  | workEnd (worker job : Nat) (threw : Bool)
  | publish (worker job : Nat)
  | exit (worker : Nat)
  /-- `Dispatch` read this many ready jobs. -/
  | dispatch (ready : Nat)
  /-- `Dispatch` inside a completion throws before it touches anything. -/
  | recursive
  | pop (job : Nat)
  | call (job : Nat)
  | skip (job : Nat)
  | answer (job : Nat) (answer : Answer)
  | release (job : Nat)
  | retain (job : Nat)
  | erase (job : Nat)
  | done
  | stop
  | join
deriving DecidableEq, Repr

/-- The owner thread runs code of its own outside `Dispatch`, inside a
completion, and inside the destructors of released closures. -/
def Owner.free : Owner → Bool
  | .idle | .calling _ _ | .releasing _ _ _ => true
  | _ => false

def State.setJob (s : State) (job : Nat) (f : Job → Job) : State :=
  { s with job := Function.update s.job job (f (s.job job)) }

/-- The first critical section of `Run`: a waiting job is taken even when the
queue is stopping; an empty waiting list ends the thread only then. -/
def take (s : State) (worker job : Nat) : Option State :=
  match s.workers[worker]?, s.waiting with
  | some .waiting, head :: rest =>
      if head = job then
        some { s with waiting := rest, workers := s.workers.set worker (.took job) }
      else none
  | _, _ => none

def exit (s : State) (worker : Nat) : Option State :=
  match s.workers[worker]?, s.waiting with
  | some .waiting, [] =>
      if s.stopping then some { s with workers := s.workers.set worker .exited } else none
  | _, _ => none

/-- The part of `Run` outside the lock: a canceled job's work is skipped, and an
exception of the work is kept for the completion. -/
def workStart (s : State) (worker job : Nat) : Option State :=
  if s.workers[worker]? = some (.took job) ∧ (s.job job).canceled = false then
    some { s with workers := s.workers.set worker (.working job) }
  else none

def workSkip (s : State) (worker job : Nat) : Option State :=
  if s.workers[worker]? = some (.took job) ∧ (s.job job).canceled = true then
    some { s with workers := s.workers.set worker (.finished job) }
  else none

def workEnd (s : State) (worker job : Nat) (threw : Bool) : Option State :=
  if s.workers[worker]? = some (.working job) then
    some { s.setJob job (fun j => { j with error := threw }) with
      workers := s.workers.set worker (.finished job) }
  else none

/-- The last critical section of `Run`. -/
def publish (s : State) (worker job : Nat) : Option State :=
  if s.workers[worker]? = some (.finished job) then
    some { s with ready := s.ready ++ [job], workers := s.workers.set worker .waiting }
  else none

/-- `Submit`: the critical section that pushes the job on both lists. -/
def submit (s : State) (job : Nat) : Option State :=
  if s.owner.free ∧ s.stopping = false ∧ s.jobs.length < s.capacity ∧ job = s.submitted then
    some { s with
      jobs := s.jobs ++ [job], waiting := s.waiting ++ [job],
      job := Function.update s.job job {}, submitted := s.submitted + 1 }
  else none

def refuse (s : State) : Option State :=
  if s.owner.free ∧ s.stopping = false ∧ s.capacity ≤ s.jobs.length then some s else none

/-- `Ticket::Cancel`, also run by the ticket's destructor. -/
def cancel (s : State) (job : Nat) : Option State :=
  if s.owner.free ∧ job < s.submitted then
    some (s.setJob job fun j => { j with canceled := true })
  else none

/-- `Dispatch` from its first critical section to the head of the drain loop. -/
def dispatch (s : State) (ready : Nat) : Option State :=
  if s.owner = .idle ∧ ready = s.ready.length then some { s with owner := .loop ready }
  else none

/-- `Dispatch` re-entered from a completion throws before it changes anything. -/
def recursive (s : State) : Option State :=
  if s.owner.free ∧ s.owner ≠ .idle then some s else none

def pop (s : State) (job : Nat) : Option State :=
  match s.owner, s.ready with
  | .loop (remaining + 1), head :: rest =>
      if head = job then some { s with ready := rest, owner := .popped job remaining } else none
  | _, _ => none

def call (s : State) (job : Nat) : Option State :=
  match s.owner with
  | .popped popped remaining =>
      if popped = job ∧ (s.job job).canceled = false then
        some { s with owner := .calling job remaining }
      else none
  | _ => none

/-- A job canceled before its completion counts as consumed. -/
def skip (s : State) (job : Nat) : Option State :=
  match s.owner with
  | .popped popped remaining =>
      if popped = job ∧ (s.job job).canceled = true then
        some { s with owner := .answered job remaining .consumed }
      else none
  | _ => none

def answer (s : State) (job : Nat) (answer : Answer) : Option State :=
  match s.owner with
  | .calling called remaining =>
      if called = job then some { s with owner := .answered job remaining answer } else none
  | _ => none

/-- The closures of a consumed or canceled job go outside the lock. -/
def release (s : State) (job : Nat) : Option State :=
  match s.owner with
  | .answered answered remaining answer =>
      if answered = job ∧ (answer ≠ .retained ∨ (s.job job).canceled = true) then
        some { s.setJob job (fun j => { j with released := true, error := false }) with
          owner := .releasing job remaining (answer == .threw) }
      else none
  | _ => none

/-- `std::erase(jobs_, job)`; the exception of the completion is rethrown after
it and leaves the drain loop. -/
def erase (s : State) (job : Nat) : Option State :=
  match s.owner with
  | .releasing released remaining failure =>
      if released = job then
        some { s with
          jobs := s.jobs.filter (· ≠ job),
          owner := if failure then .idle else .loop remaining }
      else none
  | _ => none

/-- The completion answered false: the job goes back to the end of the ready list. -/
def retain (s : State) (job : Nat) : Option State :=
  match s.owner with
  | .answered answered remaining .retained =>
      if answered = job ∧ (s.job job).canceled = false then
        some { s with ready := s.ready ++ [job], owner := .loop remaining }
      else none
  | _ => none

def done (s : State) : Option State :=
  if s.owner = .loop 0 then some { s with owner := .idle } else none

/-- The critical section of `Stop`. -/
def stop (s : State) : Option State :=
  if s.owner = .idle then
    some { s with
      stopping := true, owner := .joining,
      job := fun job => if job ∈ s.jobs then { s.job job with canceled := true } else s.job job }
  else none

/-- `Stop` after every worker has left. -/
def join (s : State) : Option State :=
  if s.owner = .joining ∧ ∀ worker ∈ s.workers, worker = .exited then
    some { s with
      owner := .stopped, jobs := [], ready := [], waiting := [],
      job := fun job =>
        if job ∈ s.jobs then { s.job job with released := true, error := false } else s.job job }
  else none

def next (s : State) : Label → Option State
  | .submit job => submit s job
  | .refuse => refuse s
  | .cancel job => cancel s job
  | .take worker job => take s worker job
  | .workStart worker job => workStart s worker job
  | .workSkip worker job => workSkip s worker job
  | .workEnd worker job threw => workEnd s worker job threw
  | .publish worker job => publish s worker job
  | .exit worker => exit s worker
  | .dispatch ready => dispatch s ready
  | .recursive => recursive s
  | .pop job => pop s job
  | .call job => call s job
  | .skip job => skip s job
  | .answer job outcome => answer s job outcome
  | .release job => release s job
  | .erase job => erase s job
  | .retain job => retain s job
  | .done => done s
  | .stop => stop s
  | .join => join s

/-- The jobs some worker holds between taking and publishing them. -/
def State.running (s : State) : List Nat := s.workers.filterMap Worker.job?

/-- The job being dispatched, if any. -/
def State.dispatched (s : State) : List Nat := s.owner.job?.toList

/-- `Pending`. -/
def State.pending (s : State) : Nat := s.jobs.length

/-! A completion that keeps its job is called again only by the next dispatch. -/

example :
    (Transition.run next (init 1 2)
      [.submit 0, .take 0 0, .workStart 0 0, .workEnd 0 0 false, .publish 0 0,
        .dispatch 1, .pop 0, .call 0, .submit 1, .answer 0 .retained, .retain 0, .done]).map
      (fun s => (s.jobs, s.waiting, s.ready, s.owner)) = some ([0, 1], [1], [0], .idle) := by
  decide

end Source2Root.WorkQueue
