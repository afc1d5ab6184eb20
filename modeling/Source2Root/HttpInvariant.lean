import Source2Root.HttpCourse

/-!
# The invariant of the requests

What ties an object to its course, a job to the request that waits for it and a token to
the one that is to be called with it.  Every step is about the queue alone or about one
request; what it leaves alone is said once.
-/

set_option autoImplicit false

namespace Source2Root.HttpRequests

open Transition
open Source2Root.Http
open WorkQueue (Follows Life Held Paced Step At)

variable {library : Library} {s t : State} {id i j : Nat} {c d : Course} {e : Happening}
  {token : Token}

/-! ## What an object shows -/

def Course.phase (c : Course) : Phase :=
  match c.stage with
  | .building => .building
  | .sent => .sent
  | .complete | .called | .missed => .complete
  | .canceled => .canceled

def Course.error (c : Course) : String :=
  match c.stage with
  | .building | .sent => ""
  | .complete | .called | .missed => errorOf c.result
  | .canceled => "HTTP request canceled."

/-- The response of a result; an exception leaves it as it was. -/
def responseOf (result : Except String Response) : Response :=
  match result with
  | .ok response => response
  | .error _ => {}

def Course.response (c : Course) : Response :=
  match c.stage with
  | .complete | .called | .missed => responseOf c.result
  | .building | .sent | .canceled => {}

structure Shows (o : Object) (c : Course) : Prop where
  state : o.state = c.phase
  ticket : o.ticket = if c.pending then some c.job else none
  callback : o.callback = if c.pending then c.token else 0
  error : o.error = c.error
  response : o.response = c.response
  handle : c.stage ≠ .building → o.handle = c.handle

/-! ## The invariant -/

/-- The state of a request against its course. -/
structure Bound (library : Library) (s : State) (id : Nat) (c : Course) : Prop where
  shows_ : Shows (s.object id) c
  unborn : s.created ≤ id → c = {} ∧ id ∉ s.owned
  open_ : id ∈ s.owned → c.closed = false
  owned : c.pending = true → id ∈ s.owned
  valid : id ∈ s.owned → c.stage = .building → (s.object id).input.validate library = .ok ()
  locked : s.locked = some id → c.stage = .called
  token : c.pending = true → 0 < c.token ∧ (c.token ∈ s.live ↔ c.lost = false)
  below : c.token ≤ s.tokens
  job : c.pending = true → c.job < s.queue.submitted ∧ (s.job c.job).request = id ∧
    (s.job c.job).input = c.input ∧ (s.job c.job).data = c.data

/-- The request waits for this job. -/
def Awaits (log : List Happening) (id j : Nat) : Prop :=
  ∃ c, Course.of id log = some c ∧ c.pending = true ∧ c.job = j

/-- The life of a job that is still to answer. -/
def Open (life : Life) : Prop :=
  life.canceled = false ∧ (life.phase = .waiting ∨ life.phase = .took ∨ life.phase = .working ∨
    life.phase = .finished ∨ life.phase = .ready ∨ life.phase = .popped ∨
      life.phase = .answered .retained)

/-- The work of the job has not come to its end. -/
def Early (life : Life) : Prop :=
  life.phase = .fresh ∨ life.phase = .waiting ∨ life.phase = .took ∨ life.phase = .working

/-- The work of the job is under way, whatever has become of its request. -/
def Busy (s : State) (j : Nat) : Prop :=
  ∃ c, Course.of (s.job j).request s.journal = some c ∧ c.transferred = true ∧ c.job = j ∧
    c.input = (s.job j).input ∧ c.outcome = none

/-- A job against the request it works for. -/
structure Tied (s : State) (j : Nat) (life : Life) : Prop where
  open_ : Open life ↔ Awaits s.journal (s.job j).request j
  early : Early life → life.ended = false
  busy : life.phase = .working → Busy s j
  begun : ∀ c, Course.of (s.job j).request s.journal = some c → c.pending = true → c.job = j →
    c.transferred = life.started ∧ (life.ended = true → c.outcome = some (s.job j).result)

/-- The happenings after which the core has a token no more. -/
def Happening.takes (token : Token) : Happening → Bool
  | .dropped other | .lost other | .called _ other .. => other == token
  | _ => false

/-- A token that was given is had, or was taken once. -/
def State.Accounts (s : State) (token : Token) : Prop :=
  s.journal.countP (Happening.takes token) + (if token ∈ s.live then 1 else 0) =
    if 0 < token ∧ token ≤ s.tokens then 1 else 0

structure Inv (library : Library) (s : State) : Prop where
  held : Held s.queue
  paced : Paced s.queue
  calm : s.queue.stopping = false
  requests : ∀ id, ∃ c, Course.of id s.journal = some c ∧ Bound library s id c
  jobs : ∀ j, ∃ life, Follows s.queue j life ∧ life.Sound ∧ Tied s j life
  distinct : ∀ i k c d, Course.of i s.journal = some c → Course.of k s.journal = some d →
    c.pending = true → d.pending = true → c.token = d.token → i = k
  live : ∀ token ∈ s.live, ∃ id c, Course.of id s.journal = some c ∧ c.pending = true ∧
    c.token = token
  accounts : ∀ token, s.Accounts token
  results : ∀ id job result, Happening.worked id job result ∈ s.journal →
    ∃ input w, Happening.transferred id job input ∈ s.journal ∧
      result = Surroundings.result w library input
  locked : ∀ id, s.locked = some id ↔
    ∃ j r, s.queue.owner = .calling j r ∧ (s.job j).request = id
  listed : s.requests.length ≤ 64 ∧ ∀ id, s.alive id = true → id ∈ s.requests

/-- The results of before, in a longer journal in which no other work ends. -/
theorem Inv.results_more (inv : Inv library s) {journal : List Happening}
    (longer : ∀ e ∈ s.journal, e ∈ journal)
    (same : ∀ id job result, Happening.worked id job result ∈ journal →
      Happening.worked id job result ∈ s.journal) (id job : Nat)
    (result : Except String Response) (member : Happening.worked id job result ∈ journal) :
    ∃ input w, Happening.transferred id job input ∈ journal ∧
      result = Surroundings.result w library input := by
  obtain ⟨input, w, done, is⟩ := inv.results id job result (same id job result member)
  exact ⟨input, w, longer _ done, is⟩

theorem Inv.results_note (inv : Inv library s) {e : Happening}
    (other : ∀ id job result, e ≠ .worked id job result) (id job : Nat)
    (result : Except String Response)
    (member : Happening.worked id job result ∈ s.journal ++ [e]) :
    ∃ input w, Happening.transferred id job input ∈ s.journal ++ [e] ∧
      result = Surroundings.result w library input := by
  refine inv.results_more (fun _ => List.mem_append_left _) (fun id job result member => ?_)
    id job result member
  refine (List.mem_append.mp member).resolve_right fun last => ?_
  exact other id job result (List.mem_singleton.mp last).symm

theorem inv_start : Inv library start := by
  have none_ (id : Nat) : Course.of id start.journal = some {} := rfl
  refine ⟨WorkQueue.held_init 2 32, WorkQueue.paced_init 2 32, rfl, ?_, ?_, ?_, ?_, ?_, ?_, ?_, ?_⟩
  · intro id
    refine ⟨{}, none_ id, ⟨rfl, rfl, rfl, rfl, rfl, nofun⟩, ?_, nofun, nofun, nofun, nofun, nofun,
      Nat.le_refl _, nofun⟩
    exact fun _ => ⟨rfl, Finset.notMem_empty id⟩
  · intro j
    refine ⟨{}, WorkQueue.follows_init 2 32 j, WorkQueue.Life.sound_start, ?_, fun _ => rfl,
      nofun, ?_⟩
    · constructor
      · intro open_
        simp [Open] at open_
      · rintro ⟨c, now, pending, -⟩
        cases now
        cases pending
    · intro c now pending
      cases now
      cases pending
  · intro i k c d now _ pending
    cases now
    cases pending
  · intro token live
    cases live
  · intro token
    have outside : ¬ (0 < token ∧ token ≤ 0) := fun h => Nat.not_lt.mpr h.2 h.1
    exact (if_neg outside).symm
  · intro id job result member
    cases member
  · intro id
    constructor
    · intro locked
      cases locked
    · rintro ⟨j, r, owner, -⟩
      cases owner
  · exact ⟨Nat.zero_le _, fun id alive => by simp [State.alive, start] at alive⟩

/-! ## Steps of the queue alone -/

/-- A step moves the life of every job. -/
theorem lives_step {q q' : WorkQueue.State} {label : WorkQueue.Label} {P : Nat → Life → Prop}
    (held : Held q) (paced : Paced q) (stepped : Step q label q')
    (jobs : ∀ j, ∃ life, Follows q j life ∧ life.Sound ∧ P j life) (j : Nat) :
    ∃ later, Follows q' j later ∧ later.Sound ∧
      ∃ life, life.Sound ∧ P j life ∧ Life.next j life label = some later := by
  obtain ⟨life, follows, sound, have_⟩ := jobs j
  obtain ⟨later, moved, followed⟩ := follows.step held paced sound stepped
  exact ⟨later, followed, sound.next moved, life, sound, have_, moved⟩

/-- What the steps that no function of a job is part of keep of a life. -/
structure Kept (life later : Life) : Prop where
  open_ : Open later ↔ Open life
  started : later.started = life.started
  ended : later.ended = life.ended
  working : later.phase = .working → life.phase = .working
  early : Early later → Early life

theorem Kept.refl (life : Life) : Kept life life := ⟨Iff.rfl, rfl, rfl, id, id⟩

theorem plain_kept {label : WorkQueue.Label} {life later : Life} (simple : plain label = true)
    (moved : Life.next j life label = some later) : Kept life later := by
  cases about : label.job? with
  | none =>
      rw [Life.next_all about] at moved
      cases label with
      | dispatch ready =>
          cases moved
          exact ⟨Iff.rfl, rfl, rfl, id, id⟩
      | done =>
          cases moved
          exact Kept.refl life
      | _ => cases simple <;> cases about
  | some i =>
      by_cases own : i = j
      · subst own
        rw [Life.next_own about] at moved
        cases label with
        | release k =>
            simp only [Life.advance] at moved
            split at moved
            · rename_i answer phase
              simp only [Option.ite_none_right_eq_some, Option.some.injEq] at moved
              obtain ⟨spent, rfl⟩ := moved
              refine ⟨?_, rfl, rfl, by simp, by simp [Early]⟩
              simp only [Open, phase]
              grind
            · cases moved
        | take | workSkip | publish | pop | skip | erase | retain =>
            simp only [Life.advance, Option.ite_none_right_eq_some, Option.some.injEq] at moved
            obtain ⟨guard, rfl⟩ := moved
            constructor <;> simp_all [Open, Early]
        | dispatch | done => cases about
        | _ => cases simple
      · rw [Life.next_other about own] at moved
        cases moved
        exact Kept.refl _

theorem plain_owner {q q' : WorkQueue.State} {label : WorkQueue.Label}
    (simple : plain label = true) (stepped : Step q label q') {k r : Nat} :
    q'.owner = .calling k r ↔ q.owner = .calling k r := by
  cases stepped with
  | take | workSkip | publish => exact Iff.rfl
  | @erase i remaining failure at_ => cases failure <;> simp [at_]
  | dispatch at_ | pop at_ | skip at_ | release at_ | retain at_ | done at_ => simp [at_]
  | _ => cases simple

theorem plain_submitted {q q' : WorkQueue.State} {label : WorkQueue.Label}
    (simple : plain label = true) (stepped : Step q label q') :
    q'.submitted = q.submitted ∧ q'.stopping = q.stopping := by
  cases stepped <;> first | exact ⟨rfl, rfl⟩ | cases simple

theorem Tied.kept {life later : Life} (tied : Tied s j life) (kept : Kept life later)
    (same : t.journal = s.journal) (job : t.job = s.job) : Tied t j later := by
  obtain ⟨open_, early, busy, begun⟩ := tied
  unfold Busy at busy
  rw [← same, ← job] at open_ busy begun
  refine ⟨kept.open_.trans open_, fun later => ?_, fun at_ => busy (kept.working at_),
    fun c now pending own => ?_⟩
  · rw [kept.ended]
    exact early (kept.early later)
  · rw [kept.started, kept.ended]
    exact begun c now pending own

/-! ## What a step leaves alone -/

/-- A step that is not about this request. -/
structure Frame (s t : State) (i : Nat) : Prop where
  object : t.object i = s.object i
  created : s.created ≤ t.created
  owned : i ∈ t.owned ↔ i ∈ s.owned
  locked : t.locked = some i → s.locked = some i
  tokens : s.tokens ≤ t.tokens
  submitted : s.queue.submitted ≤ t.queue.submitted
  job : ∀ k < s.queue.submitted, (t.job k).request = (s.job k).request ∧
    (t.job k).input = (s.job k).input ∧ (t.job k).data = (s.job k).data

/-- A step of the scripts that submits nothing. -/
theorem Frame.calm (object : t.object i = s.object i) (created : s.created ≤ t.created)
    (owned : i ∈ t.owned ↔ i ∈ s.owned) (tokens : s.tokens ≤ t.tokens)
    (locked : t.locked = s.locked) (queue : t.queue = s.queue) (job : t.job = s.job) :
    Frame s t i :=
  ⟨object, created, owned, fun taken => locked ▸ taken, tokens, queue ▸ Nat.le_refl _,
    fun _ _ => job ▸ ⟨rfl, rfl, rfl⟩⟩

/-- A step of the queue. -/
theorem Frame.queue (object : t.object i = s.object i) (created : t.created = s.created)
    (owned : t.owned = s.owned) (locked : t.locked = some i → s.locked = some i)
    (tokens : t.tokens = s.tokens) (submitted : t.queue.submitted = s.queue.submitted)
    (job : ∀ k, (t.job k).request = (s.job k).request ∧
      (t.job k).input = (s.job k).input ∧ (t.job k).data = (s.job k).data) : Frame s t i :=
  ⟨object, created ▸ Nat.le_refl _, owned ▸ Iff.rfl, locked, tokens ▸ Nat.le_refl _,
    submitted ▸ Nat.le_refl _, fun k _ => job k⟩

theorem Bound.frame (bound : Bound library s i c) (frame : Frame s t i)
    (live : c.pending = true → (c.token ∈ t.live ↔ c.token ∈ s.live)) : Bound library t i c where
  shows_ := frame.object ▸ bound.shows_
  unborn early := by
    obtain ⟨fresh, outside⟩ := bound.unborn (Nat.le_trans frame.created early)
    exact ⟨fresh, fun member => outside (frame.owned.mp member)⟩
  open_ member := bound.open_ (frame.owned.mp member)
  owned pending := frame.owned.mpr (bound.owned pending)
  valid member building := frame.object ▸ bound.valid (frame.owned.mp member) building
  locked taken := bound.locked (frame.locked taken)
  token pending := ⟨(bound.token pending).1, (live pending).trans (bound.token pending).2⟩
  below := Nat.le_trans bound.below frame.tokens
  job pending := by
    obtain ⟨known, request, input, data⟩ := bound.job pending
    obtain ⟨request', input', data'⟩ := frame.job _ known
    exact ⟨Nat.lt_of_lt_of_le known frame.submitted, request'.trans request, input'.trans input,
      data'.trans data⟩

/-- Only the queue goes on, and leaves every job as open as it was. -/
theorem Inv.requeue (inv : Inv library s) {q : WorkQueue.State} {locked : Option Nat}
    (held : Held q) (paced : Paced q) (calm : q.stopping = false)
    (submitted : q.submitted = s.queue.submitted)
    (jobs : ∀ j, ∃ later, Follows q j later ∧ later.Sound ∧
      ∃ life, Tied s j life ∧ Kept life later)
    (locks : ∀ id, locked = some id ↔ ∃ j r, q.owner = .calling j r ∧ (s.job j).request = id)
    (before : ∀ id, locked = some id → s.locked = some id) :
    Inv library { s with queue := q, locked } := by
  refine ⟨held, paced, calm, ?_, ?_, inv.distinct, inv.live, inv.accounts, inv.results, locks,
    inv.listed.1, ?_⟩
  · intro id
    obtain ⟨c, now, bound⟩ := inv.requests id
    exact ⟨c, now, bound.frame
      (Frame.queue rfl rfl rfl (before id) rfl submitted fun _ => ⟨rfl, rfl, rfl⟩)
      fun _ => Iff.rfl⟩
  · intro j
    obtain ⟨later, follows, sound, life, tied, kept⟩ := jobs j
    exact ⟨later, follows, sound, tied.kept kept rfl rfl⟩
  · intro id alive
    refine inv.listed.2 id ?_
    simp only [State.alive, Bool.or_eq_true, decide_eq_true_eq, beq_iff_eq] at alive ⊢
    exact alive.imp_right (before id)

theorem Inv.queue {label : WorkQueue.Label} {q : WorkQueue.State} (inv : Inv library s)
    (simple : plain label = true) (stepped : Step s.queue label q) :
    Inv library { s with queue := q } := by
  obtain ⟨submitted, stopping⟩ := plain_submitted simple stepped
  refine inv.requeue (inv.held.step stepped) (inv.paced.step stepped) (stopping.trans inv.calm)
    submitted ?_ ?_ fun _ => fun same => same
  · intro j
    obtain ⟨later, follows, sound, life, -, tied, moved⟩ :=
      lives_step inv.held inv.paced stepped inv.jobs j
    exact ⟨later, follows, sound, life, tied, plain_kept simple moved⟩
  · intro id
    rw [inv.locked id]
    constructor
    · rintro ⟨k, r, owner, own⟩
      exact ⟨k, r, (plain_owner simple stepped).mpr owner, own⟩
    · rintro ⟨k, r, owner, own⟩
      exact ⟨k, r, (plain_owner simple stepped).mp owner, own⟩

/-! ## Tokens -/

theorem Happening.takes_eq {other : Token} (takes : e.takes token = true) :
    e.takes other = decide (other = token) := by
  cases e <;> simp_all [Happening.takes] <;> grind

/-- A token that the core has is taken from it. -/
theorem accounts_taken (accounts : ∀ k, s.Accounts k) (had : token ∈ s.live)
    (takes : e.takes token = true) (k : Token) :
    { s with live := s.live.erase token, journal := s.journal ++ [e] }.Accounts k := by
  have before := accounts k
  unfold State.Accounts at before ⊢
  rw [List.countP_append, List.countP_singleton, Happening.takes_eq takes]
  by_cases same : k = token
  · subst same
    simp only [had, if_true, Finset.notMem_erase, if_false] at before ⊢
    simpa using before
  · simpa [same] using before

/-- What takes no token. -/
theorem accounts_note (accounts : ∀ k, s.Accounts k) (free : ∀ k, e.takes k = false) (k : Token) :
    (s.note e).Accounts k := by
  have before := accounts k
  unfold State.Accounts at before ⊢
  simp only [State.note, List.countP_append, List.countP_singleton, free, Bool.false_eq_true,
    if_false, Nat.add_zero]
  exact before

theorem accounts_withdrawn (accounts : ∀ k, s.Accounts k) (token k : Token) :
    { s with
      live := s.live.erase token
      journal := s.journal ++ if token ∈ s.live then [Happening.dropped token] else [] }.Accounts
        k := by
  by_cases had : token ∈ s.live
  · simpa only [if_pos had] using accounts_taken accounts had (by simp [Happening.takes]) k
  · simpa only [if_neg had, List.append_nil, Finset.erase_eq_of_notMem had] using accounts k

/-! ## Courses after a step -/

theorem awaits_iff {log : List Happening} (now : Course.of id log = some c) :
    Awaits log id j ↔ c.pending = true ∧ c.job = j := by
  constructor
  · rintro ⟨d, other, pending, own⟩
    cases now.symm.trans other
    exact ⟨pending, own⟩
  · rintro ⟨pending, own⟩
    exact ⟨c, now, pending, own⟩

theorem Course.hear_eq (c : Course) (e : Happening) : ∃ lost, c.hear e = { c with lost } := by
  unfold Course.hear
  split
  · split
    · exact ⟨true, rfl⟩
    · exact ⟨c.lost, rfl⟩
  · exact ⟨c.lost, rfl⟩

theorem Shows.lost {o : Object} {lost : Bool} (shows_ : Shows o c) : Shows o { c with lost } :=
  ⟨shows_.state, shows_.ticket, shows_.callback, shows_.error, shows_.response, shows_.handle⟩

/-- The core loses a token. -/
theorem Inv.lost (inv : Inv library s) (token : Token) :
    Inv library (s.endToken token (.lost token)) := by
  unfold State.endToken
  by_cases had : token ∈ s.live
  · rw [if_pos had]
    have heard (i : Nat) (c : Course) (was : Course.of i s.journal = some c) :
        Course.of i (s.journal ++ [.lost token]) = some (c.hear (.lost token)) :=
      (Course.of_snoc was).trans (Course.next_all rfl)
    refine ⟨inv.held, inv.paced, inv.calm, ?_, ?_, ?_, ?_, ?_, ?_, inv.locked, inv.listed⟩
    · intro i
      obtain ⟨c, was, bound⟩ := inv.requests i
      refine ⟨_, heard i c was, ?_⟩
      have tokens := bound.token
      have empty := bound.unborn
      obtain ⟨lost, eq⟩ := Course.hear_eq c (.lost token)
      have flag : lost = (c.hear (.lost token)).lost := by rw [eq]
      rw [eq]
      refine ⟨bound.shows_.lost, ?_, bound.open_, bound.owned, bound.valid, bound.locked, ?_,
        bound.below, bound.job⟩
      · intro early
        obtain ⟨rfl, outside⟩ := empty early
        exact ⟨by simp [flag, Course.hear, Course.pending], outside⟩
      · intro pending
        obtain ⟨positive, live⟩ := tokens pending
        refine ⟨positive, ?_⟩
        replace pending : c.pending = true := pending
        by_cases same : c.token = token <;>
          simp [flag, Course.hear, pending, same, live]
    · intro j
      obtain ⟨life, follows, sound, tied⟩ := inv.jobs j
      refine ⟨life, follows, sound, ?_⟩
      obtain ⟨c, was, -⟩ := inv.requests (s.job j).request
      have now := heard _ c was
      obtain ⟨lost, eq⟩ := Course.hear_eq c (.lost token)
      rw [eq] at now
      refine ⟨?_, tied.early, ?_, ?_⟩
      · rw [tied.open_, awaits_iff was, awaits_iff now]
        exact Iff.rfl
      · intro working
        obtain ⟨d, other, under⟩ := tied.busy working
        cases was.symm.trans other
        exact ⟨_, now, under⟩
      · intro d other pending own
        cases now.symm.trans other
        exact tied.begun c was pending own
    · intro i k c d now now' pending pending' same
      obtain ⟨c', was, -⟩ := inv.requests i
      obtain ⟨d', was', -⟩ := inv.requests k
      obtain ⟨lost, eq⟩ := Course.hear_eq c' (.lost token)
      obtain ⟨lost', eq'⟩ := Course.hear_eq d' (.lost token)
      cases (heard i c' was).symm.trans now
      cases (heard k d' was').symm.trans now'
      rw [eq] at pending same
      rw [eq'] at pending' same
      exact inv.distinct i k c' d' was was' pending pending' same
    · intro other member
      obtain ⟨i, c, was, pending, own⟩ := inv.live other (Finset.mem_of_mem_erase member)
      obtain ⟨lost, eq⟩ := Course.hear_eq c (.lost token)
      refine ⟨i, _, heard i c was, ?_⟩
      rw [eq]
      exact ⟨pending, own⟩
    · exact accounts_taken inv.accounts had (by simp [Happening.takes])
    · exact inv.results_note (by simp)
  · rwa [if_neg had]

/-! ## What a step does about one request -/

/-- A step that is about one request: its course goes on, and all others stay as they are. -/
structure Turn (library : Library) (s t : State) (id : Nat) (c d : Course) : Prop where
  was : Course.of id s.journal = some c
  now : Course.of id t.journal = some d
  others : ∀ i c', i ≠ id → Course.of i s.journal = some c' → Course.of i t.journal = some c'
  frame : ∀ i, i ≠ id → Frame s t i
  bound : Bound library t id d
  live : ∀ k, k ≤ s.tokens → (c.pending = true → k ≠ c.token) → (k ∈ t.live ↔ k ∈ s.live)
  fresh : ∀ k ∈ t.live, k ∈ s.live ∨ d.pending = true ∧ d.token = k
  stays : d.pending = true → c.pending = true ∧ d.token = c.token ∨ s.tokens < d.token
  leaves : c.pending = true → c.token ∈ t.live → d.pending = true ∧ d.token = c.token
  keeps : c.transferred = true → d.transferred = true ∧ d.job = c.job ∧ d.input = c.input

theorem Turn.back (turn : Turn library s t id c d) (inv : Inv library s) {c' : Course}
    (apart : i ≠ id) (now : Course.of i t.journal = some c') : Course.of i s.journal = some c' := by
  obtain ⟨c'', was, -⟩ := inv.requests i
  cases (turn.others i c'' apart was).symm.trans now
  exact was

theorem Turn.requests (turn : Turn library s t id c d) (inv : Inv library s) (i : Nat) :
    ∃ c, Course.of i t.journal = some c ∧ Bound library t i c := by
  by_cases own : i = id
  · subst own
    exact ⟨d, turn.now, turn.bound⟩
  · obtain ⟨c', was, bound⟩ := inv.requests i
    refine ⟨c', turn.others i c' own was, bound.frame (turn.frame i own) fun pending => ?_⟩
    refine turn.live _ bound.below fun pending' same => ?_
    exact own (inv.distinct i id c' c was turn.was pending pending' same)

theorem Turn.distinct (turn : Turn library s t id c d) (inv : Inv library s) (i k : Nat)
    (c' d' : Course) (now : Course.of i t.journal = some c')
    (now' : Course.of k t.journal = some d')
    (pending : c'.pending = true) (pending' : d'.pending = true) (same : c'.token = d'.token) :
    i = k := by
  -- One of the two may be the request of the step; its token is its old one or a new one.
  have mixed {k : Nat} {d' : Course} (apart : k ≠ id) (now' : Course.of k t.journal = some d')
      (pending : d.pending = true) (pending' : d'.pending = true) : d.token ≠ d'.token := by
    intro same
    have was' := turn.back inv apart now'
    obtain ⟨c'', was'', bound⟩ := inv.requests k
    cases was'.symm.trans was''
    rcases turn.stays pending with ⟨before, token⟩ | new
    · exact apart (inv.distinct k id d' c was' turn.was pending' before (token ▸ same).symm)
    · exact Nat.not_lt.mpr bound.below (same ▸ new)
  by_cases first : i = id <;> by_cases second : k = id
  · rw [first, second]
  · subst first
    cases turn.now.symm.trans now
    exact absurd same (mixed second now' pending pending')
  · subst second
    cases turn.now.symm.trans now'
    exact absurd same.symm (mixed first now pending' pending)
  · exact inv.distinct i k c' d' (turn.back inv first now) (turn.back inv second now') pending
      pending' same

theorem Turn.had (turn : Turn library s t id c d) (inv : Inv library s) (token : Token)
    (member : token ∈ t.live) : ∃ i c', Course.of i t.journal = some c' ∧ c'.pending = true ∧
      c'.token = token := by
  rcases turn.fresh token member with before | ⟨pending, own⟩
  · obtain ⟨i, c', was, pending, own⟩ := inv.live token before
    by_cases same : i = id
    · subst same
      cases turn.was.symm.trans was
      obtain ⟨pending', own'⟩ := turn.leaves pending (own ▸ member)
      exact ⟨i, d, turn.now, pending', own'.trans own⟩
    · exact ⟨i, c', turn.others i c' same was, pending, own⟩
  · exact ⟨id, d, turn.now, pending, own⟩

/-- The step does not end the work of the job. -/
theorem Turn.busy (turn : Turn library s t id c d) (job : t.job j = s.job j)
    (found : (s.job j).request = id → c.job = j → d.outcome = c.outcome) (busy : Busy s j) :
    Busy t j := by
  obtain ⟨c', was, transferred, own, input, outcome⟩ := busy
  rw [Busy, job]
  by_cases same : (s.job j).request = id
  · rw [same] at was ⊢
    cases turn.was.symm.trans was
    obtain ⟨transferred', own', input'⟩ := turn.keeps transferred
    exact ⟨d, turn.now, transferred', own'.trans own, input'.trans input,
      (found same own).trans outcome⟩
  · exact ⟨c', turn.others _ c' same was, transferred, own, input, outcome⟩

/-- A job that the step is not about. -/
theorem Tied.turn {life later : Life} (tied : Tied s j life) (turn : Turn library s t id c d)
    (inv : Inv library s) (kept : Kept life later) (job : t.job j = s.job j)
    (found : (s.job j).request = id → c.job = j → d.outcome = c.outcome)
    (apart : (s.job j).request = id →
      ¬ (c.pending = true ∧ c.job = j) ∧ ¬ (d.pending = true ∧ d.job = j)) :
    Tied t j later := by
  have still (c' : Course) (now : Course.of (t.job j).request t.journal = some c')
      (pending : c'.pending = true) (own : c'.job = j) :
      Course.of (s.job j).request s.journal = some c' := by
    rw [job] at now
    by_cases same : (s.job j).request = id
    · rw [same] at now
      cases turn.now.symm.trans now
      exact absurd ⟨pending, own⟩ (apart same).2
    · exact turn.back inv same now
  refine ⟨?_, fun later => kept.ended.trans (tied.early (kept.early later)),
    fun at_ => turn.busy job found (tied.busy (kept.working at_)), ?_⟩
  · rw [kept.open_, tied.open_]
    constructor
    · rintro ⟨c', was, pending, own⟩
      rw [job]
      refine ⟨c', turn.others _ c' ?_ was, pending, own⟩
      intro same
      rw [same] at was
      cases turn.was.symm.trans was
      exact (apart same).1 ⟨pending, own⟩
    · rintro ⟨c', now, pending, own⟩
      exact ⟨c', still c' now pending own, pending, own⟩
  · intro c' now pending own
    rw [kept.started, kept.ended, job]
    exact tied.begun c' (still c' now pending own) pending own

theorem Inv.course (inv : Inv library s) (was : Course.of id s.journal = some c) :
    Bound library s id c := by
  obtain ⟨c', was', bound⟩ := inv.requests id
  cases was.symm.trans was'
  exact bound

/-- The request of the step was pending and is so no more: its job is open no more. -/
theorem Turn.ended (turn : Turn library s t id c d) (inv : Inv library s)
    (pending : c.pending = true) (ended : d.pending = false) (found : d.outcome = c.outcome)
    (same : t.job = s.job)
    (jobs : ∀ j, ∃ later, Follows t.queue j later ∧ later.Sound ∧ ∃ life, Tied s j life ∧
      ((c.job = j → ¬ Open later ∧ (Early later → later.ended = false) ∧
          (later.phase = .working → life.phase = .working)) ∧
        (c.job ≠ j → Kept life later))) (j : Nat) :
    ∃ life, Follows t.queue j life ∧ life.Sound ∧ Tied t j life := by
  obtain ⟨later, follows, sound, life, tied, own, other⟩ := jobs j
  refine ⟨later, follows, sound, ?_⟩
  by_cases about : c.job = j
  · obtain ⟨closed, early, working⟩ := own about
    have request : (t.job j).request = id := by
      rw [same, ← about]
      exact ((inv.course turn.was).job pending).2.1
    refine ⟨iff_of_false closed ?_, early,
      fun at_ => turn.busy (congrFun same j) (fun _ _ => found) (tied.busy (working at_)), ?_⟩
    · rw [request, awaits_iff turn.now]
      simp [ended]
    · intro c' now pending'
      rw [request] at now
      cases turn.now.symm.trans now
      exact absurd pending' (by simp [ended])
  · exact tied.turn turn inv (other about) (congrFun same j) (fun _ _ => found) fun _ =>
      ⟨fun h => about h.2, fun h => absurd h.1 (by simp [ended])⟩

end Source2Root.HttpRequests
