import Source2Root.HttpScripts

/-!
# The life of the requests

Every run of the HTTP extension is, for each of its requests, a run of the course: however
the script, the workers, the network and the core take their turns.  What an object shows
is what its course says, a pending request has its job in the queue and that job alone
works for it, and every token that the core has belongs to a pending request.
-/

set_option autoImplicit false

namespace Source2Root.HttpRequests

open Transition
open Source2Root.Http
open WorkQueue (Follows Life Held Paced Step At)

variable {library : Library} {s t : State} {id i j : Nat} {c d : Course} {e : Happening}
  {token : Token}

/-! ## The worker -/

/-- An open job works for a request that waits for it. -/
theorem Inv.opened (inv : Inv library s) {life : Life} (tied : Tied s j life)
    (open_ : Open life) : ∃ c, Course.of (s.job j).request s.journal = some c ∧
      c.pending = true ∧ c.job = j ∧ Bound library s (s.job j).request c := by
  obtain ⟨c, was, pending, own⟩ := tied.open_.mp open_
  exact ⟨c, was, pending, own, inv.course was⟩

theorem Course.pending_closed (pending : c.pending = true) : c.closed = false := by
  simp only [Course.pending, Bool.and_eq_true, Bool.not_eq_true'] at pending
  exact pending.2

theorem Course.pending_stage (pending : c.pending = true) :
    c.stage = .sent ∨ c.stage = .complete := by
  simp only [Course.pending, Bool.and_eq_true, Bool.or_eq_true, beq_iff_eq] at pending
  exact pending.1

theorem Inv.transferred (inv : Inv library s) {worker : Nat} {queue : WorkQueue.State}
    (stepped : Step s.queue (.workStart worker j) queue) :
    Inv library ({ s with queue }.note (.transferred (s.job j).request j (s.job j).input)) := by
  have next_ : queue.submitted = s.queue.submitted ∧ queue.owner = s.queue.owner ∧
      queue.stopping = s.queue.stopping := by
    cases stepped
    exact ⟨rfl, rfl, rfl⟩
  obtain ⟨submitted, owner, stopping⟩ := next_
  -- The job is taken and not canceled, so a request waits for it.
  obtain ⟨life, follows, sound, tied, taken, live⟩ : ∃ life, Follows s.queue j life ∧ life.Sound ∧
      Tied s j life ∧ life.phase = .took ∧ life.canceled = false := by
    obtain ⟨life, follows, sound, tied⟩ := inv.jobs j
    obtain ⟨later, moved, -⟩ := follows.step inv.held inv.paced sound stepped
    rw [Life.next_own rfl] at moved
    simp only [Life.advance, Option.ite_none_right_eq_some] at moved
    exact ⟨life, follows, sound, tied, moved.1⟩
  obtain ⟨c, was, pending, own, bound⟩ :=
    inv.opened tied ⟨live, Or.inr (Or.inl taken)⟩
  obtain ⟨started, -⟩ := tied.begun c was pending own
  have untransferred : c.transferred = false :=
    started.trans (sound.unstarted (Or.inr (Or.inr taken)))
  have stage : c.stage = .sent := by
    refine (Course.pending_stage pending).resolve_right fun complete => ?_
    rw [(Course.recorded was).begun (by simp [(Course.recorded was).found complete])]
      at untransferred
    cases untransferred
  have input : c.input = (s.job j).input := by
    rw [← (bound.job pending).2.2.1, own]
  have unworked : c.outcome = none := by
    by_contra worked
    exact Bool.false_ne_true (untransferred.symm.trans ((Course.recorded was).begun worked))
  have now : Course.of (s.job j).request ({ s with queue }.note
      (.transferred (s.job j).request j (s.job j).input)).journal =
        some { c with transferred := true } :=
    (Course.of_snoc was).trans ((Course.next_own rfl).trans
      (if_pos ⟨stage, Course.pending_closed pending, untransferred, own, input⟩))
  have turn : Turn library s ({ s with queue }.note
      (.transferred (s.job j).request j (s.job j).input)) (s.job j).request c
        { c with transferred := true } := by
    refine ⟨was, now, ?_, ?_, ?_, fun _ _ _ => Iff.rfl, fun _ => Or.inl,
      fun _ => Or.inl ⟨pending, rfl⟩, fun _ _ => ⟨pending, rfl⟩, fun _ => ⟨rfl, rfl, rfl⟩⟩
    · exact fun i c' apart was' => Course.of_other rfl apart.symm was'
    · exact fun i _ => Frame.queue rfl rfl rfl (fun taken => taken) rfl submitted
        fun _ => ⟨rfl, rfl, rfl⟩
    · obtain ⟨shows_, unborn, open_, owned, valid, locked, token, below, job⟩ := bound
      refine ⟨⟨shows_.state, shows_.ticket, shows_.callback, shows_.error, shows_.response,
        shows_.handle⟩, ?_, open_, owned, valid, locked, token, below, ?_⟩
      · intro early
        obtain ⟨rfl, -⟩ := unborn early
        cases pending
      · exact fun pending => ⟨submitted.symm ▸ (job pending).1, (job pending).2⟩
  refine ⟨inv.held.step stepped, inv.paced.step stepped, stopping.trans inv.calm,
    turn.requests inv, ?_, turn.distinct inv, turn.had inv, accounts_note inv.accounts fun _ => rfl,
    ?_, ?_, inv.listed⟩
  · intro k
    obtain ⟨later, follows', sound', life', sound'', tied', moved⟩ :=
      lives_step inv.held inv.paced stepped inv.jobs k
    refine ⟨later, follows', sound', ?_⟩
    by_cases same : j = k
    · subst same
      rw [Life.next_own rfl] at moved
      simp only [Life.advance, Option.ite_none_right_eq_some, Option.some.injEq] at moved
      obtain ⟨⟨took, uncanceled⟩, rfl⟩ := moved
      have unended := tied'.early (Or.inr (Or.inr (Or.inl took)))
      refine ⟨?_, fun _ => unended, fun _ => ⟨_, now, rfl, own, input, unworked⟩, ?_⟩
      · refine Iff.trans ?_ (awaits_iff now).symm
        exact iff_of_true ⟨uncanceled, by simp⟩ ⟨pending, own⟩
      · intro c' now' _ _
        cases now.symm.trans now'
        exact ⟨rfl, by simp [unended]⟩
    · rw [Life.next_other rfl same] at moved
      cases moved
      refine tied'.turn turn inv (Kept.refl _) rfl (fun _ _ => rfl) fun _ => ?_
      exact ⟨fun h => same (own.symm.trans h.2), fun h => same (own.symm.trans h.2)⟩
  · exact inv.results_note (by simp)
  · intro i
    refine (inv.locked i).trans ?_
    simp only [State.note, owner]

theorem Inv.worked (inv : Inv library s) {worker : Nat} {queue : WorkQueue.State}
    {w : Surroundings}
    (stepped : Step s.queue
      (.workEnd worker j (threw (w.result library (s.job j).input))) queue) :
    Inv library ({ s with
      queue
      job := Function.update s.job j
        { s.job j with result := w.result library (s.job j).input } }.note
          (.worked (s.job j).request j (w.result library (s.job j).input))) := by
  have next_ : queue.submitted = s.queue.submitted ∧ queue.owner = s.queue.owner ∧
      queue.stopping = s.queue.stopping := by
    cases stepped
    exact ⟨rfl, rfl, rfl⟩
  obtain ⟨submitted, owner, stopping⟩ := next_
  obtain ⟨life, working, tied⟩ : ∃ life : Life, life.phase = .working ∧ Tied s j life := by
    obtain ⟨life, follows, sound, tied⟩ := inv.jobs j
    obtain ⟨later, moved, -⟩ := follows.step inv.held inv.paced sound stepped
    rw [Life.next_own rfl] at moved
    simp only [Life.advance, Option.ite_none_right_eq_some] at moved
    exact ⟨life, moved.1, tied⟩
  obtain ⟨c, was, transferred, own, input, unworked⟩ := tied.busy working
  have bound := inv.course was
  obtain ⟨result, found⟩ : ∃ result, w.result library (s.job j).input = result := ⟨_, rfl⟩
  rw [found]
  obtain ⟨t, after⟩ : ∃ t, t = { s with
      queue
      job := Function.update s.job j { s.job j with result } }.note
        (.worked (s.job j).request j result) := ⟨_, rfl⟩
  have same (k : Nat) : (t.job k).request = (s.job k).request ∧
      (t.job k).input = (s.job k).input ∧ (t.job k).data = (s.job k).data := by
    rw [after]
    by_cases own : k = j
    · subst own
      simp [State.note]
    · simp [State.note, own]
  have now : Course.of (s.job j).request t.journal = some { c with outcome := some result } := by
    rw [after]
    exact (Course.of_snoc was).trans ((Course.next_own rfl).trans
      (if_pos ⟨transferred, own, unworked⟩))
  have live : t.live = s.live := by rw [after]; rfl
  have frame (i : Nat) : Frame s t i := by
    refine Frame.queue ?_ ?_ ?_ ?_ ?_ ?_ same <;> rw [after]
    · rfl
    · rfl
    · rfl
    · exact fun taken => taken
    · rfl
    · exact submitted
  have turn : Turn library s t (s.job j).request c { c with outcome := some result } := by
    refine ⟨was, now, ?_, fun i _ => frame i, ?_, fun _ _ _ => live ▸ Iff.rfl,
      fun _ member => Or.inl (live ▸ member), fun pending => Or.inl ⟨pending, rfl⟩,
      fun pending _ => ⟨pending, rfl⟩, fun began => ⟨began, rfl, rfl⟩⟩
    · intro i c' apart was'
      rw [after]
      exact Course.of_other rfl apart.symm was'
    · obtain ⟨shows_, unborn, open_, owned, valid, locked, token, below, job⟩ :=
        bound.frame (frame _) fun _ => live ▸ Iff.rfl
      refine ⟨⟨shows_.state, shows_.ticket, shows_.callback, shows_.error, shows_.response,
        shows_.handle⟩, ?_, open_, owned, valid, locked, token, below, job⟩
      intro early
      obtain ⟨rfl, -⟩ := unborn early
      cases transferred
  have step_ : t.queue = queue := by rw [after]; rfl
  have journal : t.journal = s.journal ++ [.worked (s.job j).request j result] := by rw [after]; rfl
  rw [← after]
  refine ⟨step_ ▸ inv.held.step stepped, step_ ▸ inv.paced.step stepped,
    step_ ▸ stopping.trans inv.calm, turn.requests inv, ?_, turn.distinct inv, turn.had inv, ?_, ?_,
    ?_, ?_⟩
  · intro k
    obtain ⟨later, follows, sound, life, sound', tied, moved⟩ :=
      lives_step inv.held inv.paced stepped inv.jobs k
    refine ⟨later, step_ ▸ follows, sound, ?_⟩
    by_cases ours : j = k
    · subst ours
      rw [Life.next_own rfl] at moved
      simp only [Life.advance, Option.ite_none_right_eq_some, Option.some.injEq] at moved
      obtain ⟨working, rfl⟩ := moved
      refine ⟨?_, by simp [Early], (fun never => by cases never), ?_⟩
      · rw [(same j).1, awaits_iff now]
        have waits : Open life ↔ c.pending = true ∧ c.job = j := tied.open_.trans (awaits_iff was)
        refine Iff.trans ?_ waits
        simp [Open, working]
      · intro c' now' pending _
        rw [(same j).1] at now'
        cases now.symm.trans now'
        obtain ⟨started, -⟩ := tied.begun c was pending own
        refine ⟨started, fun _ => congrArg some ?_⟩
        simp [after, State.note]
    · rw [Life.next_other rfl ours] at moved
      cases moved
      have unchanged : t.job k = s.job k := by
        rw [after]
        exact Function.update_of_ne (Ne.symm ours) ..
      refine tied.turn turn inv (Kept.refl _) unchanged
        (fun _ worked => absurd (own.symm.trans worked) ours) fun _ => ?_
      exact ⟨fun h => ours (own.symm.trans h.2), fun h => ours (own.symm.trans h.2)⟩
  · rw [after]
    exact accounts_note inv.accounts fun _ => rfl
  · intro i job result' member
    rw [journal] at member ⊢
    rcases List.mem_append.mp member with member | member
    · obtain ⟨input, w, done, same⟩ := inv.results i job result' member
      exact ⟨input, w, List.mem_append_left _ done, same⟩
    · cases List.mem_singleton.mp member
      refine ⟨(s.job j).input, w, List.mem_append_left _ ?_, found.symm⟩
      exact ((Course.recorded was).transferred _ _).mpr ⟨transferred, own, input⟩
  · intro i
    have locked : t.locked = s.locked := by rw [after]; rfl
    rw [locked, step_]
    refine (inv.locked i).trans ?_
    simp only [owner, (same _).1]
  · rw [after]
    exact inv.listed

/-! ## The completion -/

/-- The job that the dispatcher has popped, and that is not canceled, is the one its request
waits for. -/
theorem Inv.popped (inv : Inv library s) {r : Nat} (at_ : s.queue.owner = .popped j r)
    (live : (s.queue.job j).canceled = false) :
    ∃ c, Course.of (s.job j).request s.journal = some c ∧ c.pending = true ∧ c.job = j ∧
      c.outcome = some (s.job j).result := by
  obtain ⟨life, follows, sound, tied⟩ := inv.jobs j
  have phase : life.phase = .popped := follows.place.unique inv.held ⟨r, at_⟩
  have uncanceled : life.canceled = false :=
    (follows.canceled (by simp [phase])).trans live
  obtain ⟨c, was, pending, own, bound⟩ := inv.opened tied ⟨uncanceled, by simp [phase]⟩
  have found := (tied.begun c was pending own).2
  have done : life.ended = true := by
    have worked := sound.ended (by simp [phase])
    exact worked.resolve_right (by simp [uncanceled])
  exact ⟨c, was, pending, own, found done⟩

/-- The course of a request that is complete, if it was sent before. -/
def Course.settled (c : Course) (result : Except String Response) : Course :=
  if c.stage = .sent then { c with stage := .complete, result } else c

theorem Course.settled_pending (pending : c.pending = true) (result : Except String Response) :
    (c.settled result).pending = true ∧ (c.settled result).stage = .complete := by
  have open_ := Course.pending_closed pending
  unfold Course.settled
  split
  · simp [Course.pending, open_]
  · rename_i other
    exact ⟨pending, (Course.pending_stage pending).resolve_left other⟩

theorem Inv.settled (inv : Inv library s) (was : Course.of id s.journal = some c)
    (pending : c.pending = true) (found : c.outcome = some (s.job c.job).result) :
    Inv library (settle id c.job (s.job c.job).result s) ∧
      Course.of id (settle id c.job (s.job c.job).result s).journal =
        some (c.settled (s.job c.job).result) := by
  have bound := inv.course was
  have shows_ := bound.shows_
  have open_ := Course.pending_closed pending
  unfold settle Course.settled
  rcases Course.pending_stage pending with stage | stage
  · have state : (s.object id).state = .sent := by simp [shows_.state, Course.phase, stage]
    rw [if_pos state, if_pos stage]
    have pending' : ({ c with
        stage := .complete, result := (s.job c.job).result } : Course).pending = true := by
      simp [Course.pending, open_]
    have now : Course.of id ((s.setObject id (·.settle (s.job c.job).result)).note
        (.completed id c.job (s.job c.job).result)).journal =
          some { c with stage := .complete, result := (s.job c.job).result } :=
      (Course.of_snoc was).trans ((Course.next_own rfl).trans
        (if_pos ⟨stage, open_, rfl, found⟩))
    have turn : Turn library s ((s.setObject id (·.settle (s.job c.job).result)).note
        (.completed id c.job (s.job c.job).result)) id c
          { c with stage := .complete, result := (s.job c.job).result } := by
      refine ⟨was, now, ?_, ?_, ?_, fun _ _ _ => Iff.rfl, fun _ => Or.inl,
        fun _ => Or.inl ⟨pending, rfl⟩, fun _ _ => ⟨pending', rfl⟩, fun began => ⟨began, rfl, rfl⟩⟩
      · exact fun i c' apart was' => Course.of_other rfl apart.symm was'
      · exact fun i apart => Frame.calm (Function.update_of_ne apart ..) (Nat.le_refl _) Iff.rfl
          (Nat.le_refl _) rfl rfl rfl
      · obtain ⟨-, unborn, open_, owned, valid, locked, token, below, job⟩ := bound
        refine ⟨?_, ?_, open_, fun _ => owned pending, (fun _ at_ => by cases at_), ?_,
          fun _ => token pending, below, fun _ => job pending⟩
        · have error : (s.object id).error = "" := by simp [shows_.error, Course.error, stage]
          have response : (s.object id).response = {} := by
            simp [shows_.response, Course.response, stage]
          simp only [State.note, State.setObject, Function.update_self]
          cases result : (s.job c.job).result <;>
            exact ⟨rfl, by simp [Object.settle, shows_.ticket, pending, result ▸ pending'],
              by simp [Object.settle, shows_.callback, pending, result ▸ pending'],
              by simp [Object.settle, Course.error, errorOf, error],
              by simp [Object.settle, Course.response, responseOf, response],
              fun _ => shows_.handle (by simp [stage])⟩
        · exact fun early => absurd (owned pending) (unborn early).2
        · intro taken
          rw [locked taken] at stage
          cases stage
    refine ⟨⟨inv.held, inv.paced, inv.calm, turn.requests inv, ?_, turn.distinct inv, turn.had inv,
      accounts_note inv.accounts fun _ => rfl, ?_, inv.locked, inv.listed⟩, now⟩
    · intro j
      obtain ⟨life, follows, sound, tied⟩ := inv.jobs j
      refine ⟨life, follows, sound, ?_⟩
      by_cases own : (s.job j).request = id ∧ c.job = j
      · obtain ⟨request, own⟩ := own
        have request' : (((s.setObject id (·.settle (s.job c.job).result)).note
            (.completed id c.job (s.job c.job).result)).job j).request = id := request
        refine ⟨?_, tied.early, ?_, ?_⟩
        · rw [tied.open_, request, request', awaits_iff was, awaits_iff now]
          exact iff_of_true ⟨pending, own⟩ ⟨pending', own⟩
        · exact fun working => turn.busy rfl (fun _ _ => rfl) (tied.busy working)
        · intro c' now' _ _
          rw [request'] at now'
          cases now.symm.trans now'
          exact tied.begun c (request ▸ was) pending own
      · refine tied.turn turn inv (Kept.refl life) rfl (fun _ _ => rfl) fun request => ?_
        exact ⟨fun h => own ⟨request, h.2⟩, fun h => own ⟨request, h.2⟩⟩
    · exact inv.results_note (by simp)
  · have state : (s.object id).state ≠ .sent := by simp [shows_.state, Course.phase, stage]
    have other : c.stage ≠ .sent := by simp [stage]
    rw [if_neg state, if_neg other]
    exact ⟨inv, was⟩

/-- Two steps of the queue in a row. -/
theorem lives_two {q q' q'' : WorkQueue.State} {first second : WorkQueue.Label}
    {P : Nat → Life → Prop} (held : Held q) (paced : Paced q) (stepped : Step q first q')
    (stepped' : Step q' second q'') (jobs : ∀ j, ∃ life, Follows q j life ∧ life.Sound ∧ P j life)
    (j : Nat) :
    ∃ later, Follows q'' j later ∧ later.Sound ∧ ∃ life, life.Sound ∧ P j life ∧
      ∃ middle, Life.next j life first = some middle ∧ Life.next j middle second = some later := by
  obtain ⟨later, follows, sound, middle, -, ⟨life, sound', have_, moved⟩, moved'⟩ :=
    lives_step (held.step stepped) (paced.step stepped) stepped'
      (lives_step held paced stepped jobs) j
  exact ⟨later, follows, sound, life, sound', have_, middle, moved, moved'⟩

/-- The core puts the answer off. -/
theorem Inv.busy (inv : Inv library s) {q q' : WorkQueue.State}
    (called : Step s.queue (.call j) q) (answered : Step q (.answer j .retained) q') :
    Inv library { s with queue := q' } := by
  have next_ : q'.submitted = s.queue.submitted ∧ q'.stopping = s.queue.stopping ∧
      ∃ r, q'.owner = .answered j r .retained ∧ s.queue.owner = .popped j r := by
    cases called with
    | call at_ =>
        cases answered with
        | answer at_' =>
            cases at_'
            exact ⟨rfl, rfl, _, rfl, at_⟩
  obtain ⟨submitted, stopping, r, owner, before⟩ := next_
  have unlocked (id : Nat) : s.locked ≠ some id := by
    intro locked
    obtain ⟨k, r', at_, -⟩ := (inv.locked id).mp locked
    rw [before] at at_
    cases at_
  refine inv.requeue ((inv.held.step called).step answered) ((inv.paced.step called).step answered)
    (stopping.trans inv.calm) submitted ?_ ?_ fun _ => fun same => same
  · intro k
    obtain ⟨later, follows, sound, life, -, tied, middle, moved, moved'⟩ :=
      lives_two inv.held inv.paced called answered inv.jobs k
    refine ⟨later, follows, sound, life, tied, ?_⟩
    by_cases own : j = k
    · subst own
      rw [Life.next_own rfl] at moved moved'
      simp only [Life.advance, Option.ite_none_right_eq_some, Option.some.injEq] at moved moved'
      obtain ⟨⟨popped, live, -⟩, rfl⟩ := moved
      obtain ⟨-, rfl⟩ := moved'
      exact ⟨by simp [Open, popped], rfl, rfl, by simp, by simp [Early]⟩
    · rw [Life.next_other rfl own] at moved moved'
      cases moved
      cases moved'
      exact Kept.refl _
  · intro id
    refine iff_of_false (unlocked id) ?_
    rintro ⟨k, r', at_, -⟩
    rw [owner] at at_
    cases at_

/-- The function of the script has returned. -/
theorem Inv.released (inv : Inv library s) {q : WorkQueue.State}
    (answered : Step s.queue (.answer j .consumed) q) :
    Inv library ({ s with queue := q, locked := none }.cancelJob j) := by
  have next_ : q.submitted = s.queue.submitted ∧ q.stopping = s.queue.stopping ∧
      ∃ r, q.owner = .answered j r .consumed ∧ s.queue.owner = .calling j r := by
    cases answered with
    | answer at_ => exact ⟨rfl, rfl, _, rfl, at_⟩
  obtain ⟨submitted, stopping, r, owner, before⟩ := next_
  have known : j < q.submitted := by
    rw [submitted]
    exact inv.held.named j (inv.held.mem_jobs (Or.inr (Or.inr (Or.inr (by rw [before]; rfl)))))
  have canceled := Step.cancel known
  refine inv.requeue ((inv.held.step answered).step canceled)
    ((inv.paced.step answered).step canceled) (stopping.trans inv.calm) submitted ?_ ?_
    fun id taken => absurd taken (Option.some_ne_none id).symm
  · intro k
    obtain ⟨later, follows, sound, life, -, tied, middle, moved, moved'⟩ :=
      lives_two inv.held inv.paced answered canceled inv.jobs k
    refine ⟨later, follows, sound, life, tied, ?_⟩
    by_cases own : j = k
    · subst own
      rw [Life.next_own rfl] at moved moved'
      simp only [Life.advance, Option.ite_none_right_eq_some, Option.some.injEq] at moved moved'
      obtain ⟨calling, rfl⟩ := moved
      obtain ⟨-, rfl⟩ := moved'
      exact ⟨by simp [Open, calling], rfl, rfl, by simp, by simp [Early]⟩
    · rw [Life.next_other rfl own] at moved moved'
      cases moved
      cases moved'
      exact Kept.refl _
  · intro id
    refine iff_of_false (Option.some_ne_none id).symm ?_
    rintro ⟨k, r', at_, -⟩
    have at_' : q.owner = .calling k r' := at_
    rw [owner] at at_'
    cases at_'

/-- A request that is complete, as its last answer leaves it. -/
theorem Bound.answered (bound : Bound library s id c) (pending : c.pending = true)
    {t : State} {stage : Stage} (complete : c.stage = .complete)
    (last : stage = .called ∨ stage = .missed)
    (object : t.object id = { s.object id with ticket := none, callback := 0 })
    (created : t.created = s.created) (tokens : t.tokens = s.tokens)
    (locked : t.locked = some id → stage = .called) : Bound library t id { c with stage } := by
  have shows_ := bound.shows_
  have member := bound.owned pending
  have ended : ({ c with stage } : Course).pending = false := by
    rcases last with rfl | rfl <;> simp [Course.pending]
  refine ⟨⟨?_, ?_, ?_, ?_, ?_, ?_⟩, ?_, ?_, ?_, ?_, locked, ?_, tokens ▸ bound.below, ?_⟩
  · rw [object]
    rcases last with rfl | rfl <;> simpa [Course.phase, complete] using shows_.state
  · simp [object, ended]
  · simp [object, ended]
  · rw [object]
    rcases last with rfl | rfl <;> simpa [Course.error, complete] using shows_.error
  · rw [object]
    rcases last with rfl | rfl <;> simpa [Course.response, complete] using shows_.response
  · rw [object]
    exact fun _ => shows_.handle (by simp [complete])
  · exact fun early => absurd member (bound.unborn (created ▸ early)).2
  · exact fun _ => bound.open_ member
  · simp [ended]
  · rcases last with rfl | rfl <;> simp
  · simp [ended]
  · simp [ended]

/-- What the core made of the answer is over: the function is gone. -/
theorem Inv.missed (inv : Inv library s) {q q' : WorkQueue.State}
    (was : Course.of id s.journal = some c) (pending : c.pending = true)
    (complete : c.stage = .complete) (lost : c.lost = true)
    (called : Step s.queue (.call c.job) q) (answered : Step q (.answer c.job .consumed) q') :
    Inv library ({ s.note (.missed id) with
      object := Function.update s.object id { s.object id with ticket := none, callback := 0 }
      queue := q' }.cancelJob c.job) := by
  have bound := inv.course was
  have open_ := Course.pending_closed pending
  have next_ : q'.submitted = s.queue.submitted ∧ q'.stopping = s.queue.stopping ∧
      ∃ r, q'.owner = .answered c.job r .consumed ∧ s.queue.owner = .popped c.job r := by
    cases called with
    | call at_ =>
        cases answered with
        | answer at_' =>
            cases at_'
            exact ⟨rfl, rfl, _, rfl, at_⟩
  obtain ⟨submitted, stopping, r, owner, before⟩ := next_
  have unlocked (id : Nat) : s.locked ≠ some id := by
    intro locked
    obtain ⟨k, r', at_, -⟩ := (inv.locked id).mp locked
    rw [before] at at_
    cases at_
  have canceled := Step.cancel (submitted ▸ (bound.job pending).1 : c.job < q'.submitted)
  obtain ⟨t, same⟩ : ∃ t, t = { s.note (.missed id) with
    object := Function.update s.object id { s.object id with ticket := none, callback := 0 }
    queue := q' }.cancelJob c.job := ⟨_, rfl⟩
  have turn : Turn library s t id c { c with stage := .missed } := by
    subst same
    refine ⟨was, ?_, ?_, ?_, ?_, fun _ _ _ => Iff.rfl, fun _ => Or.inl,
      (fun never => by cases never), ?_, fun began => ⟨began, rfl, rfl⟩⟩
    · exact (Course.of_snoc was).trans ((Course.next_own rfl).trans
        (if_pos ⟨complete, open_, lost⟩))
    · exact fun i c' apart was' => Course.of_other rfl apart.symm was'
    · exact fun i apart => Frame.queue (Function.update_of_ne apart ..) rfl rfl
        (fun taken => taken) rfl submitted fun _ => ⟨rfl, rfl, rfl⟩
    · exact bound.answered pending complete (Or.inr rfl) (Function.update_self ..) rfl rfl
        fun locked => absurd locked (unlocked id)
    · intro _ member
      have gone := (bound.token pending).2.mp member
      rw [lost] at gone
      cases gone
  have jobs : t.job = s.job := by
    rw [same]
    rfl
  rw [← same]
  refine ⟨?_, ?_, ?_, turn.requests inv, turn.ended inv pending rfl rfl jobs fun k => ?_,
    turn.distinct inv, turn.had inv, ?_, ?_, ?_, ?_⟩
  all_goals subst same
  · exact ((inv.held.step called).step answered).step canceled
  · exact ((inv.paced.step called).step answered).step canceled
  · exact stopping.trans inv.calm
  · obtain ⟨later, follows, sound, last, -, ⟨life, sound', tied, middle, moved, moved'⟩, moved''⟩ :=
      lives_step ((inv.held.step called).step answered) ((inv.paced.step called).step answered)
        canceled (lives_two inv.held inv.paced called answered inv.jobs) k
    refine ⟨later, follows, sound, life, tied, ?_, ?_⟩
    · rintro rfl
      rw [Life.next_own rfl] at moved moved' moved''
      simp only [Life.advance, Option.ite_none_right_eq_some, Option.some.injEq]
        at moved moved' moved''
      obtain ⟨⟨popped, live, -⟩, rfl⟩ := moved
      obtain ⟨-, rfl⟩ := moved'
      obtain ⟨-, rfl⟩ := moved''
      exact ⟨by simp [Open], by simp [Early], (fun never => by cases never)⟩
    · intro own
      rw [Life.next_other rfl own] at moved moved' moved''
      cases moved
      cases moved'
      cases moved''
      exact Kept.refl _
  · exact accounts_note inv.accounts fun _ => rfl
  · exact inv.results_note (by simp)
  · intro i
    refine iff_of_false (unlocked i) ?_
    rintro ⟨k, r', at_, -⟩
    have at_' : q'.owner = .calling k r' := at_
    rw [owner] at at_'
    cases at_'
  · exact inv.listed

/-- The function of the script is called. -/
theorem Inv.called (inv : Inv library s) {q : WorkQueue.State}
    (was : Course.of id s.journal = some c) (pending : c.pending = true)
    (complete : c.stage = .complete) (live : c.token ∈ s.live)
    (called : Step s.queue (.call c.job) q) :
    Inv library ({ s with
      queue := q
      object := Function.update s.object id { s.object id with ticket := none, callback := 0 }
      locked := some id
      live := s.live.erase c.token }.note
        (.called id c.token c.handle c.data (errorOf c.result))) := by
  have bound := inv.course was
  have open_ := Course.pending_closed pending
  have unlost := (bound.token pending).2.mp live
  have next_ : q.submitted = s.queue.submitted ∧ q.stopping = s.queue.stopping ∧
      ∃ r, q.owner = .calling c.job r := by
    cases called with
    | call at_ => exact ⟨rfl, rfl, _, rfl⟩
  obtain ⟨submitted, stopping, r, owner⟩ := next_
  obtain ⟨t, same⟩ : ∃ t, t = { s with
    queue := q
    object := Function.update s.object id { s.object id with ticket := none, callback := 0 }
    locked := some id
    live := s.live.erase c.token }.note
      (.called id c.token c.handle c.data (errorOf c.result)) := ⟨_, rfl⟩
  have turn : Turn library s t id c { c with stage := .called } := by
    subst same
    refine ⟨was, ?_, ?_, ?_, ?_, ?_, ?_, (fun never => by cases never), ?_,
      fun began => ⟨began, rfl, rfl⟩⟩
    · exact (Course.of_snoc was).trans ((Course.next_own rfl).trans
        (if_pos ⟨complete, open_, unlost, rfl, rfl, rfl, rfl⟩))
    · exact fun i c' apart was' => Course.of_other rfl apart.symm was'
    · exact fun i apart => Frame.queue (Function.update_of_ne apart ..) rfl rfl
        (fun taken => absurd (Option.some.inj taken) apart.symm) rfl submitted
        fun _ => ⟨rfl, rfl, rfl⟩
    · exact bound.answered pending complete (Or.inl rfl) (Function.update_self ..) rfl rfl
        fun _ => rfl
    · exact fun k _ apart => by simp [State.note, apart pending]
    · exact fun k member => Or.inl (Finset.mem_of_mem_erase member)
    · simp [State.note]
  have jobs : t.job = s.job := by
    rw [same]
    rfl
  rw [← same]
  refine ⟨?_, ?_, ?_, turn.requests inv, turn.ended inv pending rfl rfl jobs fun k => ?_,
    turn.distinct inv, turn.had inv, ?_, ?_, ?_, ?_⟩
  all_goals subst same
  · exact inv.held.step called
  · exact inv.paced.step called
  · exact stopping.trans inv.calm
  · obtain ⟨later, follows, sound, life, -, tied, moved⟩ :=
      lives_step inv.held inv.paced called inv.jobs k
    refine ⟨later, follows, sound, life, tied, ?_, ?_⟩
    · rintro rfl
      rw [Life.next_own rfl] at moved
      simp only [Life.advance, Option.ite_none_right_eq_some, Option.some.injEq] at moved
      obtain ⟨-, rfl⟩ := moved
      exact ⟨by simp [Open], by simp [Early], (fun never => by cases never)⟩
    · intro own
      rw [Life.next_other rfl own] at moved
      cases moved
      exact Kept.refl _
  · exact accounts_taken inv.accounts live (by simp [Happening.takes])
  · exact inv.results_note (by simp)
  · intro i
    constructor
    · intro taken
      cases taken
      exact ⟨c.job, r, owner, (bound.job pending).2.1⟩
    · rintro ⟨k, r', at_, request⟩
      have at_' : q.owner = .calling k r' := at_
      rw [owner] at at_'
      cases at_'
      exact congrArg some ((bound.job pending).2.1.symm.trans request)
  · refine ⟨inv.listed.1, fun i alive => inv.listed.2 i ?_⟩
    by_cases own : i = id
    · subst own
      simp [State.alive, bound.owned pending]
    · have other : some id ≠ some i := fun taken => own (Option.some.inj taken).symm
      simp only [State.alive, State.note, Bool.or_eq_true, decide_eq_true_eq, beq_iff_eq] at alive ⊢
      exact Or.inl (of_decide_eq_true (alive.resolve_right other))

theorem settle_queue {job : Nat} {result : Except String Response} {q : WorkQueue.State} :
    settle id job result { s with queue := q } = { settle id job result s with queue := q } := by
  unfold settle
  split <;> rfl

theorem settle_parts {job : Nat} {result : Except String Response} :
    (settle id job result s).queue = s.queue := by
  unfold settle
  split <;> rfl

theorem endToken_queue {q : WorkQueue.State} :
    State.endToken { s with queue := q } token e = { s.endToken token e with queue := q } := by
  unfold State.endToken
  split <;> rfl

theorem endToken_parts : (s.endToken token e).queue = s.queue ∧
    (s.endToken token e).object = s.object := by
  unfold State.endToken
  split <;> exact ⟨rfl, rfl⟩

/-- The token of a pending request is lost, now or before. -/
theorem Inv.lost_now (inv : Inv library s) (was : Course.of id s.journal = some c)
    (pending : c.pending = true) :
    Course.of id (s.endToken c.token (.lost c.token)).journal = some { c with lost := true } := by
  unfold State.endToken
  by_cases had : c.token ∈ s.live
  · rw [if_pos had]
    refine (Course.of_snoc was).trans ((Course.next_all rfl).trans ?_)
    rw [Course.hear, if_pos ⟨pending, rfl⟩]
  · have lost : c.lost = true := by
      by_contra unlost
      exact had (((inv.course was).token pending).2.mpr (by simpa using unlost))
    rw [if_neg had, was, ← lost]

/-- A completed request is answered. -/
theorem Inv.deliver {reply : Reply} {q : WorkQueue.State} (inv : Inv library s)
    (was : Course.of id s.journal = some c) (pending : c.pending = true)
    (complete : c.stage = .complete) (called : Step s.queue (.call c.job) q)
    (stepped : deliver id c.job reply { s with queue := q } = some t) : Inv library t := by
  have bound := inv.course was
  have shows_ := bound.shows_
  have callback : (s.object id).callback = c.token := by simp [shows_.callback, pending]
  have error : (s.object id).error = errorOf c.result := by
    simp [shows_.error, Course.error, complete]
  have handle : (s.object id).handle = c.handle := shows_.handle (by simp [complete])
  have data : (s.job c.job).data = c.data := (bound.job pending).2.2.2
  cases reply with
  | busy =>
      simp only [HttpRequests.deliver, callback, Option.ite_none_right_eq_some] at stepped
      obtain ⟨-, stepped⟩ := stepped
      obtain ⟨q', answered, same⟩ := Option.bind_eq_some_iff.mp stepped
      cases same
      exact inv.busy called (@WorkQueue.next_step _ _ (.answer c.job .retained) answered)
  | notFound =>
      simp only [HttpRequests.deliver, callback] at stepped
      rw [endToken_queue] at stepped
      obtain ⟨q', answered, same⟩ := Option.bind_eq_some_iff.mp stepped
      obtain ⟨queue, object⟩ := @endToken_parts s (.lost c.token) c.token
      have missed := (inv.lost c.token).missed (inv.lost_now was pending) pending complete rfl
        (queue.symm ▸ called)
        (@WorkQueue.next_step _ _ (.answer c.job .consumed) answered)
      cases same
      exact missed
  | runs =>
      simp only [HttpRequests.deliver, callback, Option.ite_none_right_eq_some] at stepped
      obtain ⟨live, same⟩ := stepped
      cases same
      have called' := inv.called was pending complete live called
      simpa only [State.setObject, handle, data, error] using called'

theorem Inv.complete {reply : Reply} (inv : Inv library s)
    (stepped : complete j reply s = some t) : Inv library t := by
  unfold HttpRequests.complete at stepped
  obtain ⟨q, taken, stepped⟩ := Option.bind_eq_some_iff.mp stepped
  have called : Step s.queue (.call j) q := @WorkQueue.next_step _ _ (.call j) taken
  obtain ⟨r, at_, live⟩ : ∃ r, s.queue.owner = .popped j r ∧ (s.queue.job j).canceled = false := by
    cases called with
    | call at_ live => exact ⟨_, at_, live⟩
  obtain ⟨c, was, pending, own, found⟩ := inv.popped at_ live
  obtain ⟨id, request⟩ : ∃ id, (s.job j).request = id := ⟨_, rfl⟩
  rw [request] at was
  have alive : { s with queue := q }.alive (s.job j).request = true := by
    simp [request, State.alive, (inv.course was).owned pending]
  subst own
  rw [request] at alive
  simp only [request, alive, if_true, settle_queue] at stepped
  obtain ⟨settled, now⟩ := inv.settled was pending found
  obtain ⟨pending', complete⟩ := Course.settled_pending pending (s.job c.job).result
  have job : (c.settled (s.job c.job).result).job = c.job := by
    unfold Course.settled
    split <;> rfl
  have queue : (settle id c.job (s.job c.job).result s).queue = s.queue := settle_parts
  exact settled.deliver now pending' complete (by rwa [queue, job]) (by rwa [job])

theorem Inv.returned (inv : Inv library s) (stepped : returned j s = some t) : Inv library t := by
  unfold HttpRequests.returned at stepped
  obtain ⟨id, locked, stepped⟩ := Option.bind_eq_some_iff.mp stepped
  obtain ⟨q, answered, same⟩ := Option.bind_eq_some_iff.mp stepped
  obtain ⟨c, was, bound⟩ := inv.requests id
  have idle : c.pending = false := by simp [Course.pending, bound.locked locked]
  have destroyed := destroy_idle (s := { s with queue := q, locked := none }.cancelJob j)
    bound.shows_ idle
  have left := inv.released (@WorkQueue.next_step _ _ (.answer j .consumed) answered)
  cases same
  simp only [destroyed, ite_self]
  exact left

/-! ## Every exception has a text -/

section Spoken
variable {α β : Type}

def Spoken (result : Except String α) : Prop := result ≠ .error ""

theorem Spoken.ok (a : α) : Spoken (.ok a : Except String α) := fun same => by cases same

theorem Spoken.error {text : String} (nonempty : text ≠ "") :
    Spoken (.error text : Except String α) := fun same => nonempty (Except.error.inj same)

theorem Spoken.bind {first : Except String α} {rest : α → Except String β} (spoken : Spoken first)
    (later : ∀ a, Spoken (rest a)) : Spoken (first >>= rest) := by
  cases first with
  | error text => exact fun same => spoken (congrArg Except.error (Except.error.inj same))
  | ok a => exact later a

theorem Spoken.ite {condition : Prop} [Decidable condition] {first second : Except String α}
    (yes : Spoken first) (no : Spoken second) : Spoken (if condition then first else second) := by
  split
  · exact yes
  · exact no

theorem Spoken.forM {check : α → Except String PUnit} (each : ∀ a, Spoken (check a)) :
    ∀ list : List α, Spoken (list.forM check) := by
  intro list
  induction list with
  | nil => exact Spoken.ok _
  | cons a rest ih => exact (each a).bind fun _ => ih

theorem Spoken.foldlM {step : β → α → Except String β} (each : ∀ b a, Spoken (step b a)) :
    ∀ (list : List α) (b : β), Spoken (list.foldlM step b) := by
  intro list
  induction list with
  | nil => exact fun b => Spoken.ok b
  | cons a rest ih => exact fun b => (each b a).bind ih

end Spoken

theorem parse_spoken (library : Library) (text : Text) : Spoken (library.parse text) := by
  unfold Library.parse
  apply Spoken.ite (Spoken.error (by decide))
  cases library.url text with
  | none => exact Spoken.error (by decide)
  | some url =>
      apply Spoken.ite (Spoken.error (by decide))
      exact Spoken.ite (Spoken.error (by decide)) (Spoken.ok _)

theorem validateHeader_spoken (header : Text × Text) : Spoken (validateHeader header) := by
  unfold validateHeader
  apply Spoken.ite (Spoken.error (by decide))
  apply Spoken.ite (Spoken.error (by decide))
  exact Spoken.ite (Spoken.error (by decide)) (Spoken.ok _)

theorem validatePart_spoken (bytes : Nat) (part : Part) : Spoken (validatePart bytes part) := by
  unfold validatePart
  apply Spoken.ite (Spoken.error (by decide))
  apply Spoken.ite (Spoken.error (by decide))
  exact Spoken.ite (Spoken.error (by decide)) (Spoken.ok _)

theorem validate_spoken (library : Library) (request : Request) :
    Spoken (request.validate library) := by
  unfold Request.validate
  refine (parse_spoken library request.url).bind fun _ => ?_
  apply Spoken.ite (Spoken.error (by decide))
  apply Spoken.ite (Spoken.error (by decide))
  apply Spoken.ite (Spoken.error (by decide))
  apply Spoken.ite (Spoken.error (by decide))
  refine (Spoken.forM validateHeader_spoken _).bind fun _ => ?_
  apply Spoken.ite (Spoken.error (by decide))
  exact (Spoken.foldlM validatePart_spoken _ _).bind fun _ => Spoken.ok _

theorem uploads_spoken (w : Surroundings) : ∀ (parts : List Part) (at_ bytes : Nat),
    Spoken (uploads w.files w.checks parts at_ bytes) := by
  intro parts
  induction parts with
  | nil => exact fun _ _ => Spoken.ok _
  | cons part rest ih =>
      intro at_ bytes
      unfold uploads
      cases check : w.checks at_ with
      | some error => exact Spoken.error fun empty => w.unchecked at_ (empty ▸ check)
      | none =>
          have rest (part : Part) : Spoken (do
              if part.data.length > bodyLimit - bytes then throw "HTTP upload data exceeds 1MiB."
              return part :: (← uploads w.files w.checks rest (at_ + 1) (bytes + part.data.length))
              ) :=
            Spoken.ite (Spoken.error (by decide)) ((ih _ _).bind fun _ => Spoken.ok _)
          refine Spoken.ite ?_ (rest part)
          exact Spoken.bind (w.unread _ _) fun data => rest { part with data, source := [] }

theorem opened_spoken (w : Surroundings) (library : Library) (request : Request) :
    Spoken (request.opened library w.files w.checks) := by
  unfold Request.opened
  refine (validate_spoken library request).bind fun _ => ?_
  cases check : w.checks 0 with
  | some error => exact Spoken.error fun empty => w.unchecked 0 (empty ▸ check)
  | none =>
      refine (uploads_spoken w _ _ _).bind fun parts => Spoken.bind ?_ fun _ => ?_
      · refine Spoken.ite (Spoken.ok _) (Spoken.bind (w.unread _ _) fun certificates => ?_)
        exact Spoken.ite (Spoken.error (by decide)) (Spoken.ok _)
      · exact (parse_spoken library _).bind fun _ => Spoken.ok _

theorem redirected_spoken (library : Library) (request : Request) (address : Address) (hop : Nat)
    (response : Response) (location : Option Text) :
    Spoken (request.redirected library address hop response location) := by
  unfold Request.redirected
  apply Spoken.ite (Spoken.ok _)
  cases location with
  | none => exact Spoken.ok _
  | some location =>
      refine Spoken.ite (Spoken.error (by decide)) ?_
      refine (parse_spoken library location).bind fun next => ?_
      refine Spoken.ite (Spoken.error (by decide)) ?_
      refine Spoken.ite (Spoken.ite (Spoken.error (by decide)) (Spoken.ok _)) (Spoken.ok _)

theorem hops_spoken (w : Surroundings) (library : Library) (request : Request)
    (address : Address) (hop : Nat) : Spoken (hops library w.answers request address hop).2 := by
  -- the induction is on the hops that are left
  induction left : request.redirects - hop using Nat.strong_induction_on
    generalizing request address hop with
  | _ n ih =>
      rw [hops]
      cases answer : w.answers hop with
      | stopped error => exact Spoken.error fun empty => (w.unanswered hop).1 (empty ▸ answer)
      | broken error => exact Spoken.error fun empty => (w.unanswered hop).2 (empty ▸ answer)
      | answered status body headers location =>
          have spoken := redirected_spoken library request address hop
            { status, url := address.normalized, body, headers } location
          simp only
          split
          · rename_i error failed
            exact Spoken.error fun empty => spoken (failed.trans (congrArg Except.error empty))
          · exact Spoken.ok _
          · rename_i request' address' on
            have follows := Request.redirected_follows on
            have allowed := follows.allowed
            have redirects := follows.redirects
            exact ih (request'.redirects - (hop + 1)) (by omega) request' address' (hop + 1) rfl

theorem Surroundings.spoken (w : Surroundings) (library : Library) (input : Request) :
    Spoken (w.result library input) := by
  have opened := opened_spoken w library input
  unfold Surroundings.result perform
  split
  · rename_i error failed
    exact Spoken.error fun empty => opened (failed.trans (congrArg Except.error empty))
  · exact hops_spoken w library _ _ 0

/-- Of a result that is not without a text, the text tells whether it is a response. -/
theorem Spoken.response {result : Except String Response} (spoken : Spoken result)
    (silent : errorOf result = "") : ∃ response, result = .ok response := by
  cases result with
  | ok response => exact ⟨response, rfl⟩
  | error text =>
      have letters : text.toList.take 1024 = [] := String.ofList_eq_empty_iff.mp silent
      have empty : text.toList = [] := by simpa using letters
      exact absurd (congrArg Except.error (String.toList_eq_nil_iff.mp empty)) spoken

/-! ## The protocol -/

theorem Inv.step {label : Label} (inv : Inv library s) (stepped : next library s label = some t) :
    Inv library t := by
  cases label with
  | create url method own =>
      simp only [next, Option.ite_none_right_eq_some, Option.some.injEq] at stepped
      exact stepped.2 ▸ inv.create url method own
  | edit id e =>
      simp only [next, Option.ite_none_right_eq_some, Option.some.injEq] at stepped
      exact stepped.2 ▸ inv.edit id e
  | send id data captured =>
      simp only [next, Option.ite_none_right_eq_some, Option.some.injEq, State.usable,
        Bool.and_eq_true, decide_eq_true_eq] at stepped
      exact stepped.2 ▸ inv.send stepped.1.2 data captured
  | cancel id =>
      simp only [next, Option.ite_none_right_eq_some, Option.some.injEq] at stepped
      exact stepped.2 ▸ inv.cancel id
  | close id =>
      simp only [next, Option.ite_none_right_eq_some, Option.some.injEq, State.usable,
        Bool.and_eq_true, decide_eq_true_eq] at stepped
      exact stepped.2 ▸ inv.close stepped.1.2
  | lose token =>
      simp only [next, Option.ite_none_right_eq_some, Option.some.injEq] at stepped
      exact stepped.2 ▸ inv.lost token
  | queue label =>
      simp only [next, Option.ite_none_right_eq_some, Bool.and_eq_true, Option.map_eq_some_iff]
        at stepped
      obtain ⟨⟨simple, -⟩, q, moved, rfl⟩ := stepped
      exact inv.queue simple (WorkQueue.next_step moved)
  | work worker job =>
      obtain ⟨q, started, same⟩ := Option.bind_eq_some_iff.mp stepped
      cases same
      exact inv.transferred (@WorkQueue.next_step _ _ (.workStart worker job) started)
  | worked worker job w =>
      obtain ⟨q, ended, same⟩ := Option.bind_eq_some_iff.mp stepped
      cases same
      exact inv.worked (@WorkQueue.next_step _ _ (.workEnd worker job _) ended)
  | complete job reply => exact inv.complete stepped
  | returned job => exact inv.returned stepped

theorem inv_run (library : Library) : ∀ history s,
    run (next library) start history = some s → Inv library s :=
  history_induction (P := fun _ s => Inv library s) inv_start
    fun _ _ _ _ inv stepped => inv.step stepped

/-- What the extension promises about its requests.  Each goes its course and shows it; a
pending one has its job in the queue and its token with the core, unless the core lost it;
one that was sent and is pending no more was answered, canceled or closed.  The work of a
request ends once, with what its transfer made of the input, and the request is completed
with that and nothing else. -/
structure Promises (library : Library) (s : State) : Prop where
  course : ∀ id, ∃ c, Course.of id s.journal = some c ∧ Shows (s.object id) c
  ended : ∀ id c, Course.of id s.journal = some c → c.stage ≠ .building → c.pending = false →
    ∃ e ∈ s.journal, e.ends id = true
  pending : ∀ id c, Course.of id s.journal = some c → c.pending = true →
    id ∈ s.owned ∧ c.job ∈ s.queue.jobs ∧ (s.queue.job c.job).canceled = false ∧
      (c.token ∈ s.live ↔ c.lost = false)
  live : ∀ token ∈ s.live, ∃ id c, Course.of id s.journal = some c ∧ c.pending = true ∧
    c.token = token
  accounts : ∀ token, s.Accounts token
  called : ∀ before after id token handle data error,
    s.journal = before ++ .called id token handle data error :: after →
      Owed id token handle data error before
  worked : ∀ before after id job result, s.journal = before ++ .worked id job result :: after →
    (∃ input w, Happening.transferred id job input ∈ before ∧
      result = Surroundings.result w library input) ∧
    ∀ job' other, Happening.worked id job' other ∉ before ++ after
  results : ∀ before after id job result, s.journal = before ++ .completed id job result :: after →
    Happening.worked id job result ∈ before
  available : ∀ id response, (s.object id).available = .ok response →
    ∃ job, Happening.completed id job (.ok response) ∈ s.journal
  limited : s.owned.card ≤ 64

theorem Inv.promises (inv : Inv library s) : Promises library s := by
  refine ⟨?_, ?_, ?_, inv.live, inv.accounts, ?_, ?_, ?_, ?_, ?_⟩
  · intro id
    obtain ⟨c, now, bound⟩ := inv.requests id
    exact ⟨c, now, bound.shows_⟩
  · intro id c now sent idle
    refine (Course.recorded now).ended.mpr ?_
    cases stage : c.stage <;> simp_all [Course.pending]
  · intro id c now pending
    have bound := inv.course now
    obtain ⟨life, follows, -, tied⟩ := inv.jobs c.job
    have request := (bound.job pending).2.1
    have open_ : Open life := tied.open_.mpr ⟨c, request.symm ▸ now, pending, rfl⟩
    have inside : ¬ (life.phase = .fresh ∨ life.phase = .gone) := by
      rcases open_.2 with h | h | h | h | h | h | h <;> simp [h]
    refine ⟨bound.owned pending, follows.place.mem_jobs inv.held inside, ?_,
      (bound.token pending).2⟩
    rw [← follows.canceled fun fresh => inside (Or.inl fresh)]
    exact open_.1
  · intro before after id token handle data error split
    obtain ⟨c, now, -⟩ := inv.requests id
    exact Course.owed (split ▸ now)
  · intro before after id job result split
    obtain ⟨c, now, -⟩ := inv.requests id
    rw [split] at now
    refine ⟨?_, Course.worked_once now⟩
    obtain ⟨then_, was, transferred, own, -⟩ := Course.of_worked now
    have begun := ((Course.recorded was).transferred job then_.input).mpr ⟨transferred, own, rfl⟩
    obtain ⟨input, w, begun', same⟩ := inv.results id job result (by simp [split])
    -- the two are one transfer, that of the course
    have first := ((Course.recorded now).transferred job then_.input).mp
      (List.mem_append_left _ begun)
    have second := ((Course.recorded now).transferred job input).mp (split ▸ begun')
    rw [first.2.2.symm.trans second.2.2] at begun
    exact ⟨input, w, begun, same⟩
  · intro before after id job result split
    obtain ⟨c, now, -⟩ := inv.requests id
    exact Course.completed_found (split ▸ now)
  · intro id response available
    obtain ⟨c, now, bound⟩ := inv.requests id
    have shows_ := bound.shows_
    unfold Object.available at available
    split at available
    · cases available
    · rename_i ready
      cases available
      obtain ⟨complete, silent⟩ := not_or.mp ready
      have complete := not_not.mp complete
      have silent := not_not.mp silent
      rw [shows_.state] at complete
      rw [shows_.error] at silent
      have stage : c.stage = .complete ∨ c.stage = .called ∨ c.stage = .missed := by
        cases stage : c.stage <;> simp [Course.phase, stage] at complete ⊢
      have completed := (Course.recorded now).completed stage
      obtain ⟨before, after, split⟩ := List.append_of_mem completed
      have worked := Course.completed_found (split ▸ now)
      obtain ⟨input, w, -, same⟩ := inv.results id c.job c.result
        (split ▸ List.mem_append_left _ worked)
      have quiet : errorOf c.result = "" := by
        rcases stage with stage | stage | stage <;> simpa [Course.error, stage] using silent
      obtain ⟨found, is⟩ := (same ▸ w.spoken library input : Spoken c.result).response quiet
      have shown : (s.object id).response = found := by
        rw [shows_.response]
        rcases stage with stage | stage | stage <;> simp [Course.response, stage, is, responseOf]
      rw [is] at completed
      exact ⟨c.job, shown ▸ completed⟩
  · have inside : s.owned ⊆ s.requests.toFinset := fun id member =>
      List.mem_toFinset.mpr (inv.listed.2 id (by simp [State.alive, member]))
    calc s.owned.card ≤ s.requests.toFinset.card := Finset.card_le_card inside
      _ ≤ s.requests.length := List.toFinset_card_le _
      _ ≤ 64 := inv.listed.1

theorem http_requests_in_order (library : Library) (history : List Label) (s : State)
    (ran : run (next library) start history = some s) : Promises library s :=
  (inv_run library history s ran).promises

/-- A library that takes every address for the same one. -/
def oneSite : Library where
  url _ := some
    { scheme := "http".toList, host := "a".toList, zone := [], port := "80".toList,
      url := "http://a/".toList }

/-- Every transfer is out of time. -/
def outOfTime : Surroundings where
  files _ _ := .error "HTTP upload file is not readable."
  checks _ := some "HTTP request timed out."
  answers _ := .stopped "HTTP request timed out."
  unread _ _ := by simp
  unchecked _ := by simp
  unanswered _ := by simp

/-- A request whose answer is put off once, and that its function closes. -/
def putOff : List Label :=
  [.create "http://a/".toList 0 (.ok 7), .send 0 5 (.ok ()), .queue (.take 0 0), .work 0 0,
    .worked 0 0 outOfTime, .queue (.publish 0 0), .queue (.dispatch 1), .queue (.pop 0),
    .complete 0 .busy, .queue (.retain 0), .queue .done, .queue (.dispatch 1), .queue (.pop 0),
    .complete 0 .runs, .close 0, .returned 0]

theorem http_requests_in_order_put_off :
    ∃ s, run (next oneSite) start putOff = some s ∧
      Happening.called 0 1 7 5 "HTTP request timed out." ∈ s.journal ∧ s.live = ∅ ∧
        Promises oneSite s := by
  have shown : (run (next oneSite) start putOff).any (fun s =>
      Happening.called 0 1 7 5 "HTTP request timed out." ∈ s.journal ∧ s.live = ∅) = true := by
    decide +kernel
  obtain ⟨s, ran, called, live⟩ := by simpa [Option.any_eq_true] using shown
  exact ⟨s, ran, called, live, http_requests_in_order oneSite putOff s ran⟩

end Source2Root.HttpRequests
