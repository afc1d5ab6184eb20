import Source2Root.HttpInvariant

/-!
# What a script does to its requests

Creating, editing, sending, cancelling and closing keep the invariant.
-/

set_option autoImplicit false

namespace Source2Root.HttpRequests

open Transition
open Source2Root.Http
open WorkQueue (Follows Life Held Paced Step At)

variable {library : Library} {s t : State} {id i j : Nat} {c d : Course} {e : Happening}
  {token : Token}

/-! ## Creating and editing -/

theorem Inv.sift (inv : Inv library s) :
    Inv library { s with requests := s.requests.filter s.alive } := by
  refine ⟨inv.held, inv.paced, inv.calm, ?_, ?_, inv.distinct, inv.live, inv.accounts, inv.results,
    inv.locked, ?_⟩
  · intro i
    obtain ⟨c, now, bound⟩ := inv.requests i
    exact ⟨c, now, bound.frame
      (Frame.calm rfl (Nat.le_refl _) Iff.rfl (Nat.le_refl _) rfl rfl rfl) fun _ => Iff.rfl⟩
  · intro j
    obtain ⟨life, follows, sound, tied⟩ := inv.jobs j
    exact ⟨life, follows, sound, tied.kept (Kept.refl life) rfl rfl⟩
  · refine ⟨Nat.le_trans (List.length_filter_le ..) inv.listed.1, fun i alive => ?_⟩
    exact List.mem_filter.mpr ⟨inv.listed.2 i alive, alive⟩

theorem newInput_valid {url : Text} {method : Int} {input : Http.Request}
    (made : newInput library url method = .ok input) : input.validate library = .ok () := by
  unfold newInput at made
  cases known : methodOf method with
  | none =>
      simp only [known] at made
      obtain ⟨address, -, thrown⟩ := bind_eq_ok.mp made
      cases thrown
  | some method' =>
      simp only [known] at made
      obtain ⟨⟨⟩, valid, same⟩ := bind_eq_ok.mp made
      cases same
      exact valid

/-- A new object under the next number, owned or not. -/
theorem Inv.born (inv : Inv library s) {o : Object} {owned : Finset Nat}
    (fresh : Shows o {}) (valid : o.input.validate library = .ok ())
    (owns : owned = s.owned ∨ owned = insert s.created s.owned)
    (room : s.requests.length < 64) :
    Inv library { s with
      created := s.created + 1
      object := Function.update s.object s.created o
      requests := s.requests ++ [s.created]
      owned } := by
  have other (i : Nat) (apart : i ≠ s.created) : i ∈ owned ↔ i ∈ s.owned := by
    rcases owns with rfl | rfl
    · exact Iff.rfl
    · simp [apart]
  obtain ⟨c, now, bound⟩ := inv.requests s.created
  obtain ⟨rfl, -⟩ := bound.unborn (Nat.le_refl _)
  refine ⟨inv.held, inv.paced, inv.calm, ?_, ?_, inv.distinct, inv.live, inv.accounts, inv.results,
    inv.locked, ?_⟩
  · intro i
    by_cases own : i = s.created
    · subst own
      refine ⟨{}, now, ?_, fun early => absurd early (Nat.not_succ_le_self _), fun _ => rfl, nofun,
        ?_, bound.locked, nofun, bound.below, nofun⟩
      · simpa using fresh
      · simpa using fun _ => valid
    · obtain ⟨c, now, bound⟩ := inv.requests i
      exact ⟨c, now, bound.frame
        (Frame.calm (Function.update_of_ne own ..) (Nat.le_succ _) (other i own) (Nat.le_refl _)
          rfl rfl rfl)
        fun _ => Iff.rfl⟩
  · intro j
    obtain ⟨life, follows, sound, tied⟩ := inv.jobs j
    exact ⟨life, follows, sound, tied.kept (Kept.refl life) rfl rfl⟩
  · constructor
    · simpa using room
    · intro i alive
      by_cases own : i = s.created
      · simp [own]
      · simp only [State.alive, other i own] at alive
        exact List.mem_append_left _ (inv.listed.2 i alive)

theorem Inv.create (inv : Inv library s) (url : Text) (method : Int) (own : Except String Int) :
    Inv library (create library url method own s).2 := by
  have sifted := inv.sift
  unfold HttpRequests.create
  by_cases room : 64 ≤ (s.requests.filter s.alive).length
  · simpa only [if_pos room] using sifted
  simp only [if_neg room]
  cases made : newInput library url method with
  | error error => exact sifted
  | ok input =>
      have valid := newInput_valid made
      cases own with
      | error error =>
          exact sifted.born ⟨rfl, rfl, rfl, rfl, rfl, nofun⟩ valid (Or.inl rfl)
            (Nat.not_le.mp room)
      | ok handle =>
          have born := sifted.born (o := { input, handle }) ⟨rfl, rfl, rfl, rfl, rfl, by simp⟩ valid
            (Or.inr rfl) (Nat.not_le.mp room)
          simpa only [State.setObject, Function.update_self, Function.update_idem] using born

theorem Course.phase_building (building : c.phase = .building) : c.stage = .building := by
  unfold Course.phase at building
  split at building <;> first | assumption | cases building

/-- An object that shows the same under another input. -/
theorem Inv.edited (inv : Inv library s) {input : Http.Request}
    (valid : input.validate library = .ok ()) :
    Inv library (s.setObject id fun o => { o with input }) := by
  refine ⟨inv.held, inv.paced, inv.calm, ?_, ?_, inv.distinct, inv.live, inv.accounts, inv.results,
    inv.locked, inv.listed⟩
  · intro i
    obtain ⟨c, now, bound⟩ := inv.requests i
    refine ⟨c, now, ?_⟩
    by_cases own : i = id
    · subst own
      have shows_ := bound.shows_
      refine ⟨?_, bound.unborn, bound.open_, bound.owned, ?_, bound.locked, bound.token,
        bound.below, bound.job⟩
      · simp only [State.setObject, Function.update_self]
        exact ⟨shows_.state, shows_.ticket, shows_.callback, shows_.error, shows_.response,
          shows_.handle⟩
      · intro _ _
        simpa only [State.setObject, Function.update_self] using valid
    · exact bound.frame (Frame.calm (Function.update_of_ne own ..) (Nat.le_refl _) Iff.rfl
        (Nat.le_refl _) rfl rfl rfl) fun _ => Iff.rfl
  · intro j
    obtain ⟨life, follows, sound, tied⟩ := inv.jobs j
    exact ⟨life, follows, sound, tied.kept (Kept.refl life) rfl rfl⟩

theorem Inv.edit (inv : Inv library s) (id : Nat) (e : Edit) :
    Inv library (edit library id e s).2 := by
  unfold HttpRequests.edit
  by_cases building : (s.object id).state ≠ .building
  · simpa only [if_pos building] using inv
  simp only [if_neg building]
  split
  · exact inv
  · rename_i input made
    obtain ⟨edited, -, made⟩ := bind_eq_ok.mp made
    obtain ⟨⟨⟩, valid, same⟩ := bind_eq_ok.mp made
    cases same
    exact inv.edited valid

/-! ## Cancelling and closing -/

/-- The journal once a token is dropped, if the core had it. -/
def dropped (live : Finset Token) (token : Token) : List Happening :=
  if token ∈ live then [.dropped token] else []

theorem Course.of_dropped {log : List Happening} {live : Finset Token} :
    Course.of id (log ++ dropped live token) = Course.of id log := by
  unfold dropped
  split
  · rw [Course.of_concat]
    cases Course.of id log <;> rfl
  · rw [List.append_nil]

theorem worked_dropped {log : List Happening} {live : Finset Token} {job : Nat}
    {result : Except String Response}
    (member : Happening.worked id job result ∈ log ++ dropped live token) :
    Happening.worked id job result ∈ log := by
  unfold dropped at member
  split at member <;> simpa using member

theorem Course.of_other {log : List Happening} (about : e.request? = some id) (other : id ≠ i)
    (was : Course.of i log = some c) : Course.of i (log ++ [e]) = some c :=
  (Course.of_snoc was).trans (Course.next_other about other)

/-- A request is withdrawn: its job is canceled and its token dropped. -/
def State.withdraw (s : State) (id : Nat) (c : Course) (e : Happening) (o : Object)
    (owned : Finset Nat) : State :=
  { s with
    queue := s.queue.setJob c.job fun job => { job with canceled := true }
    object := Function.update s.object id o
    owned
    live := s.live.erase c.token
    journal := (s.journal ++ [e]) ++ dropped s.live c.token }

theorem Inv.withdraw (inv : Inv library s) {o : Object} {owned : Finset Nat}
    (was : Course.of id s.journal = some c) (pending : c.pending = true)
    (about : e.request? = some id) (moved : c.advance e = some d) (ended : d.pending = false)
    (begun : d.stage ≠ .building) (same : d = { c with stage := d.stage, closed := d.closed })
    (free : ∀ k, e.takes k = false) (silent : ∀ job result, e ≠ .worked id job result)
    (shows_ : Shows o d)
    (owns : owned = s.owned ∧ d.closed = false ∨ owned = s.owned.erase id) :
    Inv library (s.withdraw id c e o owned) := by
  have bound := inv.course was
  have token : d.token = c.token := by rw [same]
  have found : d.outcome = c.outcome := by rw [same]
  have sent : d.transferred = c.transferred ∧ d.job = c.job ∧ d.input = c.input := by
    rw [same]
    exact ⟨rfl, rfl, rfl⟩
  have unlocked : s.locked ≠ some id := fun locked => by
    simp [Course.pending, bound.locked locked] at pending
  have other (i : Nat) (apart : i ≠ id) : i ∈ owned ↔ i ∈ s.owned := by
    rcases owns with ⟨rfl, -⟩ | rfl
    · exact Iff.rfl
    · simp [apart]
  have bound' : Bound library (s.withdraw id c e o owned) id d := by
    refine ⟨?_, ?_, ?_, ?_, fun _ building => absurd building begun,
      fun locked => absurd locked unlocked, ?_, token ▸ bound.below, ?_⟩
    · simpa [State.withdraw] using shows_
    · intro early
      obtain ⟨rfl, -⟩ := bound.unborn early
      cases pending
    · intro member
      rcases owns with ⟨-, open_⟩ | rfl
      · exact open_
      · simp [State.withdraw] at member
    · simp [ended]
    · simp [ended]
    · simp [ended]
  have turn : Turn library s (s.withdraw id c e o owned) id c d := by
    refine ⟨was, ?_, ?_, ?_, bound', ?_, ?_, ?_, ?_, fun began => ⟨sent.1.trans began, sent.2⟩⟩
    · exact Course.of_dropped.trans
        ((Course.of_snoc was).trans ((Course.next_own about).trans moved))
    · exact fun i c' apart was' => Course.of_dropped.trans (Course.of_other about apart.symm was')
    · exact fun i apart => ⟨Function.update_of_ne apart .., Nat.le_refl _, other i apart,
        fun taken => taken, Nat.le_refl _, Nat.le_refl _, fun _ _ => ⟨rfl, rfl, rfl⟩⟩
    · exact fun k _ apart => by simp [State.withdraw, apart pending]
    · exact fun k member => Or.inl (Finset.mem_of_mem_erase member)
    · simp [ended]
    · simp [State.withdraw]
  have stepped := Step.cancel (bound.job pending).1
  refine ⟨inv.held.step stepped, inv.paced.step stepped, inv.calm, turn.requests inv, ?_,
    turn.distinct inv, turn.had inv, ?_, ?_, inv.locked, inv.listed.1, ?_⟩
  · refine turn.ended inv pending ended found rfl fun j => ?_
    obtain ⟨later, follows, sound, life, -, tied, moved'⟩ :=
      lives_step inv.held inv.paced stepped inv.jobs j
    refine ⟨later, follows, sound, life, tied, ?_, ?_⟩
    · rintro rfl
      rw [Life.next_own rfl] at moved'
      simp only [Life.advance, Option.ite_none_right_eq_some, Option.some.injEq] at moved'
      obtain ⟨-, rfl⟩ := moved'
      exact ⟨by simp [Open], tied.early, fun at_ => at_⟩
    · intro own
      rw [Life.next_other rfl own] at moved'
      cases moved'
      exact Kept.refl _
  · exact accounts_withdrawn (accounts_note inv.accounts free) c.token
  · refine inv.results_more
      (fun _ member => List.mem_append_left _ (List.mem_append_left _ member))
      fun i job result member => ?_
    rcases List.mem_append.mp (worked_dropped member) with inside | inside
    · exact inside
    · have same := List.mem_singleton.mp inside
      have eq : i = id := by
        rw [← same] at about
        exact Option.some.inj about
      exact absurd (eq ▸ same.symm) (silent job result)
  · intro i alive
    by_cases own : i = id
    · subst own
      exact inv.listed.2 i (by simp [State.alive, bound.owned pending])
    · simp only [State.alive, State.withdraw, other i own] at alive
      exact inv.listed.2 i alive

/-- What `~Request` does to a pending request. -/
theorem destroy_pending (shows_ : Shows (s.object id) c) (pending : c.pending = true)
    (positive : 0 < c.token) : s.destroy id =
      { s with
        queue := s.queue.setJob c.job fun job => { job with canceled := true }
        object := Function.update s.object id
          { s.object id with ticket := none, callback := 0 }
        live := s.live.erase c.token
        journal := s.journal ++ dropped s.live c.token } := by
  have ticket : (s.object id).ticket = some c.job := by simp [shows_.ticket, pending]
  have callback : (s.object id).callback = c.token := by simp [shows_.callback, pending]
  have nonzero : c.token ≠ 0 := Nat.ne_of_gt positive
  unfold State.destroy State.resetTicket
  simp only [ticket, State.resetCallback, State.setObject, State.cancelJob, Function.update_self,
    Function.update_idem, callback, if_neg nonzero, State.cancelCallback, State.endToken, dropped]
  by_cases had : c.token ∈ s.live
  · simp only [if_pos had]
  · simp only [if_neg had, List.append_nil, Finset.erase_eq_of_notMem had]

/-- A request that holds neither job nor token. -/
theorem destroy_idle (shows_ : Shows (s.object id) c) (idle : c.pending = false) :
    s.destroy id = s := by
  have ticket : (s.object id).ticket = none := by simp [shows_.ticket, idle]
  have callback : (s.object id).callback = 0 := by simp [shows_.callback, idle]
  unfold State.destroy State.resetTicket
  simp only [ticket, State.resetCallback, callback, if_true]

theorem Inv.cancel (inv : Inv library s) (id : Nat) : Inv library (cancel id s).2 := by
  obtain ⟨c, was, bound⟩ := inv.requests id
  have shows_ := bound.shows_
  unfold HttpRequests.cancel
  cases pending : c.pending with
  | false =>
      have ticket : (s.object id).ticket = none := by simp [shows_.ticket, pending]
      simpa only [if_pos ticket] using inv
  | true =>
      have ticket : (s.object id).ticket ≠ none := by simp [shows_.ticket, pending]
      have positive := (bound.token pending).1
      have destroyed := destroy_pending (s := s.note (.canceled id)) shows_ pending positive
      unfold State.destroy at destroyed
      have sent : c.stage ≠ .building := by
        intro building
        simp [Course.pending, building] at pending
      have withdrawn := inv.withdraw (e := .canceled id) (d := { c with stage := .canceled })
        (o := { s.object id with
          ticket := none, callback := 0, state := .canceled, error := "HTTP request canceled.",
          response := {} })
        was pending rfl (if_pos pending) rfl (by simp) rfl (fun _ => rfl) (by simp)
        ⟨rfl, rfl, rfl, rfl, rfl, fun _ => shows_.handle sent⟩
        (Or.inl ⟨rfl, bound.open_ (bound.owned pending)⟩)
      simp only [if_neg ticket, destroyed]
      simpa only [State.setObject, State.note, Function.update_self, Function.update_idem,
        State.withdraw] using withdrawn

/-- The resource of a request that is not pending is closed. -/
theorem Inv.shut (inv : Inv library s) (was : Course.of id s.journal = some c)
    (idle : c.pending = false) (owned : id ∈ s.owned) :
    Inv library ({ s with owned := s.owned.erase id }.note (.closed id)) := by
  have bound := inv.course was
  have shows_ := bound.shows_
  have open_ := bound.open_ owned
  have still : ({ c with closed := true } : Course).pending = false := by simp [Course.pending]
  have bound' : Bound library ({ s with owned := s.owned.erase id }.note (.closed id)) id
      { c with closed := true } := by
    refine ⟨⟨shows_.state, ?_, ?_, shows_.error, shows_.response, shows_.handle⟩, ?_, ?_, ?_, ?_,
      bound.locked, ?_, bound.below, ?_⟩
    · exact shows_.ticket.trans (by simp [idle, still])
    · exact shows_.callback.trans (by simp [idle, still])
    · exact fun early => absurd owned (bound.unborn early).2
    · simp [State.note]
    · simp [still]
    · simp [State.note]
    · simp [still]
    · simp [still]
  have turn : Turn library s ({ s with owned := s.owned.erase id }.note (.closed id)) id c
      { c with closed := true } := by
    refine ⟨was, ?_, ?_, ?_, bound', fun _ _ _ => Iff.rfl, fun _ => Or.inl, ?_, ?_,
      fun sent => ⟨sent, rfl, rfl⟩⟩
    · exact (Course.of_snoc was).trans ((Course.next_own rfl).trans (if_pos open_))
    · exact fun i c' apart was' => Course.of_other rfl apart.symm was'
    · exact fun i apart => Frame.calm rfl (Nat.le_refl _) (by simp [State.note, apart])
        (Nat.le_refl _) rfl rfl rfl
    · simp [still]
    · simp [idle]
  refine ⟨inv.held, inv.paced, inv.calm, turn.requests inv, ?_, turn.distinct inv, turn.had inv,
    accounts_note inv.accounts fun _ => rfl, ?_, inv.locked, inv.listed.1, ?_⟩
  · intro j
    obtain ⟨life, follows, sound, tied⟩ := inv.jobs j
    refine ⟨life, follows, sound,
      tied.turn turn inv (Kept.refl life) rfl (fun _ _ => rfl) fun _ => ⟨?_, ?_⟩⟩
    · simp [idle]
    · simp [still]
  · exact inv.results_note (by simp)
  · intro i alive
    refine inv.listed.2 i ?_
    simp only [State.alive, State.note, Finset.mem_erase, Bool.or_eq_true, decide_eq_true_eq]
      at alive ⊢
    exact alive.imp And.right fun taken => taken

theorem Inv.close (inv : Inv library s) (owned : id ∈ s.owned) : Inv library (close id s) := by
  obtain ⟨c, was, bound⟩ := inv.requests id
  have shows_ := bound.shows_
  have open_ := bound.open_ owned
  unfold HttpRequests.close
  cases pending : c.pending with
  | false =>
      have shut := inv.shut was pending owned
      have idle := destroy_idle (s := { s with owned := s.owned.erase id }.note (.closed id))
        shows_ pending
      simp only [idle, ite_self]
      exact shut
  | true =>
      have unlocked : s.locked ≠ some id := fun locked => by
        simp [Course.pending, bound.locked locked] at pending
      have dead : ({ s with owned := s.owned.erase id }.note (.closed id)).alive id = false := by
        simp [State.alive, State.note, unlocked]
      have destroyed := destroy_pending
        (s := { s with owned := s.owned.erase id }.note (.closed id)) shows_ pending
        (bound.token pending).1
      have sent : c.stage ≠ .building := by
        intro building
        simp [Course.pending, building] at pending
      have withdrawn := inv.withdraw (e := .closed id) (d := { c with closed := true })
        (o := { s.object id with ticket := none, callback := 0 })
        was pending rfl (if_pos open_) (by simp [Course.pending]) sent rfl (fun _ => rfl) (by simp)
        ⟨shows_.state, by simp [Course.pending], by simp [Course.pending], shows_.error,
          shows_.response, shows_.handle⟩
        (Or.inr rfl)
      simp only [dead, Bool.false_eq_true, if_false, destroyed]
      exact withdrawn

/-! ## Sending -/

theorem Inv.begin (inv : Inv library s) : Inv library { s with begun := true } := by
  refine ⟨inv.held, inv.paced, inv.calm, ?_, ?_, inv.distinct, inv.live, inv.accounts, inv.results,
    inv.locked, inv.listed⟩
  · intro i
    obtain ⟨c, now, bound⟩ := inv.requests i
    exact ⟨c, now, bound.frame
      (Frame.calm rfl (Nat.le_refl _) Iff.rfl (Nat.le_refl _) rfl rfl rfl) fun _ => Iff.rfl⟩
  · intro j
    obtain ⟨life, follows, sound, tied⟩ := inv.jobs j
    exact ⟨life, follows, sound, tied.kept (Kept.refl life) rfl rfl⟩

/-- The core gives a new token. -/
def State.capture (s : State) : State :=
  { s with
    tokens := s.tokens + 1
    live := insert (s.tokens + 1) s.live
    journal := s.journal ++ [.captured (s.tokens + 1)] }

theorem accounts_captured (accounts : ∀ k, s.Accounts k) (k : Token) : s.capture.Accounts k := by
  have before := accounts k
  unfold State.Accounts at before ⊢
  have silent : (s.capture).journal.countP (Happening.takes k) =
      s.journal.countP (Happening.takes k) := by
    simp [State.capture, List.countP_append, Happening.takes]
  rw [silent]
  by_cases new : k = s.tokens + 1
  · have outside : ¬ (0 < k ∧ k ≤ s.tokens) := by
      rw [new]
      exact fun h => Nat.not_succ_le_self _ h.2
    have inside : 0 < k ∧ k ≤ s.capture.tokens := by
      rw [new]
      exact ⟨Nat.succ_pos _, Nat.le_refl _⟩
    rw [if_neg outside] at before
    rw [if_pos inside, if_pos (new ▸ Finset.mem_insert_self ..)]
    split at before <;> omega
  · have member : k ∈ s.capture.live ↔ k ∈ s.live := by simp [State.capture, new]
    have range : k ≤ s.capture.tokens ↔ k ≤ s.tokens :=
      ⟨fun le => Nat.le_of_lt_succ (Nat.lt_of_le_of_ne le new), Nat.le_succ_of_le⟩
    simp only [member, range]
    exact before

theorem Inv.known (inv : Inv library s) (member : token ∈ s.live) : token ≤ s.tokens := by
  obtain ⟨i, c, was, -, rfl⟩ := inv.live token member
  exact (inv.course was).below

/-- The token goes back when the queue is full. -/
theorem Inv.refused (inv : Inv library s) :
    Inv library (s.capture.cancelCallback (s.tokens + 1)) := by
  have fresh : s.tokens + 1 ∉ s.live := fun member => Nat.not_succ_le_self _ (inv.known member)
  have given : s.tokens + 1 ∈ s.capture.live := Finset.mem_insert_self ..
  have live : s.capture.live.erase (s.tokens + 1) = s.live := Finset.erase_insert fresh
  have accounts := accounts_taken (accounts_captured inv.accounts) given
    (e := .dropped (s.tokens + 1)) (by simp [Happening.takes])
  have course (i : Nat) : Course.of i (s.capture.journal ++ [.dropped (s.tokens + 1)]) =
      Course.of i s.journal := by
    rw [State.capture, Course.of_concat, Course.of_concat]
    cases Course.of i s.journal <;> rfl
  unfold State.cancelCallback State.endToken
  rw [if_pos given]
  rw [live] at accounts ⊢
  refine ⟨inv.held, inv.paced, inv.calm, ?_, ?_, ?_, ?_, accounts, ?_, inv.locked, inv.listed⟩
  · intro i
    obtain ⟨c, now, bound⟩ := inv.requests i
    exact ⟨c, (course i).trans now, bound.frame
      (Frame.calm rfl (Nat.le_refl _) Iff.rfl (Nat.le_succ _) rfl rfl rfl) fun _ => Iff.rfl⟩
  · intro j
    obtain ⟨life, follows, sound, tied⟩ := inv.jobs j
    refine ⟨life, follows, sound, ?_⟩
    have same := course (s.job j).request
    refine ⟨?_, tied.early, ?_, ?_⟩
    · rw [tied.open_, Awaits, Awaits]
      simp only [State.capture] at same ⊢
      rw [same]
    · intro working
      obtain ⟨c, now, under⟩ := tied.busy working
      exact ⟨c, same.trans now, under⟩
    · intro c now
      exact tied.begun c (same.symm.trans now)
  · intro i k c d now now'
    exact inv.distinct i k c d ((course i).symm.trans now) ((course k).symm.trans now')
  · intro token member
    obtain ⟨i, c, was, rest⟩ := inv.live token member
    exact ⟨i, c, (course i).trans was, rest⟩
  · exact inv.results_more (fun _ member => by simp [State.capture, member])
      fun i job result member => by simpa [State.capture] using member

/-- The request goes to the queue. -/
def State.submit (s : State) (id : Nat) (data : Int) (queue : WorkQueue.State) : State :=
  { s.capture with
    queue
    job := Function.update s.job s.queue.submitted
      { request := id, input := (s.object id).input, data }
    object := Function.update s.object id
      { s.object id with
        ticket := some s.queue.submitted
        callback := s.tokens + 1
        state := .sent
        input := { url := [] } }
    journal := s.capture.journal ++
      [.sent id s.queue.submitted (s.object id).input data (s.tokens + 1) (s.object id).handle] }

theorem Inv.sent (inv : Inv library s) (data : Int) {queue : WorkQueue.State}
    (was : Course.of id s.journal = some c) (building : c.stage = .building) (owned : id ∈ s.owned)
    (stepped : Step s.queue (.submit s.queue.submitted) queue) :
    Inv library (s.submit id data queue) := by
  have bound := inv.course was
  have shows_ := bound.shows_
  have open_ := bound.open_ owned
  obtain ⟨untransferred, unlost⟩ := (Course.recorded was).idle building
  have idle : c.pending = false := by simp [Course.pending, building]
  have fresh : s.tokens + 1 ∉ s.live := fun member => Nat.not_succ_le_self _ (inv.known member)
  have next_ : queue.submitted = s.queue.submitted + 1 ∧ queue.owner = s.queue.owner ∧
      queue.stopping = s.queue.stopping := by
    cases stepped
    exact ⟨rfl, rfl, rfl⟩
  obtain ⟨submitted, owner, stopping⟩ := next_
  let d : Course :=
    { c with
      stage := .sent
      job := s.queue.submitted
      input := (s.object id).input
      data
      token := s.tokens + 1
      handle := (s.object id).handle }
  have pending : d.pending = true := by simp [d, Course.pending, open_]
  have unsent (i : Nat) : Course.of i s.capture.journal = Course.of i s.journal := by
    rw [State.capture, Course.of_concat]
    cases Course.of i s.journal <;> rfl
  have now : Course.of id (s.submit id data queue).journal = some d :=
    (Course.of_snoc ((unsent id).trans was)).trans
      ((Course.next_own rfl).trans (if_pos ⟨building, open_⟩))
  have bound' : Bound library (s.submit id data queue) id d := by
    refine ⟨?_, fun early => absurd owned (bound.unborn early).2, fun _ => open_, fun _ => owned,
      (fun _ at_ => by cases at_), ?_, fun _ => ⟨Nat.succ_pos _, ?_⟩, Nat.le_refl _,
      fun _ => ⟨?_, ?_⟩⟩
    · simp only [State.submit, Function.update_self]
      refine ⟨rfl, (if_pos pending).symm, (if_pos pending).symm, ?_, ?_, fun _ => rfl⟩
      · simpa [d, Course.error, building] using shows_.error
      · simpa [d, Course.response, building] using shows_.response
    · intro locked
      rw [bound.locked locked] at building
      cases building
    · simp [State.submit, State.capture, d, unlost]
    · exact Nat.lt_of_lt_of_eq (Nat.lt_succ_self _) submitted.symm
    · simp [State.submit, d]
  have turn : Turn library s (s.submit id data queue) id c d := by
    refine ⟨was, now, ?_, ?_, bound', ?_, ?_, fun _ => Or.inr (Nat.lt_succ_self _), ?_,
      fun sent => absurd (untransferred.symm.trans sent) Bool.false_ne_true⟩
    · intro i c' apart was'
      exact Course.of_other rfl apart.symm ((unsent i).trans was')
    · intro i apart
      refine ⟨Function.update_of_ne apart .., Nat.le_refl _, Iff.rfl, fun taken => taken,
        Nat.le_succ _, submitted ▸ Nat.le_succ _, fun k known => ?_⟩
      simp [State.submit, Nat.ne_of_lt known]
    · intro k small _
      have other : k ≠ s.tokens + 1 := fun same => Nat.not_succ_le_self _ (same ▸ small)
      simp [State.submit, State.capture, other]
    · intro k member
      rcases Finset.mem_insert.mp member with same | member
      · exact Or.inr ⟨pending, same.symm⟩
      · exact Or.inl member
    · simp [idle]
  have named (k r : Nat) (at_ : s.queue.owner = .calling k r) : k ≠ s.queue.submitted := by
    have inside := inv.held.mem_jobs (j := k)
      (Or.inr (Or.inr (Or.inr (by rw [at_]; rfl))))
    exact Nat.ne_of_lt (inv.held.named k inside)
  refine ⟨inv.held.step stepped, inv.paced.step stepped, stopping.trans inv.calm,
    turn.requests inv, ?_, turn.distinct inv, turn.had inv, ?_, ?_, ?_, inv.listed⟩
  · intro j
    obtain ⟨later, follows, sound, life, sound', tied, moved⟩ :=
      lives_step inv.held inv.paced stepped inv.jobs j
    refine ⟨later, follows, sound, ?_⟩
    by_cases own : s.queue.submitted = j
    · subst own
      rw [Life.next_own rfl] at moved
      simp only [Life.advance, Option.ite_none_right_eq_some, Option.some.injEq] at moved
      obtain ⟨first, rfl⟩ := moved
      have request : ((s.submit id data queue).job s.queue.submitted).request = id := by
        simp [State.submit]
      have unended := tied.early (Or.inl first)
      have unstarted := sound'.unstarted (Or.inl first)
      refine ⟨?_, fun _ => unended, (fun never => by cases never), ?_⟩
      · rw [request, awaits_iff now]
        simp [Open, sound'.uncanceled first, pending, d]
      · intro c' now' _ _
        rw [request] at now'
        cases now.symm.trans now'
        exact ⟨untransferred.trans unstarted.symm, by simp [unended]⟩
    · rw [Life.next_other rfl own] at moved
      cases moved
      refine tied.turn turn inv (Kept.refl _) (Function.update_of_ne (Ne.symm own) ..)
        (fun _ _ => rfl) fun _ => ?_
      exact ⟨by simp [idle], fun h => own h.2⟩
  · exact accounts_note (accounts_captured inv.accounts) fun _ => rfl
  · exact inv.results_more (fun _ member => by simp [State.submit, State.capture, member])
      fun i job result member => by simpa [State.submit, State.capture] using member
  · intro i
    rw [show (s.submit id data queue).locked = s.locked from rfl, inv.locked i]
    constructor
    · rintro ⟨k, r, at_, own⟩
      exact ⟨k, r, owner.trans at_, by simpa [State.submit, named k r at_] using own⟩
    · rintro ⟨k, r, at_, own⟩
      have before := owner.symm.trans at_
      exact ⟨k, r, before, by simpa [State.submit, named k r before] using own⟩

theorem Inv.send (inv : Inv library s) (owned : id ∈ s.owned) (data : Int)
    (captured : Except String Unit) : Inv library (send id data captured s).2 := by
  obtain ⟨c, was, bound⟩ := inv.requests id
  unfold HttpRequests.send
  by_cases building : (s.object id).state ≠ .building
  · simpa only [if_pos building] using inv
  simp only [if_neg building]
  cases captured with
  | error error => exact inv.begin
  | ok taken =>
      cases submitted : WorkQueue.submit s.queue s.queue.submitted with
      | none =>
          have refused := inv.begin.refused
          simpa only [submitted, State.capture] using refused
      | some queue =>
          have stage := Course.phase_building (bound.shows_.state ▸ not_not.mp building)
          have sent := inv.begin.sent data was stage owned
            (@WorkQueue.next_step _ _ (.submit s.queue.submitted) submitted)
          simpa only [submitted, State.submit, State.capture] using sent

end Source2Root.HttpRequests
