import Source2Root.Foundation.ExtensionsKeep

/-!
# What the engine reports keeps to the single changes

Commands, events, ticks, and the pause of the whole manager.
-/

set_option autoImplicit false

namespace Source2Root.Foundation

open Reentrant Handles

variable {I : State → Prop} {E : Prop} {base s : State} {a : Addr}

/-! ## Commands -/

theorem runCommand_keeps (within : Within base s) (server : Bool) (caller : Player)
    {name : String} (arguments : List Char) {owners : List Addr}
    (mine : ∀ a ∈ owners, ∃ command, (s.commandsOf a)[name]? = some command) :
    Keeps base (runCommand server caller name arguments owners) s := by
  induction owners with
  | nil => exact Runs.pure within trivial
  | cons a rest ih =>
      have others := ih fun b member => mine b (List.mem_cons_of_mem _ member)
      unfold runCommand
      refine Runs.get (Runs.ite (fun _ => others) fun running => ?_)
      have running : s.state a = .running := not_not.mp running
      obtain ⟨command, there⟩ := mine a List.mem_cons_self
      refine Runs.expected _ there ?_
      refine Runs.ite (fun _ => Runs.host fun _ => Runs.pure within trivial) fun _ => ?_
      have called : ∀ {s' : State} (handle : HandleId), Within base s' → s'.state a = .running →
          Keeps base (do let _ ← invoke a (.command name handle arguments)) s' :=
        fun _ within' running' => Keeps.bind (invoke_keeps within' _ running' trivial)
          fun _ s'' within'' => Runs.pure within'' trivial
      refine Runs.handle (P := fun _ _ => True) ?_ fun _ s' within' => Runs.pure within' trivial
      refine Runs.bind (P := fun _ s' => s'.state a = .running) ?_ fun handle s' within' =>
        called handle within'
      refine Runs.ite (fun _ => Runs.pure within running) fun _ => ?_
      refine (playerHandle_does within caller (Or.inl running)).mono ?_
      rintro id s' within' ⟨⟨handles, rfl⟩, -⟩
      exact running

theorem lookupCaller_looks (within : Within base s) (origin : Origin) (slot : Int) :
    Looks base (lookupCaller origin slot) s fun _ => True := by
  unfold lookupCaller
  refine Runs.ite (fun _ => Runs.pure within ⟨rfl, trivial⟩) fun _ => ?_
  exact fun r => ⟨within, fun _ _ => ⟨rfl, trivial⟩, fun _ is => (nomatch is)⟩

theorem dispatch_keeps (within : Within base s) (origin : Origin) (slot : Int)
    (text : List Char) : Keeps base (dispatch origin slot text) s := by
  unfold dispatch
  refine Looks.bind (lookupCaller_looks within origin slot) fun r _ => ?_
  unfold dispatchFor
  refine Runs.ite (fun _ => Runs.pure within trivial) fun _ => Runs.get ?_
  refine Runs.ite (fun _ => Runs.pure within trivial) fun _ => ?_
  refine Runs.ite (fun _ => Runs.pure within trivial) fun _ => ?_
  refine Runs.ite (fun _ => Runs.pure within trivial) fun _ => ?_
  refine Keeps.bind (reconcilePlayers_runs within).fine fun _ s' within' => Runs.get ?_
  split
  · exact Runs.ite (fun _ => Runs.host fun _ => Runs.pure within' trivial) fun _ =>
      Runs.pure within' trivial
  · rename_i owners there
    refine Runs.ite (fun _ => Runs.host fun _ => Runs.pure within' trivial) fun _ => ?_
    refine Keeps.bind (runCommand_keeps within' _ _ _ fun a member => ?_) fun _ s'' within'' => ?_
    · exact within'.reach.registers.command there ((Finset.mem_sort _).mp member)
    · exact Runs.pure within'' trivial

/-! ## Events -/

/-- The script may still be called, now or later. -/
def State.Waits (s : State) (a : Addr) : Prop :=
  s.state a = .loading ∨ s.state a = .running ∨ s.state a = .paused

/-- A script that still waits has kept its owner number and its events. -/
structure Lasting (s s' : State) : Prop where
  born : s.fresh ≤ s'.fresh
  owner : ∀ a, a < s.fresh → s'.owner a = s.owner a
  waits : ∀ a, a < s.fresh → s'.Waits a → s.Waits a
  events : ∀ a, a < s.fresh → s'.Waits a → ∀ name ∈ s.eventsOf a, name ∈ s'.eventsOf a

theorem Lasting.refl (s : State) : Lasting s s :=
  ⟨le_refl _, fun _ _ => rfl, fun _ _ => id, fun _ _ _ _ => id⟩

theorem Lasting.trans {s s' s'' : State} (first : Lasting s s') (second : Lasting s' s'') :
    Lasting s s'' where
  born := first.born.trans second.born
  owner := fun a older =>
    (second.owner a (older.trans_le first.born)).trans (first.owner a older)
  waits := fun a older waits =>
    first.waits a older (second.waits a (older.trans_le first.born) waits)
  events := by
    intro a older waits name member
    have older' := older.trans_le first.born
    exact second.events a older' waits name
      (first.events a older (second.waits a older' waits) name member)

/-- The owner numbers and the events are the same, and nobody comes to wait. -/
theorem Lasting.of {s s' : State} (fresh : s'.fresh = s.fresh) (owner : s'.owner = s.owner)
    (events : s'.eventsOf = s.eventsOf) (waits : ∀ a, s'.Waits a → s.Waits a) : Lasting s s' :=
  ⟨fresh ▸ le_refl _, fun a _ => congrFun owner a, fun a _ => waits a,
    fun a _ _ _ member => (congrFun events a).symm ▸ member⟩

/-- One script goes to another state. -/
theorem Lasting.state {s s' : State} {a : Addr} {later : PluginState}
    (fresh : s'.fresh = s.fresh) (owner : s'.owner = s.owner) (events : s'.eventsOf = s.eventsOf)
    (state : s'.state = Function.update s.state a later)
    (waited : later = .loading ∨ later = .running ∨ later = .paused → s.Waits a) :
    Lasting s s' := by
  refine .of fresh owner events fun b waits => ?_
  unfold State.Waits at waits
  rw [state, Function.update_apply] at waits
  split at waits
  · exact ‹b = a› ▸ waited waits
  · exact waits

/-- A script that is new is nobody older. -/
theorem Lasting.joined {s s' : State} {number : Nat} {later : PluginState}
    (fresh : s'.fresh = s.fresh + 1) (owner : s'.owner = Function.update s.owner s.fresh number)
    (events : s'.eventsOf = Function.update s.eventsOf s.fresh ∅)
    (state : s'.state = Function.update s.state s.fresh later) : Lasting s s' where
  born := fresh ▸ Nat.le_succ _
  owner := by
    intro a older
    rw [owner, Function.update_of_ne (Nat.ne_of_lt older)]
  waits := by
    intro a older waits
    unfold State.Waits at waits
    rw [state, Function.update_of_ne (Nat.ne_of_lt older)] at waits
    exact waits
  events := by
    intro a older _ name member
    rw [events, Function.update_of_ne (Nat.ne_of_lt older)]
    exact member

theorem Act.lasting {s s' : State} {k : Kind} (act : Act k s s') : Lasting s s' := by
  cases act with
  | fault a active =>
      rcases State.fault_state s a with same | retired
      · refine .of rfl rfl rfl fun b waits => ?_
        unfold State.Waits at waits
        rw [same] at waits
        exact waits
      · exact .state rfl rfl rfl retired (by simp)
  | giveUp => exact .state rfl rfl rfl rfl (by simp)
  | failCandidate => exact .state rfl rfl rfl rfl (by simp)
  | retire => exact .state rfl rfl rfl rfl (by simp)
  | disable => exact .state rfl rfl rfl rfl (by simp)
  | retireCandidate => exact .state rfl rfl rfl rfl (by simp)
  | rewriteRecord => exact .state rfl rfl rfl rfl (by simp)
  | pause a managing current running => exact .state rfl rfl rfl rfl fun _ => Or.inr (Or.inl running)
  | resume a managing current paused => exact .state rfl rfl rfl rfl fun _ => Or.inr (Or.inr paused)
  | swap id slot b managing there staged loading =>
      exact .state rfl rfl rfl rfl fun _ => Or.inl loading
  | place a ready candidate inactive replaceable loaded kind =>
      cases ready with
      | true =>
          exact .state rfl rfl rfl rfl fun _ => Or.inl (of_decide_eq_true kind.symm)
      | false => exact .of rfl rfl rfl fun _ => id
  | prepare => exact .joined rfl rfl rfl rfl
  | placeRecord => exact .joined rfl rfl rfl rfl
  | addEvent a name callback =>
      refine ⟨le_refl _, fun _ _ => rfl, fun _ _ => id, fun b _ _ other member => ?_⟩
      exact Ownership.mem_update_insert.mpr (Or.inr member)
  | dropEvent a name owners removed still =>
      refine ⟨le_refl _, fun _ _ => rfl, fun _ _ => id, fun b _ waits other member => ?_⟩
      refine Ownership.mem_update_erase.mpr ⟨?_, member⟩
      rintro ⟨rfl, -⟩
      rcases waits with is | is | is
      · exact still.loading is
      · exact still.running is
      · exact still.paused is
  | _ => exact .of rfl rfl rfl fun _ => id

theorem Onward.lasting {s s' : State} (onward : Onward s s') : Lasting s s' := by
  induction onward with
  | refl => exact Lasting.refl s
  | tail _ last ih =>
      obtain ⟨k, act⟩ := last
      exact ih.trans act.lasting

theorem deliverEvent_keeps (within : Within base s) {name : String} {listener : String × Nat}
    {before : State} {b : Addr} (lasting : Lasting before s) (older : b < before.fresh)
    (listens : name ∈ before.eventsOf b) (number : before.owner b = listener.2) :
    Keeps base (deliverEvent name listener) s := by
  unfold deliverEvent
  refine Runs.get (Runs.listener within (fun _ => trivial) fun slot _ => ?_)
  refine Runs.ite (fun current => ?_) fun _ => Runs.pure within trivial
  -- the script in the slot is the one that listened
  have loaded := (within.reach.living.home _ (Or.inl current.2)).1
  have same : slot.current = b :=
    within.reach.numbered.one _ _
      (current.1.trans (number.symm.trans (lasting.owner b older).symm))
      (within.reach.real _ (Or.inl loaded))
  have member := lasting.events b older (same ▸ Or.inr (Or.inl current.2)) name listens
  obtain ⟨handler, there⟩ := Tables.mem_iff.mp (same ▸ member)
  refine Runs.expected _ there ?_
  refine Keeps.bind (invoke_keeps within _ current.2 trivial) fun _ s' within' => ?_
  exact Runs.pure within' trivial

/-- Those whom an event is for are scripts that listen to it. -/
theorem listeners_listen (reach : Reach s) {name : String} {listener : String × Nat}
    (member : listener ∈ s.listeners name) :
    ∃ b, name ∈ s.eventsOf b ∧ s.owner b = listener.2 := by
  unfold State.listeners at member
  cases there : s.events[name]? with
  | none =>
      rw [there] at member
      exact nomatch member
  | some owners =>
      rw [there] at member
      obtain ⟨b, mine, rfl⟩ := List.mem_map.mp member
      exact ⟨b, (reach.registers.events.owned name b).mpr
        ⟨owners, there, (Finset.mem_sort _).mp mine⟩, rfl⟩

theorem Reach.listener_born (reach : Reach s) {name : String} {b : Addr}
    (listens : name ∈ s.eventsOf b) : b < s.fresh := by
  by_contra unborn
  have unloaded := reach.living.unborn b (Nat.le_of_not_lt unborn)
  rw [reach.bared.events b unloaded] at listens
  exact Std.ExtTreeMap.not_mem_empty listens

theorem event_keeps (within : Within base s) (name : String) : Keeps base (event name) s := by
  unfold event
  refine Runs.get (Runs.rebase within (Keeps.forM _ _ (fun listener member s' within' => ?_) s
    (Within.start within.reach)))
  obtain ⟨b, listens, number⟩ := listeners_listen within.reach member
  exact deliverEvent_keeps within' within'.later.onward.lasting
    (within.reach.listener_born listens) listens number

/-! ## Ticks -/

theorem runPendingMap_keeps (within : Within base s)
    (ticked : s.journal.getLast? = some .ticked) : Keeps base runPendingMap s := by
  unfold runPendingMap
  refine Runs.get ?_
  cases pending : s.pendingMap with
  | none => exact Runs.pure within trivial
  | some request =>
      refine Runs.ite (fun _ => Runs.pure within trivial) fun idle => ?_
      have idle : s.depth = 0 := by simpa [State.idle] using idle
      refine Runs.ite (fun _ => ?_) fun asks => ?_
      · exact Runs.modify (Runs.pure (within.act (.cancelMap 0) rfl) trivial)
      · have asks : ∃ slot : Slot, s.slots[request.plugin]? = some slot ∧
            s.owner slot.current = request.owner ∧ s.state slot.current = .running := by
          cases there : s.slots[request.plugin]? with
          | none => simp [there] at asks
          | some slot =>
              simp only [there, Bool.not_eq_true', Bool.not_eq_false, Bool.and_eq_true,
                beq_iff_eq] at asks
              exact ⟨slot, rfl, asks⟩
        have taken : Within base (s.takeMap request) :=
          within.act (.takeMap request pending ticked idle asks) rfl
        exact Runs.modify (Runs.enter taken fun _ s' within' _ => Runs.pure within' trivial)

theorem timerTarget_looks (within : Within base s) (a : Addr) (timer : Timer) :
    Looks base (timerTarget a timer) s fun _ => True := by
  unfold timerTarget
  refine Runs.ite (fun _ => Runs.pure within ⟨rfl, trivial⟩) fun _ => ?_
  refine Looks.bind (resolvePlayer_looks within a timer.target) fun answer _ => ?_
  split
  · exact Runs.pure within ⟨rfl, trivial⟩
  · exact Runs.pure within ⟨rfl, trivial⟩
  · exact Runs.pure within ⟨rfl, trivial⟩

theorem fireTimer_keeps (within : Within base s) {id : HandleId} {timer : Timer}
    (running : s.state a = .running) (live : s.timer id (s.owner a) = some timer)
    (due : timer.due ≤ s.now) : Keeps base (fireTimer a id timer) s := by
  unfold fireTimer
  have noted : Within base (s.note (.fired timer.serial a (s.ran a))) :=
    within.act (.fired a id timer running live due) rfl
  refine Runs.modify (Runs.get ?_)
  refine Runs.bind (removeHandle_plain noted rfl (fun _ => trivial) (by decide) (by decide)
    fun is => (by cases is)) ?_
  rintro _ s' within' ⟨value, handles, -, rfl⟩
  refine Keeps.bind (invoke_keeps within' _ running trivial) fun _ s'' within'' => ?_
  exact Runs.pure within'' trivial

theorem tickTimers_keeps (ids : List HandleId) :
    ∀ {s : State}, Within base s → s.state a = .running → Keeps base (tickTimers a ids) s := by
  induction ids with
  | nil => exact fun within _ => Runs.pure within trivial
  | cons id rest ih =>
      intro s within running
      unfold tickTimers
      refine Runs.get (Runs.ite (fun _ => ih within running) fun there => ?_)
      obtain ⟨timer, live⟩ := State.timer_live within.reach (by simpa using there)
      refine Runs.expected _ live (Runs.ite (fun _ => ih within running) fun due => ?_)
      refine Looks.bind (timerTarget_looks within a timer) fun answer _ => ?_
      split
      · exact ih within running
      · refine Runs.bind (removeHandle_plain within rfl (fun _ => trivial) (by decide) (by decide)
          fun is => (by cases is)) ?_
        rintro _ s' within' ⟨value, handles, -, rfl⟩
        exact ih within' running
      · refine Keeps.bind (fireTimer_keeps within running live (Int.not_lt.mp due))
          fun _ s' within' => Runs.get ?_
        exact Runs.ite (fun running' => ih within' running') fun _ => Runs.pure within' trivial

theorem tickScripts_keeps (within : Within base s) : Keeps base tickScripts s := by
  unfold tickScripts
  refine Runs.get (Keeps.forM _ _ (fun id _ s' within' => ?_) s within)
  unfold tickScript
  refine Runs.get ?_
  cases s'.slots[id]? with
  | none => exact Runs.pure within' trivial
  | some slot =>
      exact Runs.ite (fun running => tickTimers_keeps _ within' running) fun _ =>
        Runs.pure within' trivial

theorem tickVoice_keeps (within : Within base s) : Keeps base tickVoice s := by
  unfold tickVoice
  refine Runs.get (Runs.ite (fun _ => ?_) fun _ => Runs.pure within trivial)
  have later := within.act (.nextVoice (s.now + milliseconds 1000)) rfl
  refine Runs.modify (Keeps.bind (voiceCall_runs later _).fine fun _ s' within' => ?_)
  exact Runs.pure within' trivial

theorem tick_keeps (within : Within base s) (now : Int) : Keeps base (tick now) s := by
  unfold tick
  refine Runs.get (Runs.ite (fun _ => Runs.pure within trivial) fun idle => ?_)
  have idle : s.depth = 0 := by simpa [State.idle] using idle
  have ticked : (s.advance now).journal.getLast? = some .ticked := List.getLast?_concat
  refine Runs.modify (Keeps.bind (runPendingMap_keeps (within.act (.advance now idle) rfl) ticked)
    fun used s1 within1 => ?_)
  refine Runs.ite (fun _ => Runs.pure within1 trivial) fun _ => ?_
  refine Keeps.bind (reconcilePlayers_runs within1).fine fun _ s2 within2 => ?_
  refine Keeps.bind (tickVoice_keeps within2) fun _ s3 within3 => ?_
  refine Keeps.bind (tickNativeMenus_keeps within3) fun _ s4 within4 => ?_
  refine Keeps.bind (tickScripts_keeps within4) fun _ s5 within5 => ?_
  refine Keeps.bind (tickDisplays_keeps within5) fun _ s6 within6 => ?_
  exact pollMenuInput_keeps within6

/-! ## The voice service, the pause -/

theorem nativeResumed_keeps (within : Within base s) : Keeps base nativeResumed s := by
  unfold nativeResumed
  refine Keeps.bind (reconcilePlayers_runs within).fine fun _ s' within' => ?_
  refine Keeps.bind (voiceCall_runs within' _).fine fun _ s'' within'' => ?_
  exact Runs.pure within'' trivial

theorem filterVoice_keeps (within : Within base s) (label : Voice.Label) :
    Keeps base (filterVoice label) s :=
  Runs.modified (within.act (.voice _ _) rfl) trivial

theorem clearAll_runs (scripts : List Addr) :
    ∀ {s : State} (success : Bool), Within base s →
      Runs I E base (clearAll scripts success) s fun _ _ => True := by
  induction scripts with
  | nil => exact fun _ within => Runs.pure within trivial
  | cons a rest ih =>
      intro s success within
      unfold clearAll
      exact Runs.bind (clearMenus_runs within a) fun _ s' within' _ => ih _ within'

theorem closeNativeDisplays_runs (slots : List Int) :
    ∀ {s : State} (success : Bool), Within base s →
      Runs I E base (closeNativeDisplays slots success) s fun _ s' => OnlyNatives s s' := by
  induction slots with
  | nil => exact fun _ within => Runs.pure within (OnlyNatives.refl _)
  | cons slot rest ih =>
      intro s success within
      unfold closeNativeDisplays
      refine Runs.bind (closeNativeDisplay_none within slot) fun _ s' within' both => ?_
      exact (ih _ within').mono fun _ s'' _ after => both.1.trans after

theorem preparePause_keeps (within : Within base s) : Keeps base preparePause s := by
  unfold preparePause
  refine Runs.get (Runs.ite (fun _ => Runs.pure within trivial) fun _ => Runs.get ?_)
  refine Keeps.bind (clearAll_runs _ true within) fun cleared s1 within1 => Runs.get ?_
  refine Keeps.bind (closeNativeDisplays_runs _ cleared within1).fine fun closed s2 within2 => ?_
  refine Runs.ite (fun _ => Runs.pure within2 trivial) fun _ => ?_
  refine Keeps.bind (voiceCall_runs within2 _).fine fun heard s3 within3 => ?_
  refine Runs.ite (fun _ => Runs.pure within3 trivial) fun _ => ?_
  exact Runs.modify (Runs.pure (within3.act .suspended rfl) trivial)

end Source2Root.Foundation
