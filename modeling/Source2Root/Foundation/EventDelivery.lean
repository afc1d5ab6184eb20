import Source2Root.Foundation.Commands

/-!
# Events

Every script that listens when an event arrives gets its turn; the lookup of its slot is
the only thing that can go wrong, and it does for a script that is loaded for the first
time.
-/

set_option autoImplicit false

namespace Source2Root.Foundation

open Reentrant Handles

variable {s : State} {a : Addr}

/-! ## A delivery -/

/-- It is the turn of a listener: the script in its slot is the one, and it runs. -/
def State.Turn (s : State) (listener : String × Nat) (a : Addr) : Prop :=
  (∃ slot : Slot, s.slots[listener.1]? = some slot ∧ a = slot.current) ∧
    s.owner a = listener.2 ∧ s.state a = .running

/-- Each listener in its turn is called once if the script in its slot is the one and
runs, whatever the calls before did; nobody else is called, and nothing is raised. -/
inductive Delivered (name : String) :
    List (String × Nat) → State → Tree State Reply Raised Unit → Prop where
  | done {s : State} : Delivered name [] s (.done (.ok ()) s)
  | skipped {listener : String × Nat} {rest : List (String × Nat)} {s : State}
      {t : Tree State Reply Raised Unit} (gone : ∀ a, ¬ s.Turn listener a)
      (others : Delivered name rest s t) : Delivered name (listener :: rest) s t
  | called {listener : String × Nat} {rest : List (String × Nat)} {s : State} {a : Addr}
      {k : Reply → State → Tree State Reply Raised Unit} (turn : s.Turn listener a)
      (others : ∀ r s', Reach s' → Later (s.enter a (.event name)) s' →
        Delivered name rest (s'.called a r.flag) (k r s')) :
      Delivered name (listener :: rest) s (.enter (s.enter a (.event name)) k)

/-- Nothing that raises at once is a delivery. -/
theorem Delivered.returns {name : String} {listeners : List (String × Nat)} {x : Raised}
    {t : State} : ¬ Delivered name listeners s (.done (.error x) t) := by
  induction listeners with
  | nil => exact fun delivered => nomatch delivered
  | cons listener rest ih =>
      intro delivered
      cases delivered with
      | skipped gone others => exact ih others

theorem Delivered.skip {name : String} {listener : String × Nat} {rest : List (String × Nat)}
    {t : Tree State Reply Raised Unit} (delivered : Delivered name (listener :: rest) s t)
    (gone : ∀ a, ¬ s.Turn listener a) : Delivered name rest s t := by
  cases delivered with
  | skipped _ others => exact others
  | called turn _ => exact absurd turn (gone _)

theorem State.Turn.one {listener : String × Nat} {b : Addr} (first : s.Turn listener a)
    (second : s.Turn listener b) : a = b := by
  obtain ⟨⟨slot, there, rfl⟩, -⟩ := first
  obtain ⟨⟨slot', there', rfl⟩, -⟩ := second
  rw [there] at there'
  cases there'
  rfl

theorem Delivered.call {name : String} {listener : String × Nat} {rest : List (String × Nat)}
    {first : State} {k : Reply → State → Tree State Reply Raised Unit}
    (delivered : Delivered name (listener :: rest) s (.enter first k))
    (turn : s.Turn listener a) :
    ∀ r s', Reach s' → Later (s.enter a (.event name)) s' →
      Delivered name rest (s'.called a r.flag) (k r s') := by
  generalize same : Tree.enter first k = t at delivered
  cases delivered with
  | skipped gone _ => exact absurd turn (gone a)
  | called turn' others =>
      cases turn.one turn'
      cases same
      exact others

/-! ## One turn -/

theorem invoke_then {β : Type} {reason : Reason} (f : Bool × Int → M β) :
    (invoke a reason >>= f) s =
      .enter (s.enter a reason) fun r s' => f (r.flag, r.cell) (s'.called a r.flag) := by
  refine congrArg (Tree.enter (s.enter a reason)) (funext fun r => funext fun s' => ?_)
  show Tree.bind _ ((ite ((!r.flag) = true) _ _ : M (Bool × Int)) (s'.leave a)) = _
  unfold State.called
  by_cases failed : (!r.flag) = true
  · rw [if_pos failed, if_neg (by simpa using failed)]
    rfl
  · rw [if_neg failed, if_pos (by simpa using failed)]
    rfl

section Turn

variable {before : State} {name : String} {listener : String × Nat}

/-- The script in the slot of a listener that has its turn still has a handler. -/
theorem turn_handler (reach : Reach s) (lasting : Lasting before s) {b : Addr}
    (older : b < before.fresh) (listens : name ∈ before.eventsOf b)
    (number : before.owner b = listener.2) (turn : s.Turn listener a) :
    ∃ handler, (s.eventsOf a)[name]? = some handler := by
  have loaded := (reach.living.home _ (Or.inl turn.2.2)).1
  have same : a = b := reach.numbered.one _ _
    (turn.2.1.trans (number.symm.trans (lasting.owner b older).symm))
    (reach.real _ (Or.inl loaded))
  subst same
  exact Tables.mem_iff.mp (lasting.events a older (Or.inr (Or.inl turn.2.2)) name listens)

theorem deliverEvent_called {slot : Slot} (there : s.slots[listener.1]? = some slot)
    (current : s.owner slot.current = listener.2 ∧ s.state slot.current = .running)
    {handler : Function} (handles : (s.eventsOf slot.current)[name]? = some handler) :
    deliverEvent name listener s =
      (invoke slot.current (.event name) >>= fun _ => Pure.pure ()) s := by
  unfold deliverEvent
  rw [get_bind, there]
  show (ite (s.owner slot.current = listener.2 ∧ s.state slot.current = .running) _ _ : M Unit) s = _
  rw [if_pos current, handles]
  rfl

theorem deliverEvent_skipped {slot : Slot} (there : s.slots[listener.1]? = some slot)
    (other : ¬ (s.owner slot.current = listener.2 ∧ s.state slot.current = .running)) :
    deliverEvent name listener s = .done (.ok ()) s := by
  unfold deliverEvent
  rw [get_bind, there]
  show (ite (s.owner slot.current = listener.2 ∧ s.state slot.current = .running) _ _ : M Unit) s = _
  rw [if_neg other]
  rfl

theorem no_turn {slot : Slot} (there : s.slots[listener.1]? = some slot)
    (other : ¬ (s.owner slot.current = listener.2 ∧ s.state slot.current = .running)) :
    ∀ a, ¬ s.Turn listener a := by
  rintro a ⟨⟨slot', there', rfl⟩, same⟩
  rw [there] at there'
  cases there'
  exact other same

theorem deliverEvent_raises (name : String) (absent : s.slots[listener.1]? = none) :
    ∃ x t, deliverEvent name listener s = .done (.error x) t := by
  unfold deliverEvent
  rw [get_bind, absent]
  exact ⟨_, _, rfl⟩

/-- With the handler there, the turn is a call. -/
theorem turn_calls {slot : Slot} (there : s.slots[listener.1]? = some slot)
    (current : s.owner slot.current = listener.2 ∧ s.state slot.current = .running)
    (handles : ∃ handler, (s.eventsOf slot.current)[name]? = some handler)
    (rest : List (String × Nat)) :
    (listener :: rest).forM (deliverEvent name) s =
      .enter (s.enter slot.current (.event name)) fun r s' =>
        rest.forM (deliverEvent name) (s'.called slot.current r.flag) := by
  obtain ⟨handler, found⟩ := handles
  show Tree.bind _ (deliverEvent name listener s) = _
  rw [deliverEvent_called there current found, invoke_then]
  rfl

end Turn

/-! ## All turns -/

section Turns

variable {before : State} {name : String} {listeners : List (String × Nat)}

/-- The listeners listened when the event arrived, and the state is a later one. -/
structure Arrived (before : State) (name : String) (listeners : List (String × Nat)) (s : State) :
    Prop where
  reach : Reach s
  lasting : Lasting before s
  listened : ∀ listener ∈ listeners,
    ∃ b, b < before.fresh ∧ name ∈ before.eventsOf b ∧ before.owner b = listener.2

theorem Arrived.rest {listener : String × Nat} (arrived : Arrived before name
    (listener :: listeners) s) : Arrived before name listeners s :=
  ⟨arrived.reach, arrived.lasting,
    fun other member => arrived.listened other (List.mem_cons_of_mem _ member)⟩

theorem Arrived.handler {listener : String × Nat} (arrived : Arrived before name
    (listener :: listeners) s) (turn : s.Turn listener a) :
    ∃ handler, (s.eventsOf a)[name]? = some handler := by
  obtain ⟨b, older, listens, number⟩ := arrived.listened listener List.mem_cons_self
  exact turn_handler arrived.reach arrived.lasting older listens number turn

/-- The call of a listener is over. -/
theorem Arrived.called (arrived : Arrived before name listeners s) {s' : State} (reach : Reach s')
    (running : s.state a = .running) (later : Later (s.enter a (.event name)) s')
    (success : Bool) : Arrived before name listeners (s'.called a success) ∧
      Onward s (s'.called a success) := by
  have loaded := (arrived.reach.living.home a (Or.inl running)).1
  have act : Act .quiet s (s.enter a (.event name)) := .enter a _ running loaded trivial
  obtain ⟨reach', -, -, onward⟩ := invoke_over arrived.reach reach later success
  have onward := act.onward.trans onward
  exact ⟨⟨reach', arrived.lasting.trans onward.lasting, arrived.listened⟩, onward⟩

theorem turns_delivered (listeners : List (String × Nat)) :
    ∀ {s : State}, Arrived before name listeners s →
      (∀ listener ∈ listeners, ∃ slot, s.slots[listener.1]? = some slot) →
      Delivered name listeners s (listeners.forM (deliverEvent name) s) := by
  induction listeners with
  | nil => exact fun _ _ => .done
  | cons listener rest ih =>
      intro s arrived known
      obtain ⟨slot, there⟩ := known listener List.mem_cons_self
      have others := fun other member => known other (List.mem_cons_of_mem listener member)
      by_cases current : s.owner slot.current = listener.2 ∧ s.state slot.current = .running
      · have turn : s.Turn listener slot.current := ⟨⟨slot, there, rfl⟩, current⟩
        rw [turn_calls there current (arrived.handler turn)]
        refine .called turn fun r s' reach later => ?_
        obtain ⟨arrived', onward⟩ := arrived.rest.called reach current.2 later r.flag
        exact ih arrived' fun other member => onward.slots_kept (others other member)
      · refine .skipped (no_turn there current) ?_
        · show Delivered name rest s (Tree.bind _ (deliverEvent name listener s))
          rw [deliverEvent_skipped there current]
          exact ih arrived.rest others

/-- Where the slot of a listener is missing, the event is not delivered, even when the
calls before it do nothing. -/
theorem turns_fail (listeners : List (String × Nat)) :
    ∀ {s : State}, Arrived before name listeners s →
      (∃ listener ∈ listeners, s.slots[listener.1]? = none) →
      ¬ Delivered name listeners s (listeners.forM (deliverEvent name) s) := by
  induction listeners with
  | nil => exact fun _ absent => nomatch absent.choose_spec.1
  | cons listener rest ih =>
      intro s arrived absent delivered
      cases there : s.slots[listener.1]? with
      | none =>
          obtain ⟨x, t, raises⟩ := deliverEvent_raises name there
          have ends : (listener :: rest).forM (deliverEvent name) s = .done (.error x) t :=
            raise_bind raises
          rw [ends] at delivered
          exact delivered.returns
      | some slot =>
          have absent : ∃ other ∈ rest, s.slots[other.1]? = none := by
            obtain ⟨other, member, missing⟩ := absent
            rcases List.mem_cons.mp member with rfl | member
            · rw [there] at missing
              cases missing
            · exact ⟨other, member, missing⟩
          by_cases current : s.owner slot.current = listener.2 ∧ s.state slot.current = .running
          · have turn : s.Turn listener slot.current := ⟨⟨slot, there, rfl⟩, current⟩
            have loaded := (arrived.reach.living.home _ (Or.inl current.2)).1
            rw [turn_calls there current (arrived.handler turn)] at delivered
            have act : Act .quiet s (s.enter slot.current (.event name)) :=
              .enter _ _ current.2 loaded trivial
            have reach := arrived.reach.act act
            have delivered := delivered.call turn { flag := true } _ reach (Later.refl _)
            have after := arrived.rest.called reach current.2 (Later.refl _) true
            exact ih after.1 absent delivered
          · have ends : (listener :: rest).forM (deliverEvent name) s =
                rest.forM (deliverEvent name) s :=
              done_bind (deliverEvent_skipped there current)
            rw [ends] at delivered
            exact ih arrived.rest absent (delivered.skip (no_turn there current))

end Turns

/-! ## Events -/

variable {start : State} {stack : Stack}

/-- An event is delivered to all its listeners exactly when each of them has a slot. -/
theorem events_delivered (boot : Boot start) (reached : Reached start s stack) (name : String) :
    Delivered name (s.listeners name) s (event name s) ↔
      ∀ listener ∈ s.listeners name, ∃ slot, s.slots[listener.1]? = some slot := by
  have reach := reached.reach boot
  have arrived : Arrived s name (s.listeners name) s := by
    refine ⟨reach, Lasting.refl s, fun listener member => ?_⟩
    obtain ⟨b, listens, number⟩ := listeners_listen reach member
    exact ⟨b, reach.listener_born listens, listens, number⟩
  refine ⟨fun delivered listener member => ?_, turns_delivered _ arrived⟩
  cases there : s.slots[listener.1]? with
  | some slot => exact ⟨slot, rfl⟩
  | none => exact absurd delivered (turns_fail _ arrived ⟨listener, member, there⟩)

/-- A script is loaded for the first time, and listens while it starts. -/
def listening : History :=
  starting ++ [.start (.native 1 (.listenEvent "round_start" 0)), .reply {}]

theorem event_raises : ∃ s stack, Reached (State.boot 0 ['!'] ['/']) s stack ∧
    s.listeners "round_start" = [("a", 1)] ∧ raises (event "round_start" s) = true := by
  obtain ⟨s, stack, reached, seen⟩ := @History.reached listening
    (fun s => decide (s.listeners "round_start" = [("a", 1)] ∧
      raises (event "round_start" s) = true)) (by decide +kernel)
  exact ⟨s, stack, reached, of_decide_eq_true seen⟩

theorem events_delivered_loaded : ∃ s stack, Reached (State.boot 0 ['!'] ['/']) s stack ∧
    s.listeners "round_start" = [("a", 1)] ∧
      Delivered "round_start" (s.listeners "round_start") s (event "round_start" s) := by
  obtain ⟨s, stack, reached, seen⟩ := @History.reached (listening ++ [.back { cell := 1 }])
    (fun s => decide (s.listeners "round_start" = [("a", 1)] ∧
      s.slots["a"]?.isSome = true)) (by decide +kernel)
  obtain ⟨listeners, known⟩ := of_decide_eq_true seen
  refine ⟨s, stack, reached, listeners,
    (events_delivered boot_boot reached "round_start").mpr fun listener member => ?_⟩
  rw [listeners, List.mem_singleton] at member
  rw [member]
  exact Option.isSome_iff_exists.mp known

end Source2Root.Foundation
