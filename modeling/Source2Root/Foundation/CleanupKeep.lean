import Source2Root.Foundation.DispatchKeep

/-!
# Cleanup keeps to the single changes

A management operation knows that nobody else touches the slots.  The cleanup of a
script leaves the other scripts aside, never raises, and when it reports success the
script has nothing left.
-/

set_option autoImplicit false

namespace Source2Root.Foundation

open Reentrant Handles

/-- A management operation that began in `base` has come to `s`. -/
structure Managed (base s : State) : Prop where
  reach : Reach s
  calls : s.calls = { base.calls with managing := true }
  onward : Onward base s

variable {base s s' s'' : State}

theorem Managed.managing (managed : Managed base s) : s.managing = true :=
  congrArg Calls.managing managed.calls

theorem Managed.act (managed : Managed base s) {k : Kind} (act : Act k s s')
    (calls : s'.calls = s.calls) : Managed base s' :=
  ⟨managed.reach.act act, calls.trans managed.calls, managed.onward.trans act.onward⟩

theorem Managed.back (managed : Managed base s) (reach : Reach s') (calls : s'.calls = s.calls)
    (onward : Onward s s') : Managed base s' :=
  ⟨reach, calls.trans managed.calls, managed.onward.trans onward⟩

/-- The operation may be looked at from any moment of it on. -/
theorem Managed.restart (managed : Managed base s) : Managed s s :=
  ⟨managed.reach, by rw [← managed.managing]; rfl, Onward.refl s⟩

theorem Managed.within (managed : Managed base s) : Within s s := Within.start managed.reach

/-! ## What a cleanup leaves aside -/

/-- The slots are left alone, and so is every script that rests. -/
structure Aside (a : Addr) (s s' : State) : Prop where
  slots : s'.slots = s.slots
  preparing : s'.preparing = s.preparing
  manifest : s'.manifest = s.manifest
  owner : s'.owner = s.owner
  fresh : s'.fresh = s.fresh
  vm : ∀ b, b ≠ a → s'.vm b = s.vm b
  state : ∀ b, s'.state b = s.state b ∨ s'.state b = .retiring
  resting : ∀ b, s.active b = 0 → s.state b ≠ .running →
    s'.active b = 0 ∧ s'.state b = s.state b

/-- A stretch of the cleanup itself: what the script has lost stays lost. -/
structure Clears (a : Addr) (s s' : State) : Prop where
  aside : Aside a s s'
  loaded : s'.vm = s.vm
  swept : s.swept a = true → s'.swept a = true
  fades : s.Still a → Fades s s' a

theorem Quietly.aside (quietly : Quietly s s') (a : Addr) : Aside a s s' where
  slots := quietly.slots
  preparing := quietly.preparing
  manifest := quietly.manifest
  owner := quietly.owner
  fresh := quietly.fresh
  vm := fun b _ => congrFun quietly.vm b
  state := quietly.state
  resting := quietly.resting

theorem Quietly.clears (quietly : Quietly s s') (a : Addr) : Clears a s s' where
  aside := quietly.aside a
  loaded := quietly.vm
  swept := fun gone => (congrFun quietly.swept a).trans gone
  fades := quietly.fades a

theorem Aside.refl (a : Addr) (s : State) : Aside a s s := (Quietly.refl s).aside a

theorem Aside.trans {a : Addr} (first : Aside a s s') (second : Aside a s' s'') :
    Aside a s s'' where
  slots := second.slots.trans first.slots
  preparing := second.preparing.trans first.preparing
  manifest := second.manifest.trans first.manifest
  owner := second.owner.trans first.owner
  fresh := second.fresh.trans first.fresh
  vm := fun b apart => (second.vm b apart).trans (first.vm b apart)
  state := by
    intro b
    cases second.state b with
    | inl same => rw [same]; exact first.state b
    | inr retired => exact Or.inr retired
  resting := by
    intro b idle down
    obtain ⟨idle', same⟩ := first.resting b idle down
    obtain ⟨idle'', same'⟩ := second.resting b idle' (same ▸ down)
    exact ⟨idle'', same'.trans same⟩

theorem Aside.still {a b : Addr} (aside : Aside a s s') (still : s.Still b) : s'.Still b := by
  obtain ⟨inactive, same⟩ := aside.resting b still.inactive still.running
  exact ⟨inactive, same ▸ still.loading, same ▸ still.running, same ▸ still.paused⟩

theorem Clears.refl (a : Addr) (s : State) : Clears a s s := (Quietly.refl s).clears a

theorem Clears.trans {a : Addr} (first : Clears a s s') (second : Clears a s' s'') :
    Clears a s s'' where
  aside := first.aside.trans second.aside
  loaded := second.loaded.trans first.loaded
  swept := second.swept ∘ first.swept
  fades := fun still => (first.fades still).trans (second.fades (first.aside.still still))

/-- What the cleanup of a script changes, it changes for the script alone. -/
theorem Act.clears {a : Addr} (act : Act (.cleaning a) s s') (calls : s'.calls = s.calls)
    (loaded : s'.vm = s.vm) : Clears a s s' := by
  have fades : Fades s s a := ⟨id, id, id, id, id, id, id, id⟩
  have resting : ∀ b, s.active b = 0 → s.state b ≠ .running →
      s.active b = 0 ∧ s.state b = s.state b := fun _ idle _ => ⟨idle, rfl⟩
  have same : ∀ b, s.state b = s.state b ∨ s.state b = .retiring := fun _ => Or.inl rfl
  cases act with
  | enterStop _ still retiring is_loaded =>
      have level := congrFun (congrArg Calls.active calls) a
      have grown : Function.update s.active a (s.active a + 1) a = s.active a := level
      rw [Function.update_self] at grown
      omega
  | resetVm _ still bare =>
      exact ⟨⟨rfl, rfl, rfl, rfl, rfl, fun b _ => congrFun loaded b, same, resting⟩, loaded, id,
        fun _ => ⟨id, id, id, id, id, id, id, id⟩⟩
  | freeProvider _ r p released still there bound inactive last =>
      refine ⟨⟨rfl, rfl, rfl, rfl, rfl, fun _ _ => rfl, same, resting⟩, rfl, id,
        fun _ => { fades with providers := fun none_ => ?_ }⟩
      show Function.update s.providersOf a _ a = ∅
      rw [Function.update_self, none_, Finset.erase_empty]
  | retireResources _ still =>
      exact ⟨⟨rfl, rfl, rfl, rfl, rfl, fun _ _ => rfl, same, resting⟩, rfl, id,
        fun _ => { fades with handles := owned_nil_less (less_retire ..) }⟩
  | sweep _ still =>
      refine ⟨⟨rfl, rfl, rfl, rfl, rfl, fun _ _ => rfl, same, resting⟩, rfl,
        fun _ => ?_, fun _ => ⟨id, id, id, id, id, id, id, id⟩⟩
      exact Function.update_self ..
  | retireRest _ still swept undisplayed =>
      exact ⟨⟨rfl, rfl, rfl, rfl, rfl, fun _ _ => rfl, same, resting⟩, rfl, id,
        fun _ => { fades with handles := owned_nil_less (less_retire ..) }⟩
  | dropCommand _ name owners removed still owned there last =>
      refine ⟨⟨rfl, rfl, rfl, rfl, rfl, fun _ _ => rfl, same, resting⟩, rfl, id,
        fun _ => { fades with commands := fun none_ => ?_ }⟩
      exact absurd owned (by rw [none_]; exact Std.ExtTreeMap.not_mem_empty)
  | dropEvent _ name owners removed still owned there last =>
      refine ⟨⟨rfl, rfl, rfl, rfl, rfl, fun _ _ => rfl, same, resting⟩, rfl, id,
        fun _ => { fades with events := fun none_ => ?_ }⟩
      exact absurd owned (by rw [none_]; exact Std.ExtTreeMap.not_mem_empty)
  | dropConVar c name id_ v released handles permit owned there last removed =>
      have mine : c = a := by
        cases permit with
        | inl quiet => cases quiet.1
        | inr cleaning => cases cleaning.1; rfl
      subst mine
      refine ⟨⟨rfl, rfl, rfl, rfl, rfl, fun _ _ => rfl, same, resting⟩, rfl, id,
        fun _ => { fades with convars := fun none_ => ?_, handles := fun none_ => ?_ }⟩
      · rw [none_] at owned
        simp at owned
      · cases removed with
        | inl gone =>
            obtain ⟨value, gone⟩ := gone
            exact owned_nil_less (less_remove gone) none_
        | inr kept => rw [kept.2]; exact none_
  | dropCallbacks _ still =>
      refine ⟨⟨rfl, rfl, rfl, rfl, rfl, fun _ _ => rfl, same, resting⟩, rfl, id,
        fun _ => { fades with callbacks := fun _ => ?_ }⟩
      exact Function.update_self ..
  | stopNotify _ still =>
      exact ⟨⟨rfl, rfl, rfl, rfl, rfl, fun _ _ => rfl, same, resting⟩, rfl, id,
        fun _ => ⟨id, id, id, id, id, id, id, id⟩⟩

/-! ## Programs of a management operation -/

/-- The operation keeps to the single changes and ends with `Q`. -/
def Manages {α : Type} (base : State) (m : M α) (s : State)
    (Q : Except Raised α → State → Prop) : Prop :=
  (m s).Wp Reach Later fun outcome s' => Managed base s' ∧ Q outcome s'

section Manages

variable {α β : Type} {Q : Except Raised α → State → Prop} {Q' : Except Raised β → State → Prop}
  {P : α → State → Prop}

theorem Manages.pure {value : α} (managed : Managed base s) (fine : Q (.ok value) s) :
    Manages base (Pure.pure value : M α) s Q := ⟨managed, fine⟩

theorem Manages.throw (managed : Managed base s) (x : Raised) (fine : Q (.error x) s) :
    Manages base (MonadExcept.throw x : M α) s Q := ⟨managed, fine⟩

theorem Manages.mono {m : M α} {Q' : Except Raised α → State → Prop} (manages : Manages base m s Q)
    (weaker : ∀ outcome s', Managed base s' → Q outcome s' → Q' outcome s') :
    Manages base m s Q' :=
  Tree.Wp.mono manages fun outcome s' fine => ⟨fine.1, weaker outcome s' fine.1 fine.2⟩

theorem Manages.bind {m : M α} {f : α → M β} (first : Manages base m s Q)
    (rest : ∀ value s', Managed base s' → Q (.ok value) s' → Manages base (f value) s' Q')
    (fails : ∀ x s', Managed base s' → Q (.error x) s' → Q' (.error x) s') :
    Manages base (m >>= f) s Q' := by
  refine wp_bind.mpr (Tree.Wp.mono first fun outcome s' fine => ?_)
  cases outcome with
  | ok value => exact rest value s' fine.1 fine.2
  | error x => exact ⟨fine.1, fails x s' fine.1 fine.2⟩

/-- A step that does not raise. -/
theorem Manages.returns {m : M α} {f : α → M β} (first : Manages base m s (Returns P))
    (rest : ∀ value s', Managed base s' → P value s' → Manages base (f value) s' Q') :
    Manages base (m >>= f) s Q' := first.bind rest fun _ _ _ none_ => none_.elim

theorem Manages.get {f : State → M β} (rest : Manages base (f s) s Q') :
    Manages base (Foundation.get >>= f) s Q' := wp_bind.mpr rest

theorem Manages.modify {f : State → State} {g : Unit → M β}
    (rest : Manages base (g ()) (f s) Q') : Manages base (Foundation.modify f >>= g) s Q' :=
  wp_bind.mpr rest

theorem Manages.reply {f : Reply → M β} (rest : ∀ r, Manages base (f r) s Q') :
    Manages base (Foundation.reply >>= f) s Q' := wp_bind.mpr rest

theorem Manages.host {f : KeelResult → M β} (rest : ∀ result, Manages base (f result) s Q') :
    Manages base (Foundation.host >>= f) s Q' := by
  refine wp_bind.mpr (wp_bind.mpr fun r => ?_)
  exact rest r.result

theorem Manages.ite {c : Prop} [Decidable c] {m n : M α} (pos : c → Manages base m s Q)
    (neg : ¬ c → Manages base n s Q) : Manages base (if c then m else n) s Q := wp_ite pos neg

/-- A lookup that succeeds. -/
theorem Manages.expected (lookup : Lookup) {found : Option α} {value : α}
    (there : found = some value) {f : α → M β} (rest : Manages base (f value) s Q') :
    Manages base (Foundation.expect lookup found >>= f) s Q' := by
  subst there
  exact rest

/-- What is known of where an inner stretch began holds of the whole. -/
theorem Manages.rebase {m : M α} {inner : State} (managed : Managed base inner)
    (manages : Manages inner m s Q) : Manages base m s Q :=
  Tree.Wp.mono manages fun _ _ fine =>
    ⟨⟨fine.1.reach, fine.1.calls.trans (by rw [managed.calls]), managed.onward.trans fine.1.onward⟩,
      fine.2⟩

/-- What everybody may do. -/
theorem Managed.quiet {m : M α} {P : α → State → Prop} (managed : Managed base s)
    (gives : Gives s m s P) :
    Manages base m s (Returns fun value s' => Quietly s s' ∧ P value s') :=
  Tree.Wp.mono gives fun outcome s' fine => by
    refine ⟨managed.back fine.1.reach fine.1.later.calls fine.1.later.onward, ?_⟩
    cases outcome with
    | ok value => exact ⟨fine.1.later.quietly managed.managing, fine.2.1 value rfl⟩
    | error x => exact (fine.2.2 x rfl).elim

end Manages

/-! ## The parts of a cleanup -/

/-- Somebody in a table has a name no more. -/
theorem not_mem_erase_update {T : Type} {table : Addr → Std.ExtTreeMap String T} {a : Addr}
    {name other : String} :
    other ∈ Function.update table a ((table a).erase name) a ↔
      other ≠ name ∧ other ∈ table a := by
  rw [Function.update_self, Tables.mem_erase_iff]

/-- The end of a loop over the names that a script registered. -/
structure Removed (names : State → List String) (a : Addr) (among : List String) (success : Bool)
    (s : State) (done : Bool) (s' : State) : Prop where
  clears : Clears a s s'
  fewer : ∀ name ∈ names s', name ∈ names s
  gone : done = true → success = true ∧ ∀ name ∈ among, name ∉ names s'

section Removed

variable {names : State → List String} {a : Addr} {name : String} {rest : List String}
  {success done : Bool}

theorem Removed.nil : Removed names a [] success s success s :=
  ⟨Clears.refl a s, fun _ mine => mine, fun is => ⟨is, by simp⟩⟩

/-- A name that the host did not give back stays, and the loop goes on without success. -/
theorem Removed.kept (after : Removed names a rest false s done s') :
    Removed names a (name :: rest) success s done s' :=
  ⟨after.clears, after.fewer, fun is => by cases (after.gone is).1⟩

theorem Removed.step (first : Clears a s s')
    (drop : ∀ other, other ∈ names s' ↔ other ≠ name ∧ other ∈ names s)
    (after : Removed names a rest success s' done s'') :
    Removed names a (name :: rest) success s done s'' := by
  refine ⟨first.trans after.clears, fun other mine => ((drop other).mp (after.fewer other mine)).2,
    fun is => ?_⟩
  obtain ⟨fine, gone⟩ := after.gone is
  refine ⟨fine, List.forall_mem_cons.mpr ⟨fun mine => ?_, gone⟩⟩
  exact ((drop name).mp (after.fewer name mine)).1 rfl

end Removed

/-- The names under which a script has something. -/
def State.conVarNames (a : Addr) (s : State) : List String := (s.convarsOf a).keys

def State.commandNames (a : Addr) (s : State) : List String := (s.commandsOf a).keys

def State.eventNames (a : Addr) (s : State) : List String := (s.eventsOf a).keys

theorem closeConVars_manages {a : Addr} (among : List String) :
    ∀ {s : State} (success : Bool), Managed base s → s.Still a →
      Manages base (closeConVars a among success) s (Returns fun done s' =>
        Removed (State.conVarNames a) a among success s done s') := by
  induction among with
  | nil => exact fun success managed still => .pure managed .nil
  | cons name rest ih =>
      intro s success managed still
      unfold closeConVars
      refine Manages.returns (P := fun closed s' => (closed = false ∧ s' = s) ∨
        (closed = true ∧ Clears a s s' ∧ ∀ other, other ∈ State.conVarNames a s' ↔
          other ≠ name ∧ other ∈ State.conVarNames a s)) ?_ fun closed s' managed' step => ?_
      · refine closeConVar_wp managed.reach a name ?_ ?_
        · exact ⟨managed, Or.inl ⟨rfl, rfl⟩⟩
        · intro s' act calls does
          obtain ⟨v, released, handles, rfl⟩ := does
          have act := act (.cleaning a) (Or.inr ⟨rfl, still⟩)
          refine ⟨managed.act act calls, Or.inr ⟨rfl, act.clears calls rfl, fun other => ?_⟩⟩
          rw [State.conVarNames, State.conVarNames, Std.ExtTreeMap.mem_keys,
            Std.ExtTreeMap.mem_keys]
          exact not_mem_erase_update
      · cases step with
        | inl failed =>
            obtain ⟨rfl, rfl⟩ := failed
            rw [Bool.and_false]
            refine (ih false managed' still).mono fun outcome s'' _ after => ?_
            cases outcome with
            | error x => exact after
            | ok done => exact after.kept
        | inr closed =>
            obtain ⟨rfl, clears, drop⟩ := closed
            rw [Bool.and_true]
            refine (ih success managed' (clears.aside.still still)).mono
              fun outcome s'' _ after => ?_
            cases outcome with
            | error x => exact after
            | ok done => exact Removed.step clears drop after

theorem removeCommands_manages {a : Addr} (among : List String) :
    ∀ {s : State} (success : Bool), Managed base s → s.Still a → among.Nodup →
      (∀ name ∈ among, name ∈ s.commandsOf a) →
      Manages base (removeCommands a among success) s (Returns fun done s' =>
        Removed (State.commandNames a) a among success s done s') := by
  induction among with
  | nil => exact fun success managed still distinct mine => .pure managed .nil
  | cons name rest ih =>
      intro s success managed still distinct mine
      obtain ⟨absent, distinct⟩ := List.nodup_cons.mp distinct
      have owned := mine name List.mem_cons_self
      obtain ⟨owners, there, -⟩ := (managed.reach.registers.commands.owned name a).mp owned
      have dropped : ∀ removed : Bool, removed = decide (owners.card = 1) →
          Manages base (do
            modify (·.dropCommand a name owners removed)
            removeCommands a rest success : M Bool) s (Returns fun done s' =>
              Removed (State.commandNames a) a (name :: rest) success s done s') := by
        intro removed last
        have act : Act (.cleaning a) s (s.dropCommand a name owners removed) :=
          .dropCommand a name owners removed still owned there last
        have clears := act.clears rfl rfl
        have others : ∀ other ∈ rest, other ∈ (s.dropCommand a name owners removed).commandsOf a :=
          fun other member => not_mem_erase_update.mpr
            ⟨fun same => absent (same ▸ member), mine other (List.mem_cons_of_mem _ member)⟩
        refine .modify ((ih success (managed.act act rfl) (clears.aside.still still) distinct
          others).mono fun outcome s' _ after => ?_)
        cases outcome with
        | error x => exact after
        | ok done =>
            refine Removed.step clears (fun other => ?_) after
            rw [State.commandNames, State.commandNames, Std.ExtTreeMap.mem_keys,
              Std.ExtTreeMap.mem_keys]
            exact not_mem_erase_update
      unfold removeCommands
      refine .get (.expected _ there (.ite (fun single => .host fun result =>
        .ite (fun _ => ?_) fun _ => dropped true (by simp [single])) fun many =>
          dropped false (by simp [many])))
      refine (ih false managed still distinct fun other member =>
        mine other (List.mem_cons_of_mem _ member)).mono fun outcome s' _ after => ?_
      cases outcome with
      | error x => exact after
      | ok done => exact after.kept

theorem removeEvents_manages {a : Addr} (among : List String) :
    ∀ {s : State} (success : Bool), Managed base s → s.Still a → among.Nodup →
      (∀ name ∈ among, name ∈ s.eventsOf a) →
      Manages base (removeEvents a among success) s (Returns fun done s' =>
        Removed (State.eventNames a) a among success s done s') := by
  induction among with
  | nil => exact fun success managed still distinct mine => .pure managed .nil
  | cons name rest ih =>
      intro s success managed still distinct mine
      obtain ⟨absent, distinct⟩ := List.nodup_cons.mp distinct
      have owned := mine name List.mem_cons_self
      obtain ⟨owners, there, -⟩ := (managed.reach.registers.events.owned name a).mp owned
      have dropped : ∀ removed : Bool, removed = decide (owners.card = 1) →
          Manages base (do
            modify (·.dropEvent a name owners removed)
            removeEvents a rest success : M Bool) s (Returns fun done s' =>
              Removed (State.eventNames a) a (name :: rest) success s done s') := by
        intro removed last
        have act : Act (.cleaning a) s (s.dropEvent a name owners removed) :=
          .dropEvent a name owners removed still owned there last
        have clears := act.clears rfl rfl
        have others : ∀ other ∈ rest, other ∈ (s.dropEvent a name owners removed).eventsOf a :=
          fun other member => not_mem_erase_update.mpr
            ⟨fun same => absent (same ▸ member), mine other (List.mem_cons_of_mem _ member)⟩
        refine .modify ((ih success (managed.act act rfl) (clears.aside.still still) distinct
          others).mono fun outcome s' _ after => ?_)
        cases outcome with
        | error x => exact after
        | ok done =>
            refine Removed.step clears (fun other => ?_) after
            rw [State.eventNames, State.eventNames, Std.ExtTreeMap.mem_keys,
              Std.ExtTreeMap.mem_keys]
            exact not_mem_erase_update
      unfold removeEvents
      refine .get (.expected _ there (.ite (fun single => .host fun result =>
        .ite (fun _ => ?_) fun _ => dropped true (by simp [single])) fun many =>
          dropped false (by simp [many])))
      refine (ih false managed still distinct fun other member =>
        mine other (List.mem_cons_of_mem _ member)).mono fun outcome s' _ after => ?_
      cases outcome with
      | error x => exact after
      | ok done => exact after.kept

/-- The end of the loop over the providers that a script uses. -/
structure Released (a : Addr) (among : List Registration) (success : Bool) (s : State)
    (done : Bool) (s' : State) : Prop where
  clears : Clears a s s'
  fewer : s'.providersOf a ⊆ s.providersOf a
  gone : done = true → success = true ∧ ∀ r ∈ among, r ∉ s'.providersOf a

section Released

variable {a : Addr} {r : Registration} {rest : List Registration} {success done : Bool}

theorem Released.kept (first : Clears a s s') (same : s'.providersOf a = s.providersOf a)
    (after : Released a rest false s' done s'') :
    Released a (r :: rest) success s done s'' :=
  ⟨first.trans after.clears, same ▸ after.fewer, fun is => by cases (after.gone is).1⟩

theorem Released.step (first : Clears a s s')
    (drop : s'.providersOf a = (s.providersOf a).erase r)
    (after : Released a rest success s' done s'') :
    Released a (r :: rest) success s done s'' := by
  refine ⟨first.trans after.clears, fun other mine => ?_, fun is => ?_⟩
  · have before := after.fewer mine
    rw [drop] at before
    exact Finset.mem_of_mem_erase before
  · obtain ⟨fine, gone⟩ := after.gone is
    refine ⟨fine, List.forall_mem_cons.mpr ⟨fun mine => ?_, gone⟩⟩
    have before := after.fewer mine
    rw [drop] at before
    exact Finset.notMem_erase r _ before

end Released

theorem releaseProviders_manages {a : Addr} (among : List Registration) :
    ∀ {s : State} (success : Bool), Managed base s → s.Still a → among.Nodup →
      (∀ r ∈ among, r ∈ s.providersOf a) →
      Manages base (releaseProviders a among success) s (Returns fun done s' =>
        Released a among success s done s') := by
  induction among with
  | nil =>
      intro s success managed still distinct mine
      exact .pure managed ⟨Clears.refl a s, Finset.Subset.refl _, fun is => ⟨is, by simp⟩⟩
  | cons r rest ih =>
      intro s success managed still distinct mine
      obtain ⟨absent, distinct⟩ := List.nodup_cons.mp distinct
      have bound := mine r List.mem_cons_self
      obtain ⟨p, there⟩ := managed.reach.binds.known a r bound
      have later : ∀ other ∈ rest, other ∈ s.providersOf a :=
        fun other member => mine other (List.mem_cons_of_mem _ member)
      -- the loop goes on without success, perhaps after a note
      have failed : ∀ s' : State, Managed base s' → Clears a s s' →
          s'.providersOf a = s.providersOf a →
          Manages base (releaseProviders a rest false) s' (Returns fun done s'' =>
            Released a (r :: rest) success s done s'') := by
        intro s' managed' clears same
        refine (ih false managed' (clears.aside.still still) distinct
          (same.symm ▸ later)).mono fun outcome s'' _ after => ?_
        cases outcome with
        | error x => exact after
        | ok done => exact after.kept clears same
      have freed : ∀ (s' : State) (released : Bool), Managed base s' → Clears a s s' →
          s'.providersOf = s.providersOf → s'.providers[r]? = some p →
          s'.providerActive r = 0 →
          released = decide (s'.serviceUsers p.service p.version = 1) →
          Manages base (do
            modify (·.freeProvider a r p released)
            releaseProviders a rest success : M Bool) s' (Returns fun done s'' =>
              Released a (r :: rest) success s done s'') := by
        intro s' released managed' clears same there' inactive last
        have still' := clears.aside.still still
        have act : Act (.cleaning a) s' (s'.freeProvider a r p released) :=
          .freeProvider a r p released still' there' (same.symm ▸ bound) inactive last
        have both := clears.trans (act.clears rfl rfl)
        have erased : (s'.freeProvider a r p released).providersOf a =
            (s.providersOf a).erase r := by
          show Function.update s'.providersOf a _ a = _
          rw [Function.update_self, same]
        have others : ∀ other ∈ rest, other ∈ (s'.freeProvider a r p released).providersOf a := by
          intro other member
          rw [erased]
          exact Finset.mem_erase.mpr ⟨fun is => absent (is ▸ member), later other member⟩
        refine .modify ((ih success (managed'.act act rfl) (both.aside.still still) distinct
          others).mono fun outcome s'' _ after => ?_)
        cases outcome with
        | error x => exact after
        | ok done => exact after.step both erased
      unfold releaseProviders
      refine .get (.expected _ there (.ite (fun _ => failed s managed (Clears.refl a s) rfl)
        fun inactive => ?_))
      have inactive := not_not.mp inactive
      refine .ite (fun single => .modify (.host fun result => ?_)) fun many => ?_
      · rw [single]
        have act : Act .quiet s (s.note (.release p.service p.version 1)) :=
          .release p.service p.version single
        have managed' := managed.act act rfl
        have clears := (act.quietly managed.reach).clears a
        exact .ite (fun _ => failed _ managed' clears rfl) fun _ =>
          freed _ true managed' clears rfl there inactive (decide_eq_true single).symm
      · exact freed s false managed (Clears.refl a s) rfl there inactive (decide_eq_false many).symm

/-! ## Handles -/

/-- The values taken out of the table are destroyed, while others may act. -/
theorem retire_manages {a : Addr} {owner type : Nat} (managed : Managed base s)
    (act : Act (.cleaning a) s (s.detached (s.handles.retire owner type).2
      (s.handles.retire owner type).1)) :
    Manages base (retireHandles owner type) s (Returns fun _ s' => ∃ middle,
      middle = s.detached (s.handles.retire owner type).2 (s.handles.retire owner type).1 ∧
        Clears a s middle ∧ Clears a middle s') := by
  unfold retireHandles
  refine .get (.modify ?_)
  have managed' := managed.act act rfl
  refine (managed'.quiet (destroyAll_runs managed'.within _)).mono fun outcome s' _ after => ?_
  cases outcome with
  | error x => exact after
  | ok value => exact ⟨_, rfl, act.clears rfl rfl, after.1.clears a⟩

theorem owned_nil_retire (handles : Handles Resource) (owner : Nat) :
    (handles.retire owner 0).2.owned owner 0 = [] := by
  refine owned_eq_nil.mpr fun id b found mine => ?_
  rw [look_retire, Option.filter_eq_some_iff] at found
  simp [Binding.matches, mine] at found

/-! ## The stop of a script -/

theorem State.Still.retiring {a : Addr} (still : s.Still a) (reach : Reach s)
    (loaded : s.vm a = true) : s.state a = .retiring := by
  have alive : s.state a ≠ .disabled ∧ s.state a ≠ .failed := by
    constructor
    all_goals
      intro dead
      have unloaded := reach.living.dead a (by simp [dead])
      rw [loaded] at unloaded
      cases unloaded
  cases is : s.state a with
  | loading => exact absurd is still.loading
  | running => exact absurd is still.running
  | retiring => rfl
  | disabled => exact absurd is alive.1
  | failed => exact absurd is alive.2
  | paused => exact absurd is still.paused

/-- While a script is told to stop, the others are left aside. -/
theorem stop_aside {a : Addr} (retiring : s.state a = .retiring) (calls : s'.calls = s.calls)
    (quietly : Quietly (s.enter a .stop) s') : Aside a s s' where
  slots := quietly.slots
  preparing := quietly.preparing
  manifest := quietly.manifest
  owner := quietly.owner
  fresh := quietly.fresh
  vm := fun b _ => congrFun quietly.vm b
  state := quietly.state
  resting := by
    intro b idle down
    have active : s'.active = s.active := congrArg Calls.active calls
    refine ⟨(congrFun active b).trans idle, ?_⟩
    by_cases same : b = a
    · subst same
      cases quietly.state b with
      | inl is => exact is
      | inr is => exact is.trans retiring.symm
    · have idle' : (s.enter a .stop).active b = 0 := by
        show Function.update s.active a _ b = 0
        rw [Function.update_of_ne same]
        exact idle
      exact (quietly.resting b idle' down).2

theorem notifyStop_manages {a : Addr} (managed : Managed base s) (still : s.Still a) :
    Manages base (notifyStop a) s (Returns fun _ s' => Aside a s s' ∧ s'.vm = s.vm) := by
  have unchanged : Aside a s s ∧ s.vm = s.vm := ⟨Aside.refl a s, rfl⟩
  unfold notifyStop
  refine .get (.ite (fun told => ?_) fun _ => .pure managed unchanged)
  have loaded : s.vm a = true := (Bool.and_eq_true_iff.mp told).1
  have act : Act (.cleaning a) s (s.setStopNotified a) := .stopNotify a still
  have managed' := managed.act act rfl
  have noted := act.clears rfl rfl
  have still' := noted.aside.still still
  have retiring := still'.retiring managed'.reach loaded
  refine .modify (.reply fun r => .ite (fun _ => ?_) fun _ =>
    .pure managed' ⟨noted.aside, rfl⟩)
  refine Manages.returns (P := fun _ s' => Aside a s s' ∧ s'.vm = s.vm) ?_
    fun _ s' managed'' fine => .pure managed'' fine
  have enters : Act (.cleaning a) (s.setStopNotified a) ((s.setStopNotified a).enter a .stop) :=
    .enterStop a still' retiring loaded
  refine invoke_wp managed'.reach enters ?_
  intro r' s' reach calls quietly onward
  have during := quietly managed'.managing
  exact ⟨managed'.back reach calls (enters.onward.trans onward),
    noted.aside.trans (stop_aside retiring calls during), during.vm⟩

/-! ## The whole cleanup -/

/-- What a cleanup gave back, when it reports success. -/
structure GivenBack (a : Addr) (s : State) : Prop where
  convars : s.convarsOf a = ∅
  commands : s.commandsOf a = ∅
  events : s.eventsOf a = ∅
  providers : s.providersOf a = ∅

theorem GivenBack.kept {a : Addr} (given : GivenBack a s) (clears : Clears a s s')
    (still : s.Still a) : GivenBack a s' where
  convars := (clears.fades still).convars given.convars
  commands := (clears.fades still).commands given.commands
  events := (clears.fades still).events given.events
  providers := (clears.fades still).providers given.providers

theorem empty_of_removed {T : Type} {table left : Std.ExtTreeMap String T}
    (fewer : ∀ name ∈ left.keys, name ∈ table.keys)
    (gone : ∀ name ∈ table.keys, name ∉ left.keys) : left = ∅ := by
  refine Tables.eq_empty_iff.mpr fun name mine => ?_
  have key := Std.ExtTreeMap.mem_keys.mpr mine
  exact gone name (fewer name key) key

theorem releaseOwned_manages {a : Addr} (managed : Managed base s) (still : s.Still a)
    (success : Bool)
    (dark : ∀ (slot : Int) (d : Display), s.displays[slot]? = some d → d.script ≠ a) :
    Manages base (releaseOwned a success) s (Returns fun done s' => Clears a s s' ∧
      s'.handles.owned (s'.owner a) 0 = [] ∧
        (done = true → success = true ∧ GivenBack a s')) := by
  unfold releaseOwned
  refine .get (Manages.returns (closeConVars_manages _ success managed still) ?_)
  intro closed s1 managed1 step1
  have still1 := step1.clears.aside.still still
  refine .get (Manages.returns (removeCommands_manages _ closed managed1 still1
    Std.ExtTreeMap.nodup_keys fun name => Std.ExtTreeMap.mem_keys.mp) ?_)
  intro removed s2 managed2 step2
  have still2 := step2.clears.aside.still still1
  refine .get (Manages.returns (removeEvents_manages _ removed managed2 still2
    Std.ExtTreeMap.nodup_keys fun name => Std.ExtTreeMap.mem_keys.mp) ?_)
  intro silent s3 managed3 step3
  have still3 := step3.clears.aside.still still2
  refine .get (Manages.returns (retire_manages managed3 (.retireResources a still3)) ?_)
  intro _ s4 managed4 step4
  obtain ⟨middle, -, clears, clears'⟩ := step4
  have step4 := clears.trans clears'
  have still4 := step4.aside.still still3
  refine .get (Manages.returns (releaseProviders_manages _ silent managed4 still4
    (Finset.sort_nodup ..) fun r => (Finset.mem_sort _).mp) ?_)
  intro released s5 managed5 step5
  have still5 := step5.clears.aside.still still4
  have sweep : Act (.cleaning a) s5 (s5.sweep a) := .sweep a still5
  have step6 := sweep.clears rfl rfl
  have still6 := step6.aside.still still5
  have swept : (s5.sweep a).swept a = true := Function.update_self ..
  have before := step1.clears.trans (step2.clears.trans (step3.clears.trans (step4.trans
    (step5.clears.trans step6))))
  refine .modify (.get (Manages.returns (retire_manages (managed5.act sweep rfl)
    (.retireRest a still6 swept ((before.fades still).displays dark))) ?_))
  intro _ s7 managed7 step7
  obtain ⟨middle, rfl, clears, clears'⟩ := step7
  have empty := owned_nil_retire (s5.sweep a).handles ((s5.sweep a).owner a)
  -- what each step has taken away stays away until the end
  have from5 := step6.trans (clears.trans clears')
  have from3 := step4.trans (step5.clears.trans from5)
  have from2 := step3.clears.trans from3
  have from1 := step2.clears.trans from2
  refine .pure managed7 ⟨step1.clears.trans from1, ?_, fun is => ?_⟩
  · exact (clears'.fades (clears.aside.still still6)).handles empty
  · obtain ⟨is, unbound⟩ := step5.gone is
    obtain ⟨is, unheard⟩ := step3.gone is
    obtain ⟨is, unnamed⟩ := step2.gone is
    obtain ⟨is, unset⟩ := step1.gone is
    refine ⟨is, ?_, ?_, ?_, ?_⟩
    · exact (from1.fades still1).convars (empty_of_removed step1.fewer unset)
    · exact (from2.fades still2).commands (empty_of_removed step2.fewer unnamed)
    · exact (from3.fades still3).events (empty_of_removed step3.fewer unheard)
    · refine (from5.fades still5).providers (Finset.eq_empty_of_forall_notMem fun r mine => ?_)
      exact unbound r ((Finset.mem_sort _).mpr (step5.fewer mine)) mine

/-- The cleanup of a script that is given up never raises, and leaves the others aside. -/
theorem cleanup_manages {a : Addr} (managed : Managed base s) (loading : s.state a ≠ .loading)
    (running : s.state a ≠ .running) (paused : s.state a ≠ .paused) :
    Manages base (cleanup a) s (Returns fun done s' => Aside a s s' ∧
      (done = true → s'.vm a = false)) := by
  unfold cleanup
  have begins : Act .managing s (s.beginCleanup a) := .beginCleanup a loading running paused
  have managed0 := managed.act begins rfl
  have aside0 : Aside a s (s.beginCleanup a) := ⟨rfl, rfl, rfl, rfl, rfl, fun _ _ => rfl,
    fun _ => Or.inl rfl, fun _ idle _ => ⟨idle, rfl⟩⟩
  refine .modify (.get (.ite (fun _ => .pure managed0 ⟨aside0, by simp⟩) fun idle => ?_))
  have still0 : (s.beginCleanup a).Still a := ⟨not_not.mp idle, loading, running, paused⟩
  refine Manages.returns (notifyStop_manages managed0 still0) fun _ s1 managed1 step1 => ?_
  have still1 := step1.1.still still0
  have drops : Act (.cleaning a) s1 (s1.dropCallbacks a) := .dropCallbacks a still1
  have managed2 := managed1.act drops rfl
  have step2 := drops.clears rfl rfl
  have still2 := step2.aside.still still1
  have uncalled : (s1.dropCallbacks a).callbacksOf a = ∅ := Function.update_self ..
  refine .modify (Manages.returns (managed2.quiet (clearMenus_runs managed2.within a)) ?_)
  intro cleared s3 managed3 step3
  have clears3 := step3.1.clears a
  have still3 := clears3.aside.still still2
  have aside3 := (aside0.trans step1.1).trans (step2.aside.trans clears3.aside)
  refine .ite (fun _ => .pure managed3 ⟨aside3, by simp⟩) fun cleared => ?_
  have dark := step3.2.2 (by simpa using cleared)
  have ungags : Act .quiet s3 { s3 with gagsOf := Function.update s3.gagsOf a ∅ } := .clearGags a
  have managed4 := managed3.act ungags rfl
  have clears4 := (ungags.quietly managed3.reach).clears a
  have ungagged : ({ s3 with gagsOf := Function.update s3.gagsOf a ∅ } : State).gagsOf a = ∅ :=
    Function.update_self ..
  have still4 := clears4.aside.still still3
  refine .modify (.get (Manages.returns
    (managed4.quiet (voiceCall_runs managed4.within _)) ?_))
  intro released s5 managed5 step5
  have clears5 := step5.1.clears a
  have still5 := clears5.aside.still still4
  refine Manages.returns (releaseOwned_manages managed5 still5 released
    (((clears4.trans clears5).fades still3).displays dark)) fun done s6 managed6 step6 => ?_
  have still6 := step6.1.aside.still still5
  have from4 := clears5.trans step6.1
  have from2 := clears3.trans (clears4.trans from4)
  have aside6 := (aside0.trans step1.1).trans (step2.aside.trans from2.aside)
  refine .ite (fun _ => .pure managed6 ⟨aside6, by simp⟩) fun is => ?_
  obtain ⟨-, given⟩ := step6.2.2 (by simpa using is)
  have bare : s6.Bare a :=
    { inactive := still6.inactive
      commands := given.commands
      events := given.events
      convars := given.convars
      providers := given.providers
      callbacks := (from2.fades still2).callbacks uncalled
      gags := (from4.fades still4).gags ungagged
      handles := step6.2.1 }
  have unloads : Act (.cleaning a) s6 (s6.resetVm a) := .resetVm a still6 bare
  have others : Aside a s6 (s6.resetVm a) := ⟨rfl, rfl, rfl, rfl, rfl,
    fun b apart => Function.update_of_ne apart .., fun _ => Or.inl rfl, fun _ idle _ => ⟨idle, rfl⟩⟩
  refine .modify (.pure (managed6.act unloads rfl) ⟨aside6.trans others, fun _ => ?_⟩)
  exact Function.update_self ..

end Source2Root.Foundation
