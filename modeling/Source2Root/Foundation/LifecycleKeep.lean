import Source2Root.Foundation.CleanupKeep

/-!
# Plugin management keeps to the single changes

Loading, unloading, replacing and pausing scripts, discovering them, and shutting
down: each of them ends without a candidate under way, whether it raises or not.
-/

set_option autoImplicit false

namespace Source2Root.Foundation

open Reentrant Handles

variable {base s s' s'' : State}

/-! ## Rules -/

/-- The operation ends with no candidate under way. -/
abbrev Settles {α : Type} (base : State) (m : M α) (s : State) : Prop :=
  Manages base m s fun _ s' => s'.preparing = none

section Rules

variable {α β : Type} {Q : Except Raised α → State → Prop} {Q' : Except Raised β → State → Prop}

theorem Manages.handle {m : M α} {h : Raised → M α} {Q'' : Except Raised α → State → Prop}
    (first : Manages base m s Q)
    (returns : ∀ value s', Managed base s' → Q (.ok value) s' → Q'' (.ok value) s')
    (handler : ∀ x s', Managed base s' → Q (.error x) s' → Manages base (h x) s' Q'') :
    Manages base (tryCatch m h) s Q'' := by
  refine wp_tryCatch.mpr (Tree.Wp.mono first fun outcome s' fine => ?_)
  cases outcome with
  | ok value => exact ⟨fine.1, returns value s' fine.1 fine.2⟩
  | error x => exact handler x s' fine.1 fine.2

theorem Manages.raise (managed : Managed base s) (x : Raised) {f : α → M β}
    (fails : Q' (.error x) s) : Manages base (MonadExcept.throw x >>= f) s Q' := ⟨managed, fails⟩

/-- Nothing but the candidate decides what follows. -/
theorem Settles.bind {m : M α} {f : α → M β} (first : Settles base m s)
    (rest : ∀ value s', Managed base s' → s'.preparing = none → Settles base (f value) s') :
    Settles base (m >>= f) s := Manages.bind first rest fun _ _ _ settled => settled

theorem Manages.settles {m : M α} {P : α → State → Prop} (manages : Manages base m s (Returns P))
    (settled : ∀ value s', P value s' → s'.preparing = none) : Settles base m s := by
  refine manages.mono fun outcome s' _ fine => ?_
  cases outcome with
  | ok value => exact settled value s' fine
  | error x => exact fine.elim

end Rules

theorem Manages.forM {A : Type} {R : State → Prop} (f : A → M Unit) (xs : List A)
    (each : ∀ x ∈ xs, ∀ s, Managed base s → R s → Manages base (f x) s fun _ s' => R s') :
    ∀ {s : State}, Managed base s → R s → Manages base (xs.forM f) s fun _ s' => R s' := by
  induction xs with
  | nil => exact fun managed holds => .pure managed holds
  | cons x rest ih =>
      intro s managed holds
      show Manages base (f x >>= fun _ => rest.forM f) s _
      exact Manages.bind (each x List.mem_cons_self s managed holds)
        (fun _ s' managed' holds' =>
          ih (fun y member => each y (List.mem_cons_of_mem _ member)) managed' holds')
        fun _ _ _ holds' => holds'

theorem Settles.foldlM {A B : Type} (f : B → A → M B) (xs : List A)
    (each : ∀ x ∈ xs, ∀ b s, Managed base s → s.preparing = none → Settles base (f b x) s) :
    ∀ b {s : State}, Managed base s → s.preparing = none → Settles base (xs.foldlM f b) s := by
  induction xs with
  | nil => exact fun b _ managed settled => .pure managed settled
  | cons x rest ih =>
      intro b s managed settled
      rw [List.foldlM_cons]
      exact (each x List.mem_cons_self b s managed settled).bind fun b' s' managed' settled' =>
        ih (fun y member => each y (List.mem_cons_of_mem _ member)) b' managed' settled'

/-! ## What a management operation leaves alone -/

/-- Only tables, handles and services changed. -/
structure Unmoved (s s' : State) : Prop where
  slots : s'.slots = s.slots
  preparing : s'.preparing = s.preparing
  manifest : s'.manifest = s.manifest
  state : s'.state = s.state
  vm : s'.vm = s.vm
  active : s'.active = s.active

theorem Unmoved.refl (s : State) : Unmoved s s := ⟨rfl, rfl, rfl, rfl, rfl, rfl⟩

theorem Unmoved.trans (first : Unmoved s s') (second : Unmoved s' s'') : Unmoved s s'' where
  slots := second.slots.trans first.slots
  preparing := second.preparing.trans first.preparing
  manifest := second.manifest.trans first.manifest
  state := second.state.trans first.state
  vm := second.vm.trans first.vm
  active := second.active.trans first.active

/-- The slots are left alone, and so is every other script that rests. -/
structure Apart (a : Addr) (s s' : State) : Prop where
  slots : s'.slots = s.slots
  manifest : ∀ b, b ≠ a → s'.manifest b = s.manifest b
  resting : ∀ b, b ≠ a → s.active b = 0 → s.state b ≠ .running →
    s'.active b = 0 ∧ s'.state b = s.state b

section Apart

variable {a : Addr}

theorem Apart.trans (first : Apart a s s') (second : Apart a s' s'') : Apart a s s'' where
  slots := second.slots.trans first.slots
  manifest := fun b apart => (second.manifest b apart).trans (first.manifest b apart)
  resting := by
    intro b apart idle down
    obtain ⟨idle', same⟩ := first.resting b apart idle down
    obtain ⟨idle'', same'⟩ := second.resting b apart idle' (same ▸ down)
    exact ⟨idle'', same'.trans same⟩

theorem Unmoved.apart (unmoved : Unmoved s s') : Apart a s s' where
  slots := unmoved.slots
  manifest := fun b _ => congrFun unmoved.manifest b
  resting := fun b _ idle _ =>
    ⟨(congrFun unmoved.active b).trans idle, congrFun unmoved.state b⟩

theorem Aside.apart (aside : Aside a s s') : Apart a s s' where
  slots := aside.slots
  manifest := fun b _ => congrFun aside.manifest b
  resting := fun b _ => aside.resting b

/-- The script itself goes to another state. -/
theorem apart_setState (s : State) (a : Addr) (state : PluginState) :
    Apart a s (s.setState a state) where
  slots := rfl
  manifest := fun _ _ => rfl
  resting := fun _ apart idle _ => ⟨idle, Function.update_of_ne apart ..⟩

end Apart

/-! ## Preparing a script -/

theorem bindProviders_manages {a : Addr} (among : List Registration) :
    ∀ {s : State}, Managed base s → s.preparing = some a → s.state a = .loading →
      s.vm a = true → among.Nodup →
      (∀ r ∈ among, r ∉ s.providersOf a ∧ ∃ p, s.providers[r]? = some p) →
      Manages base (bindProviders a among) s fun _ s' => Unmoved s s' := by
  induction among with
  | nil => exact fun managed _ _ _ _ _ => .pure managed (Unmoved.refl _)
  | cons r rest ih =>
      intro s managed candidate loading loaded distinct known
      obtain ⟨absent, distinct⟩ := List.nodup_cons.mp distinct
      obtain ⟨unbound, p, there⟩ := known r List.mem_cons_self
      have later : ∀ other ∈ rest, other ∉ s.providersOf a ∧ ∃ p, s.providers[other]? = some p :=
        fun other member => known other (List.mem_cons_of_mem _ member)
      -- the script uses the native, perhaps after the provider was acquired
      have bound : ∀ (s' : State) (acquired : Bool), Managed base s' → Unmoved s s' →
          s'.providersOf = s.providersOf → s'.providers = s.providers →
          acquired = decide (s'.serviceUsers p.service p.version = 0) →
          Manages base (do
            modify (·.bindProvider a r p acquired)
            if !(← reply).flag then throw .runtimeError
            bindProviders a rest) s' fun _ s'' => Unmoved s s'' := by
        intro s' acquired managed' unmoved same table first
        have act : Act .managing s' (s'.bindProvider a r p acquired) :=
          .bindProvider a r p acquired (unmoved.preparing.trans candidate)
            ((congrFun unmoved.state a).trans loading) ((congrFun unmoved.vm a).trans loaded)
            (table ▸ there) (same ▸ unbound) first
        have binds : Unmoved s (s'.bindProvider a r p acquired) :=
          unmoved.trans ⟨rfl, rfl, rfl, rfl, rfl, rfl⟩
        have managed'' := managed'.act act rfl
        refine .modify (.reply fun answer => .ite (fun _ => .raise managed'' _ binds) fun _ => ?_)
        refine (ih managed'' (binds.preparing.trans candidate)
          ((congrFun binds.state a).trans loading) ((congrFun binds.vm a).trans loaded) distinct
          fun other member => ⟨fun mine => ?_, ?_⟩).mono fun _ _ _ after => binds.trans after
        swap
        · show ∃ q, (s'.providers.insert r _)[other]? = some q
          rw [Tables.getElem?_insert, table]
          split
          · exact ⟨_, rfl⟩
          · exact (later other member).2
        have cases_other : other ∈ insert r (s.providersOf a) := by
          have mine : other ∈ Function.update s'.providersOf a _ a := mine
          rw [Function.update_self, same] at mine
          exact mine
        cases Finset.mem_insert.mp cases_other with
        | inl is => exact absent (is ▸ member)
        | inr before => exact (later other member).1 before
      unfold bindProviders
      refine .reply fun answer => .ite (fun _ => .get (.expected _ there
        (.ite (fun unused => ?_) fun many => ?_)))
        fun _ => ih managed candidate loading loaded distinct later
      · refine Manages.returns (managed.quiet
          (acquireProvider_runs managed.within rfl unused)) fun result s' managed' after => ?_
        obtain ⟨-, rfl⟩ := after
        have noted : Unmoved s (s.note (.acquire p.service p.version 0)) :=
          ⟨rfl, rfl, rfl, rfl, rfl, rfl⟩
        exact .ite (fun _ => .raise managed' _ noted) fun _ =>
          bound _ true managed' noted rfl rfl (decide_eq_true unused).symm
      · exact bound s false managed (Unmoved.refl s) rfl rfl (decide_eq_false many).symm

/-- The candidate is under way, and nobody else has moved. -/
structure Begun (a : Addr) (s s' : State) : Prop where
  apart : Apart a s s'
  preparing : s'.preparing = s.preparing
  manifest : s'.manifest = s.manifest

section Begun

variable {a : Addr}

theorem Begun.trans (first : Begun a s s') (second : Begun a s' s'') : Begun a s s'' :=
  ⟨first.apart.trans second.apart, second.preparing.trans first.preparing,
    second.manifest.trans first.manifest⟩

theorem Unmoved.begun (unmoved : Unmoved s s') : Begun a s s' :=
  ⟨unmoved.apart, unmoved.preparing, unmoved.manifest⟩

theorem Aside.begun (aside : Aside a s s') : Begun a s s' :=
  ⟨aside.apart, aside.preparing, aside.manifest⟩

theorem begun_setState (s : State) (a : Addr) (state : PluginState) :
    Begun a s (s.setState a state) := ⟨apart_setState s a state, rfl, rfl⟩

/-- While `OnPluginStart` runs, the others that rest are left alone. -/
theorem begun_start {reason : Reason} (calls : s'.calls = s.calls)
    (quietly : Quietly (s.enter a reason) s') : Begun a s s' where
  apart :=
    { slots := quietly.slots
      manifest := fun b _ => congrFun quietly.manifest b
      resting := by
        intro b apart idle down
        have idle' : (s.enter a reason).active b = 0 := by
          show Function.update s.active a _ b = 0
          rw [Function.update_of_ne apart]
          exact idle
        have active : s'.active = s.active := congrArg Calls.active calls
        exact ⟨(congrFun active b).trans idle, (quietly.resting b idle' down).2⟩ }
  preparing := quietly.preparing
  manifest := quietly.manifest

theorem startCandidate_manages (managed : Managed base s) (candidate : s.preparing = some a)
    (loading : s.state a = .loading) (unloaded : s.vm a = false) (unbound : s.providersOf a = ∅) :
    Manages base (startCandidate a) s fun outcome s' => Begun a s s' ∧
      (outcome = .ok () → s'.vm a = true) := by
  unfold startCandidate
  have loads : Act .managing s (s.loadVm a) := .loadVm a candidate loading unloaded
  have managed1 := managed.act loads rfl
  have begun1 : Begun a s (s.loadVm a) :=
    ⟨⟨rfl, fun _ _ => rfl, fun _ _ idle _ => ⟨idle, rfl⟩⟩, rfl, rfl⟩
  have loaded : (s.loadVm a).vm a = true := Function.update_self ..
  refine .reply fun r => .ite (fun _ => .raise managed _ ⟨(Unmoved.refl s).begun, by simp⟩) fun _ =>
    .modify (.reply fun r => .ite (fun _ => .raise managed1 _ ⟨begun1, by simp⟩) fun _ =>
      .get (Manages.bind (bindProviders_manages _ managed1 candidate loading loaded
        Std.ExtTreeMap.nodup_keys fun r member => ⟨fun mine => ?_, ?_⟩)
        (fun _ s2 managed2 unmoved => ?_)
        fun _ s2 _ unmoved => ⟨begun1.trans unmoved.begun, by simp⟩))
  · have mine : r ∈ s.providersOf a := mine
    rw [unbound] at mine
    exact Finset.notMem_empty r mine
  · exact Tables.mem_iff.mp (Std.ExtTreeMap.mem_keys.mp member)
  · have begun2 := begun1.trans unmoved.begun
    refine .reply fun r => .ite (fun _ => .raise managed2 _ ⟨begun2, by simp⟩) fun _ => ?_
    have enters : Act .managing s2 (s2.enter a .start) :=
      .enterStart a (unmoved.preparing.trans candidate) ((congrFun unmoved.state a).trans loading)
        ((congrFun unmoved.vm a).trans loaded)
    refine Manages.returns (P := fun _ s3 => Begun a s s3 ∧ s3.vm a = true) ?_
      fun result s3 managed3 started => ?_
    · refine invoke_wp managed2.reach enters fun r s3 reach calls quietly onward => ?_
      have during := quietly managed2.managing
      have still_loaded : s3.vm a = true :=
        (congrFun during.vm a).trans ((congrFun unmoved.vm a).trans loaded)
      exact ⟨managed2.back reach calls (enters.onward.trans onward),
        begun2.trans (begun_start calls during), still_loaded⟩
    · exact .ite (fun _ => .throw managed3 _ ⟨started.1, by simp⟩) fun _ =>
        .pure managed3 ⟨started.1, fun _ => started.2⟩

end Begun

theorem Managed.active (managed : Managed base s) (managed' : Managed base s') :
    s'.active = s.active := congrArg Calls.active (managed'.calls.trans managed.calls.symm)

theorem readManifest_manages (managed : Managed base s) (path : Path) :
    Manages base (readManifest path) s fun outcome s' => s' = s ∧
      ∀ m, outcome = .ok m → m.accepted path = true := by
  unfold readManifest
  refine .reply fun r => ?_
  cases r.manifest with
  | none => exact .throw managed _ ⟨rfl, by simp⟩
  | some m =>
      refine .ite (fun accepted => .pure managed ⟨rfl, ?_⟩) fun _ => .throw managed _ ⟨rfl, by simp⟩
      intro other is
      cases is
      exact accepted

/-- The slot that a load may fill stays so, whatever the candidate does. -/
theorem Apart.replaceable {a : Addr} (reach : Reach s) (apart : Apart a s s')
    (nowhere : ∀ id, a ∉ scriptsAt s.slots id) {id : String} (was : s.replaceable id = true) :
    s'.replaceable id = true := by
  unfold State.replaceable at was ⊢
  rw [apart.slots]
  cases there : s.slots[id]? with
  | none => rfl
  | some slot =>
      rw [there] at was
      have dead : s.state slot.current = .disabled ∨ s.state slot.current = .failed := by
        simpa using was
      have idle := reach.living.idle _ (reach.living.dead _ dead)
      have other : slot.current ≠ a := by
        intro is
        exact nowhere id (mem_scriptsAt.mpr ⟨slot, there, is ▸ List.mem_cons_self ..⟩)
      have down : s.state slot.current ≠ .running := by
        cases dead with
        | inl is => simp [is]
        | inr is => simp [is]
      have same := (apart.resting _ other idle down).2
      simpa [same] using was

/-- The candidate that `Prepare` returns. -/
structure Prepared (replacement : Bool) (s s' : State) (a : Addr) : Prop where
  candidate : s'.preparing = some a
  apart : Apart a s s'
  inactive : s'.active a = 0
  loaded : s'.state a = .loading → s'.vm a = true
  replaceable : replacement = false → s'.replaceable (s'.manifest a).id = true

theorem prepare_idle (reach : Reach s) : s.active s.fresh = 0 :=
  reach.living.idle _ (reach.living.unborn _ (le_refl _))

theorem calls_born (reach : Reach s) :
    ({ s.calls with active := Function.update s.active s.fresh 0 } : Calls) = s.calls := by
  have same : Function.update s.active s.fresh 0 = s.active := by
    rw [← prepare_idle reach, Function.update_eq_self]
  rw [same]
  rfl

theorem prepare_apart (m : Manifest) (path : Path) : Apart s.fresh s (s.prepare m path) where
  slots := rfl
  manifest := fun _ apart => Function.update_of_ne apart ..
  resting := fun _ apart idle _ =>
    ⟨(Function.update_of_ne apart ..).trans idle, Function.update_of_ne apart ..⟩

theorem prepare_manages (managed : Managed base s) (settled : s.preparing = none) (path : Path)
    (replacement : Bool) :
    Manages base (prepare path replacement) s fun outcome s' =>
      (∀ a, outcome = .ok a → Prepared replacement s s' a) ∧
        (∀ x, outcome = .error x → s'.preparing = none) := by
  unfold prepare
  have raised : (∀ a, (.error .runtimeError : Except Raised Addr) = .ok a →
      Prepared replacement s s a) ∧ (∀ x, (.error .runtimeError : Except Raised Addr) = .error x →
        s.preparing = none) := ⟨fun _ is => (by cases is), fun _ _ => settled⟩
  refine Manages.bind (readManifest_manages managed path) (fun m s' managed' read => ?_)
    fun x s' _ read => ⟨fun _ is => (by cases is), fun _ _ => read.1 ▸ settled⟩
  obtain ⟨rfl, accepted⟩ := read
  refine .get (.ite (fun _ => .raise managed' _ raised) fun replaceable =>
    .ite (fun _ => .raise managed' _ raised) fun _ =>
      .ite (fun _ => .raise managed' _ raised) fun owners => .modify ?_)
  have prepares : Act .managing s' (s'.prepare m path) :=
    .prepare m path managed'.managing settled owners (accepted m rfl)
  have managed1 := managed'.act prepares (calls_born managed'.reach)
  have apart1 := prepare_apart (s := s') m path
  have inactive : ∀ {t : State}, Managed base t → t.active s'.fresh = 0 := fun managed2 =>
    (congrFun (managed'.active managed2) _).trans (prepare_idle managed'.reach)
  -- a candidate that could not be started is cleaned up
  refine Manages.returns (P := fun _ t => Begun s'.fresh (s'.prepare m path) t ∧
    (t.state s'.fresh = .loading → t.vm s'.fresh = true)) ?_ fun _ t managed2 ready => ?_
  · refine Manages.handle (startCandidate_manages managed1 rfl (Function.update_self ..)
      (Function.update_self ..) (Function.update_self ..))
      (fun _ t _ started => ⟨started.1, fun _ => started.2 rfl⟩) fun _ t managed2 started => ?_
    have candidate := started.1.preparing
    have gives_up : Act .managing t ((t.setState s'.fresh .retiring).setStopNotified s'.fresh) :=
      .giveUp s'.fresh candidate (inactive managed2)
    have managed3 := managed2.act gives_up rfl
    have begun3 : Begun s'.fresh (s'.prepare m path)
        ((t.setState s'.fresh .retiring).setStopNotified s'.fresh) :=
      started.1.trans ⟨⟨rfl, fun _ _ => rfl,
        fun _ apart idle _ => ⟨idle, Function.update_of_ne apart ..⟩⟩, rfl, rfl⟩
    have retiring : ((t.setState s'.fresh .retiring).setStopNotified s'.fresh).state s'.fresh =
        .retiring := Function.update_self ..
    refine .modify (Manages.returns (cleanup_manages managed3 (by simp [retiring])
      (by simp [retiring]) (by simp [retiring])) fun done u managed4 cleaned => ?_)
    have begun4 := begun3.trans cleaned.1.begun
    have resting := (cleaned.1.resting s'.fresh (inactive managed3) (by simp [retiring])).2
    refine .ite (fun is => ?_) fun _ => .pure managed4 ⟨begun4, fun loading => ?_⟩
    · have fails : Act .managing u (u.setState s'.fresh .failed) :=
        .failCandidate s'.fresh begun4.preparing (cleaned.2 is)
      have failed : (u.setState s'.fresh .failed).state s'.fresh = .failed :=
        Function.update_self ..
      refine ⟨managed4.act fails rfl, begun4.trans (begun_setState u _ _), fun loading => ?_⟩
      rw [failed] at loading
      cases loading
    · rw [resting, retiring] at loading
      cases loading
  · refine .pure managed2 ⟨fun a is => ?_, fun _ is => by cases is⟩
    cases is
    have apart2 := apart1.trans ready.1.apart
    have nowhere : ∀ id, s'.fresh ∉ scriptsAt s'.slots id := fun id member =>
      absurd (managed'.reach.slotted.born id _ member) (lt_irrefl _)
    refine ⟨ready.1.preparing, apart2, inactive managed2, ready.2, fun fresh => ?_⟩
    have named : t.manifest s'.fresh = m :=
      (congrFun ready.1.manifest _).trans (Function.update_self ..)
    rw [named]
    refine apart2.replaceable managed'.reach nowhere ?_
    simpa [fresh] using replaceable

/-! ## Loading -/

theorem loadFresh_settles (managed : Managed base s) (settled : s.preparing = none) (path : Path) :
    Settles base (loadFresh path) s := by
  unfold loadFresh
  refine Manages.bind (prepare_manages managed settled path false)
    (fun a s' managed' prepared => ?_) fun x s' _ prepared => prepared.2 x rfl
  have prepared := prepared.1 a rfl
  have places : Act .managing s' (s'.place a (s'.state a == .loading)) :=
    .place a _ prepared.candidate prepared.inactive (prepared.replaceable rfl)
      (fun is => prepared.loaded (eq_of_beq is)) (beq_eq_decide ..)
  exact .get (.modify (.pure (managed'.act places rfl) rfl))

/-- What the record of a file is made from names the file. -/
theorem recorded_named (found : Option Manifest) (path : Path) {other : Manifest}
    (named : other.id = path.directory) :
    ((found.filter (·.accepted path)).getD other).id = path.directory := by
  cases is : found.filter (·.accepted path) with
  | none => exact named
  | some m =>
      have accepted := (Option.filter_eq_some_iff.mp is).2
      rw [Manifest.accepted, Bool.and_eq_true, Bool.and_eq_true] at accepted
      exact (eq_of_beq accepted.1.2).symm

theorem recordFailure_settles (managed : Managed base s) (settled : s.preparing = none)
    (path : Path) :
    Manages base (recordFailure path) s (Returns fun _ s' => s'.preparing = none) := by
  unfold recordFailure
  refine .ite (fun _ => .pure managed settled) fun _ => .reply fun r => .get ?_
  cases there : s.slots[path.directory]? with
  | none =>
      have act : Act .managing s (s.placeRecord path.directory
          ((r.manifest.filter (·.accepted path)).getD { id := path.directory }) path .failed) :=
        .placeRecord _ _ path .failed managed.managing (recorded_named _ path rfl) there
          (Or.inl rfl)
      exact ⟨managed.act act (calls_born managed.reach), settled⟩
  | some slot =>
      refine .ite (fun _ => .pure managed settled) fun free => ?_
      have free : s.vm slot.current = false ∧ slot.replacement = none := by
        simpa using free
      have act : Act .managing s (s.rewriteRecord slot.current
          ((r.manifest.filter (·.accepted path)).getD
            { s.manifest slot.current with id := path.directory }) path) :=
        .rewriteRecord path.directory slot _ path managed.managing there (recorded_named _ path rfl)
          free.1 free.2
      exact ⟨managed.act act rfl, settled⟩

theorem loadScript_settles (managed : Managed base s) (settled : s.preparing = none) (path : Path) :
    Settles base (loadScript path) s := by
  refine Manages.handle (loadFresh_settles managed settled path) (fun _ _ _ settled => settled)
    fun x s' managed' settled' => ?_
  exact Manages.returns (recordFailure_settles managed' settled' path)
    fun _ s'' managed'' settled'' => .pure managed'' settled''

/-! ## Unloading -/

/-- A script with a place is given up and cleaned up. -/
theorem retire_cleanup {a : Addr} (managed : Managed base s) (placed : s.Placed a) :
    Manages base (cleanup a) (s.setState a .retiring) (Returns fun done s' => Begun a s s' ∧
      (done = true → s'.vm a = false)) := by
  have act : Act .managing s (s.setState a .retiring) := .retire a managed.managing placed
  have retiring : (s.setState a .retiring).state a = .retiring := Function.update_self ..
  refine (cleanup_manages (managed.act act rfl) (by simp [retiring]) (by simp [retiring])
    (by simp [retiring])).mono fun outcome s' _ cleaned => ?_
  cases outcome with
  | error x => exact cleaned
  | ok done => exact ⟨(begun_setState s a _).trans cleaned.1.begun, cleaned.2⟩

theorem unloadCurrent_settles (managed : Managed base s) (settled : s.preparing = none)
    {id : String} {slot : Slot} (there : s.slots[id]? = some slot) :
    Settles base (unloadCurrent id) s := by
  unfold unloadCurrent
  refine .get (.expected _ there (.modify ?_))
  refine Manages.returns (retire_cleanup managed
    ⟨id, slot, there, List.mem_cons_self ..⟩) fun done s' managed' cleaned => ?_
  have settled' := cleaned.1.preparing.trans settled
  refine .ite (fun _ => .pure managed' settled') fun is => ?_
  have current : s'.Current slot.current := ⟨id, slot, cleaned.1.apart.slots ▸ there, rfl⟩
  have act : Act .managing s' (s'.setState slot.current .disabled) :=
    .disable _ managed'.managing current (cleaned.2 (by simpa using is))
  exact .modify (.pure (managed'.act act rfl) settled')

theorem unloadScript_settles (managed : Managed base s) (settled : s.preparing = none)
    (id : String) : Settles base (unloadScript id) s := by
  unfold unloadScript
  refine .get ?_
  cases there : s.slots[id]? with
  | none => exact .pure managed settled
  | some slot =>
      refine .ite (fun _ => .pure managed settled) fun _ => ?_
      cases staged : slot.replacement with
      | none => exact unloadCurrent_settles managed settled there
      | some b =>
          refine .modify (Manages.returns (retire_cleanup managed
            ⟨id, slot, there, Slot.staged_mem staged⟩) fun done s' managed' cleaned => ?_)
          have settled' := cleaned.1.preparing.trans settled
          refine .ite (fun _ => .pure managed' settled') fun is => .modify ?_
          have act : Act .managing s' (s'.setSlot id { slot with replacement := none }) :=
            .dropReplacement id slot b managed'.managing (cleaned.1.apart.slots ▸ there) staged
              (cleaned.2 (by simpa using is))
          have filed : (s'.slots.insert id { slot with replacement := none })[id]? =
              some { slot with replacement := none } := by
            rw [Tables.getElem?_insert, if_pos rfl]
          exact unloadCurrent_settles (managed'.act act rfl) settled' filed

/-- A plugin that was known is known from then on. -/
theorem Act.slots_kept {k : Kind} (act : Act k s s') {id : String}
    (known : ∃ slot, s.slots[id]? = some slot) : ∃ slot, s'.slots[id]? = some slot := by
  have put : ∀ (other : String) (slot : Slot), ∃ slot', (s.slots.insert other slot)[id]? =
      some slot' := by
    intro other slot
    rw [Tables.getElem?_insert]
    split
    · exact ⟨slot, rfl⟩
    · exact known
  cases act with
  | place => exact put _ _
  | placeRecord => exact put _ _
  | dropReplacement => exact put _ _
  | replacementState => exact put _ _
  | stage => exact put _ _
  | swap => exact put _ _
  | _ => exact known

theorem Onward.slots_kept (onward : Onward s s') {id : String}
    (known : ∃ slot, s.slots[id]? = some slot) : ∃ slot, s'.slots[id]? = some slot := by
  induction onward with
  | refl => exact known
  | tail _ last ih =>
      obtain ⟨k, act⟩ := last
      exact act.slots_kept ih

/-- What a pass has attempted, each plugin once, and more if it made progress. -/
structure Attempted (order before : List String) (progress : Bool) (after : List String)
    (more : Bool) : Prop where
  nodup : after.Nodup
  among : ∀ id ∈ after, id ∈ before ∨ id ∈ order
  grown : before.length ≤ after.length
  progress : more = true → progress = true ∨ before.length < after.length

theorem unloadPass_settles (order : List String) (known : ∀ id ∈ order,
    ∃ slot, base.slots[id]? = some slot) :
    ∀ {s : State} (attempted : List String) (progress : Bool), Managed base s →
      s.preparing = none → attempted.Nodup →
      Manages base (unloadPass order attempted progress) s fun outcome s' =>
        s'.preparing = none ∧ ∀ result, outcome = .ok result →
          Attempted order attempted progress result.2 result.1 := by
  induction order with
  | nil =>
      intro s attempted progress managed settled nodup
      refine .pure managed ⟨settled, fun result is => ?_⟩
      cases is
      exact ⟨nodup, fun _ => Or.inl, le_refl _, Or.inl⟩
  | cons id rest ih =>
      intro s attempted progress managed settled nodup
      have ih := @ih fun other member => known other (List.mem_cons_of_mem _ member)
      obtain ⟨slot, there⟩ := managed.onward.slots_kept (known id List.mem_cons_self)
      unfold unloadPass
      refine .get (.expected _ there (.ite (fun _ => ?_) fun fresh => ?_))
      · refine (ih attempted progress managed settled nodup).mono fun outcome s' _ after =>
          ⟨after.1, fun result is => ?_⟩
        obtain ⟨nodup', among, grown, more⟩ := after.2 result is
        exact ⟨nodup', fun other member => (among other member).imp_right
          (List.mem_cons_of_mem _), grown, more⟩
      · have fresh : id ∉ attempted := by
          intro member
          simp [member] at fresh
        refine Manages.bind (unloadScript_settles managed settled id)
          (fun unloaded s' managed' settled' => ?_)
          fun x s' _ settled' => ⟨settled', fun result is => (by cases is)⟩
        refine (ih (id :: attempted) (progress || unloaded) managed' settled'
          (List.nodup_cons.mpr ⟨fresh, nodup⟩)).mono fun outcome s'' _ after =>
            ⟨after.1, fun result is => ?_⟩
        obtain ⟨nodup', among, grown, -⟩ := after.2 result is
        rw [List.length_cons] at grown
        refine ⟨nodup', fun other member => ?_, by omega, fun _ => Or.inr (by omega)⟩
        rcases among other member with old | new
        · rcases List.mem_cons.mp old with rfl | old
          · exact Or.inr List.mem_cons_self
          · exact Or.inl old
        · exact Or.inr (List.mem_cons_of_mem _ new)

/-- A pass with progress attempts a plugin that was not, so there are at most as many
as plugins, and one more. -/
theorem unloadPasses_settles (order : List String) (known : ∀ id ∈ order,
    ∃ slot, base.slots[id]? = some slot) (fuel : Nat) :
    ∀ {s : State} (attempted : List String), Managed base s → s.preparing = none →
      attempted.Nodup → (∀ id ∈ attempted, id ∈ order) →
      order.length < fuel + attempted.length →
      Settles base (unloadPasses order fuel attempted) s := by
  induction fuel with
  | zero =>
      intro s attempted managed settled nodup among enough
      have short := (List.subperm_of_subset nodup among).length_le
      omega
  | succ fuel ih =>
      intro s attempted managed settled nodup among enough
      unfold unloadPasses
      refine Manages.bind (unloadPass_settles order known attempted false managed settled nodup)
        (fun result s' managed' after => ?_) fun _ _ _ after => after.1
      obtain ⟨settled', attempts⟩ := after
      obtain ⟨nodup', among', grown, more⟩ := attempts result rfl
      refine .ite (fun progress => ?_) fun _ => .pure managed' settled'
      have longer : attempted.length < result.2.length :=
        (more progress).resolve_left (by decide)
      refine ih result.2 managed' settled' nodup' (fun id member => ?_) (by omega)
      exact (among' id member).elim (among id) fun member => member

theorem mem_unloadOrder {id : String} (member : id ∈ s.unloadOrder) :
    ∃ slot, s.slots[id]? = some slot := by
  unfold State.unloadOrder at member
  obtain ⟨entry, sorted, rfl⟩ := List.mem_map.mp member
  obtain ⟨found, there, rfl⟩ := List.mem_map.mp (List.mem_mergeSort.mp sorted)
  exact ⟨found.2, Tables.mem_toList.mp there⟩

theorem unloadAllScripts_settles (managed : Managed base s) (settled : s.preparing = none) :
    Settles base unloadAllScripts s := by
  unfold unloadAllScripts
  refine Manages.rebase managed (.get ?_)
  refine Settles.bind (unloadPasses_settles _ (fun _ => mem_unloadOrder) _ [] managed.restart
    settled List.nodup_nil (by simp) (by simp)) fun _ s' managed' settled' => ?_
  exact .get (.pure managed' settled')

/-! ## Replacing -/

theorem resumeTimers_manages (managed : Managed base s) (a : Addr) :
    Manages base (resumeTimers a) s fun _ s' => Unmoved s s' := by
  unfold resumeTimers
  refine .get ((Manages.forM (R := fun s' => Unmoved s s' ∧ s'.owner = s.owner ∧
    ∀ id ∈ s.handles.owned (s.owner a) TimerType, ∃ timer, s'.timer id (s.owner a) = some timer)
    _ _ ?_ managed ⟨Unmoved.refl s, rfl, fun id member => ?_⟩).mono fun _ _ _ both => both.1)
  swap
  · exact State.timer_live managed.reach (contains_of_owned (by decide) member)
  intro id member s' managed' ⟨unmoved, owner, live⟩
  obtain ⟨timer, there⟩ := live id member
  refine .get (.expected _ there ?_)
  have mine : s'.timer id (s'.owner a) = some timer := owner ▸ there
  have act : Act .managing s' { s' with
      handles := s'.handles.put id (.timer { timer with
        due := timer.due + (s.now - s.suspendedAt a) }) } :=
    .putTimer a id timer _ mine
  refine ⟨managed'.act act rfl, unmoved.trans ⟨rfl, rfl, rfl, rfl, rfl, rfl⟩, owner,
    fun other member' => ?_⟩
  obtain ⟨timer', there'⟩ := live other member'
  have found := get_iff.mp (State.timer_get there)
  by_cases same : other = id
  · refine ⟨{ timer with due := timer.due + (s.now - s.suspendedAt a) }, ?_⟩
    refine State.timer_of_get (get_iff.mpr ?_)
    rw [look_put found, if_pos same]
  · refine ⟨timer', State.timer_of_get (get_iff.mpr ?_)⟩
    rw [look_put found, if_neg same]
    exact get_iff.mp (State.timer_get there')

theorem replaceCurrent_settles (managed : Managed base s) (settled : s.preparing = none)
    {id : String} {slot : Slot} {b : Addr} (there : s.slots[id]? = some slot)
    (staged : slot.replacement = some b) : Settles base (replaceCurrent id b) s := by
  have waits := managed.reach.living.staged b ⟨id, slot, there, staged⟩
  have apart : b ≠ slot.current := by
    have pair := managed.reach.slotted.pair id
    rw [scriptsAt_of there, Slot.scripts_nodup] at pair
    exact pair b staged
  unfold replaceCurrent
  refine .get (.expected _ there (.ite (fun down => ?_) fun loading => ?_))
  · refine Manages.returns (cleanup_manages managed down ?_ ?_) fun done s' managed' cleaned => ?_
    · rcases waits.1 with is | is | is <;> simp [is]
    · rcases waits.1 with is | is | is <;> simp [is]
    · have settled' := cleaned.1.preparing.trans settled
      refine .ite (fun is => ?_) fun _ => .pure managed' settled'
      have act : Act .managing s' (s'.setSlot id { slot with replacement := none }) :=
        .dropReplacement id slot b managed'.managing (cleaned.1.slots ▸ there) staged
          (cleaned.2 is)
      exact .modify (.pure (managed'.act act rfl) settled')
  · have loading := not_not.mp loading
    obtain ⟨loaded, idle⟩ := waits.2 loading
    refine .ite (fun _ => .pure managed settled) fun _ => .modify (Manages.returns
      (retire_cleanup managed ⟨id, slot, there, List.mem_cons_self ..⟩)
      fun done s' managed' cleaned => ?_)
    have settled' := cleaned.1.preparing.trans settled
    refine .ite (fun _ => .pure managed' settled') fun is => ?_
    have unloaded := cleaned.2 (by simpa using is)
    have loading' := ((cleaned.1.apart.resting b apart idle (by simp [loading])).2).trans loading
    refine Manages.bind (resumeTimers_manages managed' b) (fun _ s'' managed'' unmoved => ?_)
      fun _ s'' _ unmoved => unmoved.preparing.trans settled'
    have unloaded'' := (congrFun unmoved.vm slot.current).trans unloaded
    have act : Act .managing s'' (s''.swap id slot b) :=
      .swap id slot b managed''.managing (unmoved.slots ▸ cleaned.1.apart.slots ▸ there) staged
        ((congrFun unmoved.state b).trans loading') (managed''.reach.living.idle _ unloaded'')
        unloaded''
    exact .modify (.pure (managed''.act act rfl) (unmoved.preparing.trans settled'))

/-- The candidate of a reload is placed, or gone, or its failed rest is kept. -/
theorem stageCandidate_settles (managed : Managed base s) {id : String} {slot : Slot} {a : Addr}
    (there : s.slots[id]? = some slot) (single : slot.replacement = none)
    (candidate : s.preparing = some a) (inactive : s.active a = 0)
    (loaded : s.state a = .loading → s.vm a = true) :
    Settles base (stageCandidate id slot a) s := by
  have staged : ∀ s' : State, Managed base s' → s'.slots[id]? = some slot →
      s'.preparing = some a → s'.active a = 0 →
      (s'.state a = .loading → s'.vm a = true ∧ (s'.manifest a).id = id) →
      Act .managing s' (s'.stage id slot a) := fun s' managed' there' candidate' inactive' ready =>
    .stage id slot a candidate' there' single (fun loading => (ready loading).2) inactive'
      fun loading => (ready loading).1
  -- what follows once a candidate under another name was given up
  have rest : ∀ s' : State, Managed base s' → s'.slots[id]? = some slot →
      s'.preparing = some a → s'.active a = 0 →
      (s'.state a = .loading → s'.vm a = true ∧ (s'.manifest a).id = id) →
      Settles base (do
        if (← get).state a ≠ .loading then
          if ← cleanup a then modify fun s => { s with preparing := none }
          else modify (·.stage id slot a)
          return false
        modify (·.stage id slot a)
        replaceCurrent id a) s' := by
    intro s' managed' there' candidate' inactive' ready
    refine .get (.ite (fun down => ?_) fun loading => ?_)
    · have waits := managed'.reach.living.candidate a candidate'
      refine Manages.returns (cleanup_manages managed' down ?_ ?_)
        fun done s'' managed'' cleaned => ?_
      · rcases waits with is | is | is <;> simp [is]
      · rcases waits with is | is | is <;> simp [is]
      · have candidate'' := cleaned.1.preparing.trans candidate'
        have resting := cleaned.1.resting a inactive' (by
          rcases waits with is | is | is <;> simp [is])
        have settled : s''.state a ≠ .loading := resting.2 ▸ down
        refine .ite (fun is => ?_) fun _ => ?_
        · have act : Act .managing s'' { s'' with preparing := none } :=
            .dropCandidate a candidate'' (cleaned.2 is) settled
          exact .modify (.pure (managed''.act act rfl) rfl)
        · have act := staged s'' managed'' (cleaned.1.slots ▸ there') candidate'' resting.1
            fun loading => absurd loading settled
          exact .modify (.pure (managed''.act act rfl) rfl)
    · have act := staged s' managed' there' candidate' inactive' ready
      have filed : (s'.slots.insert id { slot with replacement := some a })[id]? =
          some { slot with replacement := some a } := by
        rw [Tables.getElem?_insert, if_pos rfl]
      exact .modify (replaceCurrent_settles (managed'.act act rfl) rfl filed rfl)
  unfold stageCandidate
  refine .get (.ite (fun foreign_ => .modify ?_) fun named => ?_)
  · have act : Act .managing s (s.setState a .retiring) := .retireCandidate a candidate
    refine rest _ (managed.act act rfl) there candidate inactive fun loading => ?_
    have retiring : (s.setState a .retiring).state a = .retiring := Function.update_self ..
    rw [retiring] at loading
    cases loading
  · exact rest s managed there candidate inactive fun loading =>
      ⟨loaded loading, not_not.mp named⟩

theorem reloadFresh_settles (managed : Managed base s) (settled : s.preparing = none) {id : String}
    {slot : Slot} (there : s.slots[id]? = some slot) (single : slot.replacement = none) :
    Settles base (reloadFresh id slot) s := by
  unfold reloadFresh
  refine .get ?_
  dsimp only
  have kind : (if s.state slot.current = .paused then PluginState.paused else .running) = .paused ∨
      (if s.state slot.current = .paused then PluginState.paused else .running) = .running := by
    split
    · exact Or.inl rfl
    · exact Or.inr rfl
  have act : Act .managing s (s.setSlot id { slot with
      replacementState := if s.state slot.current = .paused then .paused else .running }) :=
    .replacementState id slot _ managed.managing there kind single
  have managed' := managed.act act rfl
  refine .modify (Manages.bind (prepare_manages managed' settled _ true)
    (fun a s' managed'' prepared => ?_) fun x s' _ prepared => prepared.2 x rfl)
  have prepared := prepared.1 a rfl
  refine stageCandidate_settles managed'' ?_ single prepared.candidate prepared.inactive
    prepared.loaded
  rw [prepared.apart.slots]
  show (s.slots.insert id _)[id]? = _
  rw [Tables.getElem?_insert, if_pos rfl]

theorem reloadScript_settles (managed : Managed base s) (settled : s.preparing = none)
    (id : String) : Settles base (reloadScript id) s := by
  unfold reloadScript
  refine .get ?_
  cases there : s.slots[id]? with
  | none => exact .pure managed settled
  | some slot =>
      refine .ite (fun _ => .pure managed settled) fun _ => ?_
      refine Manages.handle (Q := fun _ s' => s'.preparing = none) ?_
        (fun _ _ _ settled' => settled') fun _ s' managed' settled' => .pure managed' settled'
      unfold reloadSlot
      cases staged : slot.replacement with
      | none => exact reloadFresh_settles managed settled there staged
      | some b => exact replaceCurrent_settles managed settled there staged

/-! ## Pausing -/

theorem clearMenus_settles (managed : Managed base s) (settled : s.preparing = none) (a : Addr) :
    Settles base (clearMenus a) s :=
  (managed.quiet (clearMenus_runs managed.within a)).settles fun _ _ both =>
    both.1.preparing.trans settled

theorem pauseScript_settles (managed : Managed base s) (settled : s.preparing = none)
    (id : String) : Settles base (pauseScript id) s := by
  unfold pauseScript
  refine .get ?_
  cases there : s.slots[id]? with
  | none => exact .pure managed settled
  | some slot =>
      refine .ite (fun _ => .pure managed settled) fun _ =>
        .ite (fun _ => clearMenus_settles managed settled _) fun _ =>
          .ite (fun _ => .pure managed settled) fun up =>
            .ite (fun _ => .pure managed settled) fun _ => ?_
      obtain ⟨running, inactive⟩ := not_or.mp up
      have act : Act .managing s (s.pauseAt slot.current) :=
        .pause _ managed.managing ⟨id, slot, there, rfl⟩ (not_not.mp running) (not_not.mp inactive)
      exact .modify (clearMenus_settles (managed.act act rfl) settled _)

theorem resumeScript_settles (managed : Managed base s) (settled : s.preparing = none)
    (id : String) : Settles base (resumeScript id) s := by
  unfold resumeScript
  refine .get ?_
  cases there : s.slots[id]? with
  | none => exact .pure managed settled
  | some slot =>
      refine .ite (fun _ => .pure managed settled) fun _ =>
        .ite (fun _ => .pure managed settled) fun paused =>
          .ite (fun _ => .pure managed settled) fun _ => ?_
      have paused := not_not.mp paused
      have inactive : s.active slot.current = 0 := by
        by_contra inside
        have called := managed.reach.living.called _ inside
        rw [paused] at called
        simp at called
      refine Manages.returns (managed.quiet (clearMenus_runs managed.within _))
        fun cleared s' managed' both => ?_
      have settled' := both.1.preparing.trans settled
      have paused' := ((both.1.resting _ inactive (by simp [paused])).2).trans paused
      refine .ite (fun _ => .pure managed' settled') fun _ => ?_
      refine Manages.bind (resumeTimers_manages managed' slot.current)
        (fun _ s'' managed'' unmoved => ?_) fun _ _ _ unmoved => unmoved.preparing.trans settled'
      have act : Act .managing s'' (s''.setState slot.current .running) :=
        .resume _ managed''.managing
          ⟨id, slot, unmoved.slots ▸ both.1.slots ▸ there, rfl⟩
          ((congrFun unmoved.state _).trans paused')
      exact .modify (.pure (managed''.act act rfl) (unmoved.preparing.trans settled'))

theorem retryScript_settles (managed : Managed base s) (settled : s.preparing = none)
    (id : String) : Settles base (retryScript id) s := by
  unfold retryScript
  refine .get ?_
  cases s.slots[id]? with
  | none => exact .pure managed settled
  | some slot => exact .ite (fun _ => .pure managed settled) fun _ =>
      loadScript_settles managed settled _

/-! ## Discovering and refreshing -/

theorem compareFiles_settles (managed : Managed base s) (settled : s.preparing = none)
    (pending : Std.ExtTreeMap String Pending × Bool) (id : String) (known : Manifest)
    (path : Path) : Settles base (compareFiles pending id known path) s := by
  unfold compareFiles
  refine Manages.bind (readManifest_manages managed path) (fun m s' managed' read => ?_)
    fun _ s' _ read => read.1 ▸ settled
  obtain ⟨rfl, -⟩ := read
  exact .reply fun r => .ite (fun _ => .raise managed' _ settled) fun _ =>
    .ite (fun _ => .pure managed' settled) fun _ => .pure managed' settled

theorem refreshOne_settles (managed : Managed base s) (settled : s.preparing = none)
    (pending : Std.ExtTreeMap String Pending × Bool) (id : String) :
    Settles base (refreshOne pending id) s := by
  unfold refreshOne
  refine .get ?_
  cases s.slots[id]? with
  | none => exact .pure managed settled
  | some slot =>
      refine .ite (fun _ => .pure managed settled) fun _ => .ite (fun _ => .pure managed settled)
        fun _ => Manages.handle (compareFiles_settles managed settled pending id _ _)
          (fun _ _ _ settled' => settled') fun _ s' managed' settled' => .pure managed' settled'

theorem discoverNew_settles (managed : Managed base s) (settled : s.preparing = none)
    (pending : Std.ExtTreeMap String Pending × Bool) {place id : String}
    (free : s.slots[id]? = none) :
    Settles base (discoverNew pending id { place, directory := id }) s := by
  unfold discoverNew
  refine Manages.bind (readManifest_manages managed _) (fun m s' managed' read => ?_)
    fun _ s' _ read => read.1 ▸ settled
  obtain ⟨rfl, accepted⟩ := read
  refine .ite (fun _ => ?_) fun _ => .pure managed' settled
  have named : m.id = id := by
    have accepted := accepted m rfl
    rw [Manifest.accepted, Bool.and_eq_true, Bool.and_eq_true] at accepted
    exact (eq_of_beq accepted.1.2).symm
  have act : Act .managing s' (s'.placeRecord id m { place, directory := id } .disabled) :=
    .placeRecord id m _ .disabled managed'.managing named free (Or.inr rfl)
  exact .modify (.pure (managed'.act act (calls_born managed'.reach)) settled)

theorem discoverOne_settles (managed : Managed base s) (settled : s.preparing = none)
    (place : String) (pending : Std.ExtTreeMap String Pending × Bool) (entry : String × Bool) :
    Settles base (discoverOne place pending entry) s := by
  unfold discoverOne
  refine .get (.ite (fun _ => .pure managed settled) fun known => ?_)
  have free : s.slots[entry.1]? = none := by
    rw [Bool.or_eq_true, not_or] at known
    simpa using known.2
  refine Manages.handle (discoverNew_settles managed settled pending free)
    (fun _ _ _ settled' => settled') fun _ s' managed' settled' => ?_
  exact Manages.returns (recordFailure_settles managed' settled' _)
    fun _ s'' managed'' settled'' => .pure managed'' settled''

theorem loadPass_settles (items : List (String × Pending)) :
    ∀ {s : State} (pending : Std.ExtTreeMap String Pending) (progress success : Bool),
      Managed base s → s.preparing = none →
      Settles base (loadPass items pending progress success) s := by
  induction items with
  | nil => exact fun pending progress success managed settled => .pure managed settled
  | cons item rest ih =>
      intro s pending progress success managed settled
      obtain ⟨id, item⟩ := item
      unfold loadPass
      refine .ite (fun _ => ih pending progress success managed settled) fun _ =>
        .ite (fun _ => ?_) fun _ => ?_
      · exact (reloadScript_settles managed settled id).bind fun ready s' managed' settled' =>
          ih (pending.erase id) true (success && ready) managed' settled'
      · exact (loadScript_settles managed settled item.path).bind fun ready s' managed' settled' =>
          ih (pending.erase id) true (success && ready) managed' settled'

theorem loadPasses_settles (fuel : Nat) :
    ∀ {s : State} (pending : Std.ExtTreeMap String Pending) (success : Bool),
      Managed base s → s.preparing = none → Settles base (loadPasses fuel pending success) s := by
  induction fuel with
  | zero => exact fun pending success managed settled => .pure managed settled
  | succ fuel ih =>
      intro s pending success managed settled
      unfold loadPasses
      refine (loadPass_settles pending.toList pending false success managed settled).bind
        fun result s' managed' settled' => ?_
      exact .ite (fun _ => ih result.1 result.2.2 managed' settled') fun _ =>
        .pure managed' settled'

theorem discoverScripts_settles (managed : Managed base s) (settled : s.preparing = none)
    (place : String) (refresh : Bool) : Settles base (discoverScripts place refresh) s := by
  unfold discoverScripts
  refine .get ((Settles.foldlM refreshOne _ (fun id _ pending s managed settled =>
    refreshOne_settles managed settled pending id) _ managed settled).bind
      fun pending s1 managed1 settled1 => .reply fun r => ?_)
  refine (Settles.foldlM (discoverOne place) _ (fun entry _ pending s managed settled =>
    discoverOne_settles managed settled place pending entry) _ managed1 settled1).bind
      fun pending s2 managed2 settled2 => ?_
  refine (loadPasses_settles _ _ _ managed2 settled2).bind fun left s3 managed3 settled3 => ?_
  refine Settles.bind (Manages.forM (R := fun s => s.preparing = none) _ _
    (fun item _ s managed settled => ?_) managed3 settled3)
    fun _ s4 managed4 settled4 => .pure managed4 settled4
  refine .ite (fun _ => .pure managed settled) fun _ => ?_
  exact (recordFailure_settles managed settled _).settles fun _ _ settled' => settled'

/-! ## Management operations -/

/-- `ManagementScope`: an operation that starts while none is under way. -/
theorem manage_keeps (within : Within base s) {m : M Bool}
    (settles : ∀ s', Managed s s' → s'.preparing = none → Settles s m s') :
    Keeps base (manage m) s := by
  unfold manage
  refine Runs.get (Runs.ite (fun _ => Runs.pure within trivial) fun free => Runs.modify ?_)
  have free : s.managing = false := by simpa using free
  have act : Act .managing s { s with managing := true } := .manage free
  have managed : Managed s { s with managing := true } :=
    ⟨within.reach.act act, rfl, act.onward⟩
  have settled : s.preparing = none := by
    cases candidate : s.preparing with
    | none => rfl
    | some a =>
        have managing := (within.reach.slotted.candidate a candidate).1
        rw [free] at managing
        cases managing
  refine wp_finally.mpr (Tree.Wp.mono (settles _ managed settled) fun outcome s' fine => ?_)
  obtain ⟨managed', settled'⟩ := fine
  have over_ : Act .managing s' { s' with managing := false } :=
    .unmanage managed'.managing settled'
  have calls : ({ s' with managing := false } : State).calls = s.calls := by
    have same : ({ s' with managing := false } : State).calls =
        { s'.calls with managing := false } := rfl
    rw [same, managed'.calls]
    show ({ s.calls with managing := false } : Calls) = s.calls
    rw [← free]
    rfl
  refine ⟨within.back (managed'.reach.act over_) ⟨calls, fun managing => ?_,
    managed'.onward.trans over_.onward⟩, fun _ _ => trivial, fun _ _ => trivial⟩
  rw [free] at managing
  cases managing

theorem load_keeps (within : Within base s) (path : Path) : Keeps base (load path) s :=
  manage_keeps within fun _ managed settled => loadScript_settles managed settled path

theorem unload_keeps (within : Within base s) (id : String) : Keeps base (unload id) s :=
  manage_keeps within fun _ managed settled => unloadScript_settles managed settled id

theorem unloadAll_keeps (within : Within base s) : Keeps base unloadAll s :=
  manage_keeps within fun _ managed settled => .get (.ite (fun _ => .pure managed settled)
    fun _ => unloadAllScripts_settles managed settled)

theorem reload_keeps (within : Within base s) (id : String) : Keeps base (reload id) s :=
  manage_keeps within fun _ managed settled => reloadScript_settles managed settled id

theorem pause_keeps (within : Within base s) (id : String) : Keeps base (pause id) s :=
  manage_keeps within fun _ managed settled => pauseScript_settles managed settled id

theorem resume_keeps (within : Within base s) (id : String) : Keeps base (resume id) s :=
  manage_keeps within fun _ managed settled => resumeScript_settles managed settled id

theorem retry_keeps (within : Within base s) (id : String) : Keeps base (retry id) s :=
  manage_keeps within fun _ managed settled => retryScript_settles managed settled id

theorem discover_keeps (within : Within base s) (place : String) :
    Keeps base (discover place) s :=
  manage_keeps within fun _ managed settled => discoverScripts_settles managed settled place false

theorem refresh_keeps (within : Within base s) (place : String) : Keeps base (refresh place) s :=
  manage_keeps within fun _ managed settled => .get (.ite (fun _ => .pure managed settled)
    fun _ => discoverScripts_settles managed settled place true)

theorem shutdown_keeps (within : Within base s) : Keeps base shutdown s := by
  refine manage_keeps within fun s' managed settled => .get (.ite
    (fun _ => .pure managed settled) fun _ => .get ?_)
  refine Manages.returns (managed.quiet (closeNativeDisplays_runs _ true managed.within))
    fun closed s1 managed1 both => ?_
  refine (unloadAllScripts_settles managed1 (both.1.preparing.trans settled)).bind
    fun unloaded s2 managed2 settled2 => ?_
  refine Manages.returns (managed2.quiet (voiceCall_runs managed2.within _))
    fun released s3 managed3 both' => .pure managed3 (both'.1.preparing.trans settled2)

end Source2Root.Foundation
