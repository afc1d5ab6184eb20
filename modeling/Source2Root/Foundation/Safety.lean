import Source2Root.Foundation.Histories
import Source2Root.Foundation.Leases

/-!
# What holds in every state of a run

Each result is about the states in which foreign code has control, after any run
of the manager and with any calls under way: the quota, the pending change of the map,
and that the tables of the manager, what each script keeps and what the host was told
say the same.
-/

set_option autoImplicit false

namespace Source2Root.Foundation

open Reentrant

variable {start s : State} {stack : Stack}

/-! ## The quota -/

/-- What a script owns, over all four tables, stays inside the quota. -/
theorem quota_kept (boot : Boot start) (reached : Reached start s stack) (a : Addr) :
    (s.handles.owned (s.owner a) 0).length + (s.commandsOf a).size + (s.eventsOf a).size +
      (s.callbacksOf a).card ≤ 128 :=
  (reached.reach boot).load_le_quota a

def registering : History :=
  starting ++ [.start (.native 1 (.registerCommand "sr_greet" "" 0 "")), .reply {}]

theorem quota_kept_registering : ∃ s stack, Reached (State.boot 0 ['!'] ['/']) s stack ∧
    (s.commandsOf 1).size = 1 ∧
    (s.handles.owned (s.owner 1) 0).length + (s.commandsOf 1).size + (s.eventsOf 1).size +
      (s.callbacksOf 1).card ≤ 128 := by
  obtain ⟨s, stack, reached, one⟩ := @History.reached registering
    (fun s => (s.commandsOf 1).size == 1) (by decide +kernel)
  exact ⟨s, stack, reached, by simpa using one, quota_kept boot_boot reached 1⟩

/-! ## The pending change of the map -/

/-- A pending request stands, and the host was called only for one that stood: in a
tick with nothing under way, for the running script of its slot that asked. -/
theorem map_change_rightful (boot : Boot start) (reached : Reached start s stack) :
    (∀ request, s.pendingMap = some request → Stands s.journal request) ∧
      ∀ before after request idle current,
        s.journal = before ++ .mapCall request idle current :: after →
          idle = true ∧ current = some (request.owner, .running) ∧
            before.getLast? = some .ticked ∧ Stands before request := by
  have log := (reached.reach boot).mapLogged
  refine ⟨log.asked, fun before after request idle current split => ?_⟩
  obtain ⟨idle, current, ticked, stands⟩ := log.calls before _ after split
  exact ⟨idle, current, ticked, stands⟩

/-- The script listens to the start of rounds, and asks for another map then. -/
def changingMap : History :=
  starting ++ [.start (.native 1 (.listenEvent "round_start" 0)), .reply {}, .back { cell := 1 },
    .start (.report (.event "round_start")), .start (.native 1 (.changeMap "de_dust")), .reply {},
    .back {}, .start (.report (.tick 10))]

theorem map_change_rightful_called : ∃ s stack, Reached (State.boot 0 ['!'] ['/']) s stack ∧
    ∃ before, s.journal =
      before ++ [.mapCall { owner := 1, plugin := "a", name := "de_dust" } true (some (1, .running))] ∧
      Stands before { owner := 1, plugin := "a", name := "de_dust" } := by
  obtain ⟨s, stack, reached, called⟩ := @History.reached changingMap
    (fun s => s.journal.getLast? ==
      some (.mapCall { owner := 1, plugin := "a", name := "de_dust" } true (some (1, .running))))
    (by decide +kernel)
  obtain ⟨before, split⟩ := List.getLast?_eq_some_iff.mp (eq_of_beq called)
  exact ⟨s, stack, reached, before, split,
    ((map_change_rightful boot_boot reached).2 before [] _ _ _ split).2.2.2⟩

/-! ## Commands and events -/

theorem State.Registers.event_loaded (registers : s.Registers) (bared : s.Bares) {name : String}
    {owners : Finset Addr} (there : s.events[name]? = some owners) {a : Addr}
    (member : a ∈ owners) : s.vm a = true := by
  have mine := (registers.events.owned name a).mpr ⟨owners, there, member⟩
  exact bared.events.loaded fun empty =>
    absurd mine (by rw [empty]; exact Std.ExtTreeMap.not_mem_empty)

/-- No command and no event counts the script among its owners. -/
def State.Unregistered (s : State) (a : Addr) : Prop :=
  (∀ (name : String) (owners : Finset Addr), s.commands[name]? = some owners → a ∉ owners) ∧
    ∀ (name : String) (owners : Finset Addr), s.events[name]? = some owners → a ∉ owners

theorem Reach.unregistered (reach : Reach s) {a : Addr} (unloaded : s.vm a = false) :
    s.Unregistered a := by
  refine ⟨fun name owners there member => ?_, fun name owners there member => ?_⟩
  · rw [reach.registers.command_loaded reach.bared there member] at unloaded
    exact nomatch unloaded
  · rw [reach.registers.event_loaded reach.bared there member] at unloaded
    exact nomatch unloaded

/-- A cleanup that reports success leaves the script among no owners. -/
theorem cleanup_unregisters (reach : Reach s) (managing : s.managing = true) {a : Addr}
    (loading : s.state a ≠ .loading) (running : s.state a ≠ .running)
    (paused : s.state a ≠ .paused) :
    (cleanup a s).Wp Reach Later fun outcome s' => outcome = .ok true → s'.Unregistered a := by
  have managed : Managed s s := ⟨reach, by rw [← managing]; rfl, Onward.refl s⟩
  refine Tree.Wp.mono (cleanup_manages managed loading running paused) fun outcome s' fine is => ?_
  subst is
  exact fine.1.reach.unregistered (fine.2.2 rfl)

/-- The host knows exactly the names that have owners, a name has owners exactly as
long as scripts keep it, and they all are alive and of one plugin. -/
theorem registrations_agree (boot : Boot start) (reached : Reached start s stack) :
    (∀ name, name ∈ s.hostCommands ↔ name ∈ s.commands) ∧
    (∀ name, name ∈ s.hostEvents ↔ name ∈ s.events) ∧
    (∀ (name : String) (owners : Finset Addr), s.commands[name]? = some owners → owners.Nonempty ∧
      (∀ a ∈ owners, ∀ b ∈ owners, (s.manifest a).id = (s.manifest b).id) ∧
      ∀ a ∈ owners, s.Alive a) ∧
    (∀ (name : String) (owners : Finset Addr), s.events[name]? = some owners →
      owners.Nonempty ∧ ∀ a ∈ owners, s.Alive a) ∧
    (∀ name a, name ∈ s.commandsOf a ↔ ∃ owners, s.commands[name]? = some owners ∧ a ∈ owners) ∧
    (∀ name a, name ∈ s.eventsOf a ↔ ∃ owners, s.events[name]? = some owners ∧ a ∈ owners) ∧
    (∀ lookup ∈ [Lookup.commandOwners, .eventOwners, .provider, .variable], lookup ∉ s.missed) ∧
    ∀ t a, Reach t → t.managing = true → t.state a ≠ .loading → t.state a ≠ .running →
      t.state a ≠ .paused →
        (cleanup a t).Wp Reach Later fun outcome t' => outcome = .ok true → t'.Unregistered a := by
  have reach := reached.reach boot
  have registers := reach.registers
  have found : ∀ lookup ∈ [Lookup.commandOwners, .eventOwners, .provider, .variable],
      lookup ∉ s.missed := by
    intro lookup member missed
    cases reach.missed lookup missed
    simp at member
  refine ⟨registers.hostCommands, registers.hostEvents, fun name owners there => ?_,
    fun name owners there => ?_, registers.commands.owned, registers.events.owned, found,
    fun t a reach' managing loading running paused =>
      cleanup_unregisters reach' managing loading running paused⟩
  · exact ⟨registers.commands.shared name owners there, registers.plugin name owners there,
      fun a member => reach.alive (registers.command_loaded reach.bared there member)⟩
  · exact ⟨registers.events.shared name owners there,
      fun a member => reach.alive (registers.event_loaded reach.bared there member)⟩

theorem registrations_agree_registering : ∃ s stack,
    Reached (State.boot 0 ['!'] ['/']) s stack ∧
    ∃ owners, s.commands["sr_greet"]? = some owners ∧ "sr_greet" ∈ s.hostCommands ∧
      owners.Nonempty := by
  obtain ⟨s, stack, reached, told⟩ := @History.reached registering
    (fun s => s.commands.contains "sr_greet") (by decide +kernel)
  obtain ⟨owners, there⟩ := Tables.mem_iff.mp told
  have agree := registrations_agree boot_boot reached
  exact ⟨s, stack, reached, owners, there, (agree.1 _).mpr told, (agree.2.2.1 _ _ there).1⟩

/-! ## ConVars -/

theorem Act.hosts {s s' : State} {k : Kind} (act : Act k s s') (declares : s.Declares)
    (hosted : ∀ name ∈ s.convars, name ∈ s.hostConVars) :
    ∀ name ∈ s'.convars, name ∈ s'.hostConVars := by
  cases act with
  | addConVar a definition id handles v created making loaded unowned ours same known added =>
      intro name member
      have hosts : name ∈ s.hostConVars ∨ name = definition.name := by
        rcases Tables.mem_insert_iff.mp member with here | there
        · exact Or.inr here
        · exact Or.inl (hosted name there)
      show name ∈ if created then insert definition.name s.hostConVars else s.hostConVars
      cases created with
      | true => exact Finset.mem_insert.mpr hosts.symm
      | false =>
          have there : s.convars[definition.name]? = some v := known
          rcases hosts with before | rfl
          · exact before
          · exact hosted _ (Tables.mem_iff.mpr ⟨v, there⟩)
  | dropConVar a name id v released handles permit owned there last removed =>
      intro other member
      have mine : a ∈ v.owners := by
        obtain ⟨w, found, inside⟩ := declares.1.ledger.mem (Tables.mem_iff.mpr ⟨id, owned⟩)
        rw [there] at found
        cases found
        exact inside
      have member : other ∈ if v.owners.erase a = ∅ then s.convars.erase name
          else s.convars.insert name { v with owners := v.owners.erase a } := member
      have before : other ∈ s.convars ∧ (other = name → v.owners.erase a ≠ ∅) := by
        split at member
        · obtain ⟨apart, there⟩ := Tables.mem_erase_iff.mp member
          exact ⟨there, fun here => absurd here apart⟩
        · rcases Tables.mem_insert_iff.mp member with here | elsewhere
          · exact ⟨here ▸ Tables.mem_iff.mpr ⟨v, there⟩, fun _ => ‹_›⟩
          · exact ⟨elsewhere, fun _ => ‹_›⟩
      show other ∈ if released then s.hostConVars.erase name else s.hostConVars
      cases released with
      | false => exact hosted other before.1
      | true =>
          -- the host gives the ConVar back only with its last owner
          have one : v.owners.card = 1 := (of_decide_eq_true last.symm).1
          refine Finset.mem_erase.mpr ⟨fun here => before.2 here ?_, hosted other before.1⟩
          rw [← Finset.card_eq_zero, Finset.card_erase_of_mem mine, one]
  | _ => exact hosted

theorem Reach.hosts (reach : Reach s) : ∀ name ∈ s.convars, name ∈ s.hostConVars := by
  induction reach with
  | boot first =>
      obtain ⟨now, publicTrigger, silentTrigger, rfl⟩ := first
      exact fun name member => absurd member Std.ExtTreeMap.not_mem_empty
  | act before change ih => exact change.hosts before.declares ih

/-- What a failed creation or closing leaves. -/
structure SameConVars (s s' : State) : Prop where
  convars : s'.convars = s.convars
  convarsOf : s'.convarsOf = s.convarsOf
  hostConVars : s'.hostConVars = s.hostConVars
  handles : ∀ id, s'.handles.look id = s.handles.look id

theorem SameConVars.refl (s : State) : SameConVars s s := ⟨rfl, rfl, rfl, fun _ => rfl⟩

theorem limit_then {β : Type} {Q : Except Raised β → State → Prop} {a : Addr} {f : Unit → M β}
    (may : Q (.error .nativeError) s) (rest : (f () s).Wp Reach Later Q) :
    ((limit a >>= f) s).Wp Reach Later Q := by
  refine wp_bind.mpr (get_wp ?_)
  dsimp only
  split
  · exact may
  split
  · exact may
  · exact rest

/-- Handle zero is nobody's. -/
theorem add_nonzero {handles after : Handles Resource} {owner type : Nat} {value : Resource}
    {id : HandleId} (added : handles.add owner type value = .ok (id, after)) : id ≠ 0 := by
  rintro rfl
  have found := (Handles.look_add added).2.2 0
  rw [if_pos rfl] at found
  cases found

theorem createConVar_fails (a : Addr) (definition : ConVarDefinition) :
    (createConVar a definition s).Wp Reach Later fun outcome s' =>
      (outcome = .ok 0 ∨ ∃ x, outcome = .error x) → SameConVars s s' := by
  have same : SameConVars s s := SameConVars.refl s
  unfold createConVar
  refine limit_then (fun _ => same) (wp_ite (fun _ _ => same) fun _ => get_wp ?_)
  refine wp_ite (fun _ _ => same) fun _ => ?_
  cases there : s.convars[definition.name]? with
  | some v =>
      refine wp_ite (fun _ _ => same) fun _ => wp_ite (fun _ _ => same) fun _ => ?_
      refine addHandle_then (fun _ => same) fun id handles added => modify_wp fun failed => ?_
      rcases failed with is | ⟨x, is⟩
      · exact absurd (Except.ok.inj is) (add_nonzero added)
      · cases is
  | none =>
      refine addHandle_then (fun _ => same) fun id handles added => reply_wp fun r => ?_
      refine wp_ite (fun _ => ?_) fun _ => modify_wp fun failed => ?_
      · obtain ⟨left, removed⟩ := added_removed added
        refine removeHandle_then removed rfl fun _ => ⟨rfl, rfl, rfl, fun other => ?_⟩
        obtain ⟨-, absent, after⟩ := Handles.look_add added
        show left.look other = s.handles.look other
        rw [(Handles.look_remove removed).2, after]
        by_cases here : other = id
        · rw [if_pos here, here, absent]
        · rw [if_neg here, if_neg here]
      · rcases failed with is | ⟨x, is⟩
        · exact absurd (Except.ok.inj is) (add_nonzero added)
        · cases is

theorem closeConVar_fails (reach : Reach s) (a : Addr) (name : String) :
    (closeConVar a name s).Wp Reach Later fun outcome s' => outcome ≠ .ok true → s' = s :=
  closeConVar_wp reach a name (fun _ => rfl) fun _ _ _ _ failed => absurd rfl failed

/-- The program asks nobody and lets nobody run. -/
def Silent {α : Type} (m : M α) (s : State) : Prop := ∃ outcome s', m s = .done outcome s'

theorem Silent.bind {α β : Type} {m : M α} {f : α → M β} (first : Silent m s)
    (rest : ∀ value s', m s = .done (.ok value) s' → Silent (f value) s') :
    Silent (m >>= f) s := by
  obtain ⟨outcome, s', ends⟩ := first
  cases outcome with
  | ok value =>
      obtain ⟨outcome, s'', after⟩ := rest value s' ends
      refine ⟨outcome, s'', ?_⟩
      show Tree.bind _ (m s) = _
      rw [ends]
      exact after
  | error x =>
      refine ⟨.error x, s', ?_⟩
      show Tree.bind _ (m s) = _
      rw [ends]
      rfl

theorem Silent.ite {α : Type} {c : Prop} [Decidable c] {m n : M α} (pos : c → Silent m s)
    (neg : ¬ c → Silent n s) : Silent (if c then m else n) s := by
  split
  · exact pos ‹c›
  · exact neg ‹¬ c›

theorem Silent.pure {α : Type} (value : α) : Silent (Pure.pure value) s := ⟨.ok value, s, rfl⟩

theorem Silent.throw {α : Type} (x : Raised) : Silent (MonadExcept.throw x : M α) s :=
  ⟨.error x, s, rfl⟩

theorem Silent.get {β : Type} {f : State → M β} (rest : Silent (f s) s) :
    Silent (Foundation.get >>= f) s := rest

theorem Silent.modify {β : Type} {f : State → State} {g : Unit → M β}
    (rest : Silent (g ()) (f s)) : Silent (Foundation.modify f >>= g) s := rest

theorem limit_silent {β : Type} {a : Addr} {f : Unit → M β} (rest : Silent (f ()) s) :
    Silent (limit a >>= f) s := by
  obtain refused | passed : limit a s = .done (.error .nativeError) s ∨ limit a s = .done (.ok ()) s := by
    show (ite _ _ _ : M Unit) s = _ ∨ (ite _ _ _ : M Unit) s = _
    split
    · exact Or.inl rfl
    split
    · exact Or.inl rfl
    · exact Or.inr rfl
  · exact Silent.bind ⟨_, _, refused⟩ fun _ _ passed => by rw [refused] at passed; cases passed
  · refine Silent.bind ⟨_, _, passed⟩ fun _ s' passed' => ?_
    rw [passed] at passed'
    cases passed'
    exact rest

theorem addHandle_silent (owner : Nat) (value : Resource) : Silent (addHandle owner value) s := by
  refine .get ?_
  cases s.handles.add owner value.type value with
  | ok pair => exact .modify (.pure _)
  | error _ => exact .throw _

/-- A script that joins the owners of a ConVar asks the host for nothing. -/
theorem createConVar_shared (a : Addr) (definition : ConVarDefinition) {v : Variable}
    (there : s.convars[definition.name]? = some v) : Silent (createConVar a definition) s := by
  unfold createConVar
  refine limit_silent (.ite (fun _ => .throw _) fun _ => .get (.ite (fun _ => .pure _) fun _ => ?_))
  rw [there]
  refine .ite (fun _ => .pure _) fun _ => .ite (fun _ => .pure _) fun _ => ?_
  exact (addHandle_silent _ _).bind fun id s'' _ => .modify (.pure _)

/-- A script that leaves others behind as owners gives nothing back to the host. -/
theorem closeConVar_shared (reach : Reach s) (a : Addr) {name : String} {v : Variable}
    (there : s.convars[name]? = some v) (others : v.owners.card ≠ 1) :
    Silent (closeConVar a name) s := by
  unfold closeConVar
  refine .get ?_
  cases (s.convarsOf a)[name]? with
  | none => exact .pure _
  | some id =>
      rw [there]
      refine .ite (fun last => absurd last (by simp [others])) fun _ => .modify (.get ?_)
      refine .ite (fun held => .bind ?_ fun _ _ _ => .pure _) fun _ => .pure _
      obtain ⟨value, found⟩ := Handles.contains_iff.mp held
      obtain ⟨left, removed⟩ := Handles.remove_of_look found
      have plain : State.holders [value] = [] := by
        refine holders_plain fun v member => ?_
        rw [List.mem_singleton.mp member]
        have kind := reach.held.typed id _ found
        exact kind ▸ (by decide : ConVarType ≠ ExtensionType)
      refine .get ?_
      rw [removed]
      refine .modify ?_
      rw [destroyAll_plain plain]
      exact .pure _

/-- The entries, the owners' maps and the live handles say the same; a creation or a
closing that fails changes none of them, and the host hears of the first and of the
last owner only. -/
theorem convars_owned (boot : Boot start) (reached : Reached start s stack) :
    (∀ name v, s.convars[name]? = some v → v.owners.Nonempty ∧ name ∈ s.hostConVars ∧
      (∀ a ∈ v.owners, (s.declared a)[name]? = some v.definition) ∧
      ∀ a ∈ v.owners, ∀ b ∈ v.owners, (s.manifest a).id = (s.manifest b).id) ∧
    (∀ name a, name ∈ s.convarsOf a ↔ ∃ v, s.convars[name]? = some v ∧ a ∈ v.owners) ∧
    (∀ name a id, (s.convarsOf a)[name]? = some id →
      s.handles.look id = some (conVarBinding (s.owner a) name) ∨ s.swept a = true) ∧
    (∀ id b, s.handles.look id = some b → b.type = ConVarType → ∃ name v a,
      b = conVarBinding (s.owner a) name ∧ s.convars[name]? = some v ∧ a ∈ v.owners) ∧
    Lookup.variable ∉ s.missed ∧
    (∀ a definition, (createConVar a definition s).Wp Reach Later fun outcome s' =>
      (outcome = .ok 0 ∨ ∃ x, outcome = .error x) → SameConVars s s') ∧
    (∀ a name, (closeConVar a name s).Wp Reach Later fun outcome s' =>
      outcome ≠ .ok true → s' = s) ∧
    (∀ a definition v, s.convars[definition.name]? = some v →
      Silent (createConVar a definition) s) ∧
    ∀ a name v, s.convars[name]? = some v → v.owners.card ≠ 1 → Silent (closeConVar a name) s := by
  have reach := reached.reach boot
  obtain ⟨entries, vouched⟩ := reach.declares
  have found : Lookup.variable ∉ s.missed := fun missed => by cases reach.missed _ missed
  refine ⟨fun name v there => ?_, entries.ledger.owned, fun name a id => vouched.handle a name id,
    fun id b found kind => ?_, found, createConVar_fails,
    closeConVar_fails reach, fun a definition v => createConVar_shared a definition,
    fun a name v => closeConVar_shared reach a⟩
  · exact ⟨entries.ledger.shared name v there, reach.hosts name (Tables.mem_iff.mpr ⟨v, there⟩),
      entries.agreed name v there, entries.plugin name v there⟩
  · obtain ⟨a, name, is, mine⟩ := vouched.entry id b found kind
    obtain ⟨v, there, member⟩ := entries.ledger.mem (Tables.mem_iff.mpr ⟨id, mine⟩)
    exact ⟨name, v, a, is, there, member⟩

/-- The script creates a ConVar while it starts. -/
def creatingConVar : History :=
  starting ++ [.start (.native 1 (.createConVar
    { name := "sr_limit", initial := .cell 3, minimum := .cell 0, maximum := .cell 9 })),
    .reply { native := 7 }]

theorem convars_owned_created : ∃ s stack, Reached (State.boot 0 ['!'] ['/']) s stack ∧
    ∃ v, s.convars["sr_limit"]? = some v ∧ v.owners.Nonempty ∧ "sr_limit" ∈ s.hostConVars := by
  obtain ⟨s, stack, reached, created⟩ := @History.reached creatingConVar
    (fun s => s.convars.contains "sr_limit") (by decide +kernel)
  obtain ⟨v, there⟩ := Tables.mem_iff.mp created
  obtain ⟨owned, hosted, -⟩ := (convars_owned boot_boot reached).1 _ v there
  exact ⟨s, stack, reached, v, there, owned, hosted⟩

/-! ## Leases -/

theorem State.Binds.users_loaded (reach : Reach s) {a : Addr} {r : Registration}
    (mine : r ∈ s.providersOf a) : s.vm a = true ∧ a < s.fresh := by
  have loaded : s.vm a = true := reach.bared.providers.loaded (Finset.ne_empty_of_mem mine)
  refine ⟨loaded, ?_⟩
  by_contra unborn
  rw [reach.living.unborn a (Nat.le_of_not_lt unborn)] at loaded
  cases loaded

/-- The host was asked for a lease when nobody used the service, and gave it back
with the last user. -/
def LeaseCall : Happening → Prop
  | .acquire _ _ users => users = 0
  | .release _ _ users => users = 1
  | _ => True

theorem Act.leaseCalls {s s' : State} {k : Kind} (act : Act k s s')
    (calls : ∀ e ∈ s.journal, LeaseCall e) : ∀ e ∈ s'.journal, LeaseCall e := by
  have other : ∀ events : List Happening, (∀ e ∈ events, LeaseCall e) →
      ∀ e ∈ s.journal ++ events, LeaseCall e := fun events fine e member =>
    (List.mem_append.mp member).elim (calls e) (fine e)
  cases act with
  | dropCommand a name owners removed =>
      cases removed with
      | true => exact other _ (by simp [LeaseCall])
      | false => exact calls
  | dropEvent a name owners removed =>
      cases removed with
      | true => exact other _ (by simp [LeaseCall])
      | false => exact calls
  | dropConVar a name id v released =>
      cases released with
      | true => exact other _ (by simp [LeaseCall])
      | false => exact calls
  | dropCallbacks a still =>
      refine other _ fun e member => ?_
      obtain ⟨token, -, rfl⟩ := List.mem_map.mp member
      trivial
  | _ => first | exact calls | exact other _ (by simp [LeaseCall])

theorem Reach.leaseCalls (reach : Reach s) : ∀ e ∈ s.journal, LeaseCall e := by
  induction reach with
  | boot first =>
      obtain ⟨now, publicTrigger, silentTrigger, rfl⟩ := first
      exact fun e member => nomatch member
  | act before change ih => exact change.leaseCalls ih

/-- Nobody comes to use a service, and nobody stops to use one. -/
structure SameUsers (s s' : State) : Prop where
  providers : s'.providers = s.providers
  providersOf : s'.providersOf = s.providersOf
  nativeDisplays : s'.nativeDisplays = s.nativeDisplays
  leases : s'.leases = s.leases

theorem SameUsers.refl (s : State) : SameUsers s s := ⟨rfl, rfl, rfl, rfl⟩

/-- The call itself gives nobody the service: who asked does so, and only if it succeeds. -/
theorem acquireProvider_users (service : String) (version users : Nat) :
    (acquireProvider service version users s).Wp Reach Later fun _ s' => SameUsers s s' := by
  unfold acquireProvider Foundation.host
  exact modify_wp (reply_wp fun r => ⟨rfl, rfl, rfl, rfl⟩)

theorem missed_users {β : Type} {lookup : Lookup} {α : Type} {found : Option α} {f : α → M β}
    {P : Except Raised β → Prop} (rest : ∀ value, found = some value →
      (f value s).Wp Reach Later fun outcome s' => P outcome → SameUsers s s') :
    ((Foundation.expect lookup found >>= f) s).Wp Reach Later fun outcome s' =>
      P outcome → SameUsers s s' := by
  cases found with
  | none => exact fun _ => ⟨rfl, rfl, rfl, rfl⟩
  | some value => exact rest value rfl

/-- A script whose service the host refused does not use it. -/
theorem bindProvider_refused (a : Addr) (r : Registration) :
    (bindProviders a [r] s).Wp Reach Later fun outcome s' =>
      outcome = .error .nativeError → SameUsers s s' := by
  have bound : ∀ t : State, ((do
      if !(← reply).flag then throw .runtimeError
      bindProviders a [] : M Unit) t).Wp Reach Later fun outcome s' =>
        outcome = .error .nativeError → SameUsers s s' := by
    refine fun t => reply_wp fun answer => ?_
    split
    · exact fun refused => by cases refused
    · exact fun refused => by cases refused
  unfold bindProviders
  refine reply_wp fun uses => wp_ite (fun _ => ?_) fun _ => fun refused => by cases refused
  refine get_wp (missed_users fun p there => ?_)
  refine wp_ite (fun _ => ?_) fun _ => modify_wp (bound _)
  refine bind_wp (acquireProvider_users p.service p.version _) (fun result t same => ?_) fun x t same => ?_
  · exact wp_ite (fun _ _ => same) fun _ => modify_wp (bound _)
  · exact fun _ => same

/-- A script that could not give a service back uses it still. -/
theorem releaseProvider_refused (a : Addr) (r : Registration) :
    (releaseProviders a [r] true s).Wp Reach Later fun outcome s' =>
      outcome ≠ .ok true → SameUsers s s' := by
  unfold releaseProviders
  refine get_wp (missed_users fun p there => ?_)
  refine wp_ite (fun _ _ => SameUsers.refl s) fun _ => ?_
  refine wp_ite (fun _ => modify_wp (host_wp fun result => ?_)) fun _ => modify_wp fun failed =>
    absurd rfl failed
  exact wp_ite (fun _ _ => ⟨rfl, rfl, rfl, rfl⟩) fun _ => modify_wp fun failed =>
    absurd rfl failed

theorem releaseNative_refused (slot : Int) :
    (releaseNative slot s).Wp Reach Later fun outcome s' =>
      outcome ≠ .ok true → SameUsers s s' := by
  unfold releaseNative
  refine get_wp (missed_users fun d there => ?_)
  refine wp_ite (fun _ => modify_wp (host_wp fun result => ?_)) fun _ => modify_wp fun failed =>
    absurd rfl failed
  exact wp_ite (fun _ _ => ⟨rfl, rfl, rfl, rfl⟩) fun _ => modify_wp fun failed =>
    absurd rfl failed

theorem unregisterNative_unused (reach : Reach s) (owner : PluginHandle) (r : Registration) :
    (unregisterNative owner r s).Wp Reach Later fun outcome _ =>
      outcome = .ok .ok → ∀ a, r ∉ s.providersOf a := by
  unfold unregisterNative
  refine get_wp ?_
  cases there : s.providers[r]? with
  | none => exact fun refused => by cases refused
  | some p =>
      refine wp_ite (fun _ => fun refused => by cases refused) fun _ => ?_
      refine wp_ite (fun _ => fun refused => by cases refused) fun free => ?_
      have unused : p.users = 0 := not_not.mp fun used => free (Or.inl used)
      refine modify_wp fun _ a member => ?_
      exact reach.binds.unused there unused (State.Binds.users_loaded reach member).2 member

/-- The host has leased a service exactly while it has users, was called for the first
and for the last only, and every provider counts the scripts that use it. -/
theorem leases_counted (boot : Boot start) (reached : Reached start s stack) :
    (∀ service version, (service, version) ∈ s.leases ↔ s.serviceUsers service version ≠ 0) ∧
    (∀ service version users, .acquire service version users ∈ s.journal → users = 0) ∧
    (∀ service version users, .release service version users ∈ s.journal → users = 1) ∧
    (∀ (r : Registration) (p : Provider), s.providers[r]? = some p → ∃ users : Finset Addr,
      p.users = users.card ∧ ∀ a, a ∈ users ↔ r ∈ s.providersOf a ∧ s.vm a = true) ∧
    (∀ a r, r ∈ s.providersOf a → s.vm a = true) ∧
    (∀ service version users, (acquireProvider service version users s).Wp Reach Later
      fun _ s' => SameUsers s s') ∧
    (∀ a r, (bindProviders a [r] s).Wp Reach Later fun outcome s' =>
      outcome = .error .nativeError → SameUsers s s') ∧
    (∀ a r, (releaseProviders a [r] true s).Wp Reach Later fun outcome s' =>
      outcome ≠ .ok true → SameUsers s s') ∧
    (∀ slot, (releaseNative slot s).Wp Reach Later fun outcome s' =>
      outcome ≠ .ok true → SameUsers s s') ∧
    ∀ owner r, (unregisterNative owner r s).Wp Reach Later fun outcome _ =>
      outcome = .ok .ok → ∀ a, r ∉ s.providersOf a := by
  have reach := reached.reach boot
  refine ⟨reach.leased, fun service version users member => reach.leaseCalls _ member,
    fun service version users member => reach.leaseCalls _ member, fun r p there => ?_,
    fun a r mine => (State.Binds.users_loaded reach mine).1, acquireProvider_users,
    bindProvider_refused, releaseProvider_refused, releaseNative_refused,
    unregisterNative_unused reach⟩
  refine ⟨usersOf s.providersOf s.fresh r, reach.binds.users r p there, fun a => ?_⟩
  simp only [usersOf, Finset.mem_filter, Finset.mem_range]
  refine ⟨fun user => ⟨user.2, (State.Binds.users_loaded reach user.2).1⟩, fun user => ?_⟩
  exact ⟨(State.Binds.users_loaded reach user.1).2, user.1⟩

/-- A native is registered, and a plugin that uses it is loaded. -/
def binding : History :=
  [.start (.service (.registerNative 5
      { name := "Clans_Level", service := "clans", version := 1 })),
    .start (.report (.load { directory := "a" })), .reply { manifest := some { id := "a" } },
    .reply {}, .reply {}, .reply {}, .reply {}, .reply {}, .reply {}]

theorem leases_counted_bound : ∃ s stack, Reached (State.boot 0 ['!'] ['/']) s stack ∧
    ("clans", 1) ∈ s.leases ∧ s.serviceUsers "clans" 1 ≠ 0 := by
  obtain ⟨s, stack, reached, leased⟩ := @History.reached binding
    (fun s => decide (("clans", 1) ∈ s.leases)) (by decide +kernel)
  have leased := of_decide_eq_true leased
  exact ⟨s, stack, reached, leased, ((leases_counted boot_boot reached).1 _ _).mp leased⟩

end Source2Root.Foundation
