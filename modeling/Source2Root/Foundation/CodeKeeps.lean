import Source2Root.Foundation.Control

/-!
# The common steps keep to the single changes

What the functions that all operations use do, in terms of the single changes.
-/

set_option autoImplicit false

namespace Source2Root.Foundation

open Reentrant Handles

variable {I : State → Prop} {E : Prop} {base s : State}

/-! ## Handles -/

theorem contains_of_owned {handles : Handles Resource} {id : HandleId} {owner type : Nat}
    (real : type ≠ 0) (member : id ∈ handles.owned owner type) :
    handles.contains id owner type = true := by
  obtain ⟨b, found, mine⟩ := mem_owned_iff.mp member
  simp only [Binding.matches, Bool.and_eq_true, Bool.or_eq_true, beq_iff_eq] at mine
  refine contains_iff.mpr ⟨b.value, ?_⟩
  rw [found]
  obtain ⟨owner', type', value⟩ := b
  obtain ⟨rfl, kind⟩ := mine
  rcases kind with zero | rfl
  · exact absurd zero real
  · rfl

theorem State.timer_live (reach : Reach s) {id : HandleId} {owner : Nat}
    (live : s.handles.contains id owner TimerType = true) : ∃ timer, s.timer id owner = some timer := by
  obtain ⟨value, found⟩ := contains_iff.mp live
  have kind := reach.held.typed id _ found
  cases value with
  | timer timer =>
      refine ⟨timer, ?_⟩
      unfold State.timer
      rw [get_iff.mpr found]
  | _ => cases kind

theorem State.player_live (reach : Reach s) {id : HandleId} {owner : Nat}
    (live : s.handles.contains id owner PlayerType = true) :
    ∃ player, s.player id owner = some player := by
  obtain ⟨value, found⟩ := contains_iff.mp live
  have kind := reach.held.typed id _ found
  cases value with
  | player player =>
      refine ⟨player, ?_⟩
      unfold State.player
      rw [get_iff.mpr found]
  | _ => cases kind

theorem limit_looks (within : Within base s) (a : Addr) :
    Looks base (limit a) s fun _ =>
      (s.state a = .loading ∨ s.state a = .running) ∧ s.load a < 128 := by
  unfold limit
  refine Runs.get ?_
  dsimp only
  split
  · exact Runs.throw within _ trivial
  rename_i live
  split
  · exact Runs.throw within _ trivial
  rename_i room
  refine Runs.pure within ⟨rfl, ?_, Nat.lt_of_not_le room⟩
  by_contra down
  exact live (not_or.mp down)

/-- `Limit` for a script of which a function runs. -/
theorem limit_active (within : Within base s) {a : Addr} (inside : s.active a ≠ 0) :
    Looks base (limit a) s fun _ => s.Making a ∧ s.vm a = true := by
  refine (limit_looks within a).mono fun _ s' _ both => ⟨both.1, ?_⟩
  obtain ⟨live, room⟩ := both.2
  refine ⟨⟨?_, room⟩, within.reach.living.loaded inside⟩
  rcases live with loading | running
  · exact Or.inr ⟨loading, inside⟩
  · exact Or.inl running

theorem limit_running (within : Within base s) {a : Addr} (running : s.state a = .running) :
    Looks base (limit a) s fun _ => s.Making a ∧ s.vm a = true := by
  refine (limit_looks within a).mono fun _ s' _ both => ⟨both.1, ?_⟩
  exact ⟨⟨Or.inl running, both.2.2⟩, (within.reach.living.home a (Or.inl running)).1⟩

theorem getHandle_looks (within : Within base s) (id : HandleId) (owner type : Nat) :
    Looks base (getHandle id owner type) s fun value => s.handles.get id owner type = .ok value := by
  unfold getHandle
  refine Runs.get ?_
  cases found : s.handles.get id owner type with
  | ok value => exact Runs.pure within ⟨rfl, rfl⟩
  | error _ => exact Runs.throw within _ trivial

theorem destroyValue_runs (within : Within base s) (holder : Nat) :
    Runs Reach E base (destroyValue holder) s fun _ _ => True := by
  unfold destroyValue
  refine Runs.get ?_
  split
  · refine Runs.modify ?_
    refine Runs.enter (within.act (.destroy holder) rfl) fun r s' within' _ => ?_
    exact Runs.pure within' trivial
  · exact Runs.pure within trivial

theorem destroyAll_runs (within : Within base s) (values : List Resource) :
    Runs Reach E base (destroyAll values) s fun _ _ => True :=
  Runs.forM destroyValue _ (fun _ _ _ within' _ => destroyValue_runs within' _) s within trivial

/-- Values without a destructor are destroyed without anybody noticing. -/
theorem destroyAll_plain {values : List Resource} (plain : State.holders values = []) :
    destroyAll values = pure () := by
  unfold destroyAll
  rw [plain]
  rfl

theorem holders_plain {values : List Resource} (plain : ∀ v ∈ values, v.type ≠ ExtensionType) :
    State.holders values = [] := by
  unfold State.holders
  apply List.filterMap_eq_nil_iff.mpr
  intro v member
  cases v with
  | extension e => exact absurd rfl (plain _ member)
  | _ => rfl

theorem remove_fails {handles : Handles Resource} {id : HandleId} {owner type : Nat}
    {refusal : Refusal} (failed : handles.remove id owner type = .error refusal) :
    handles.contains id owner type = false := by
  cases held : handles.contains id owner type with
  | false => rfl
  | true =>
      obtain ⟨value, found⟩ := contains_iff.mp held
      obtain ⟨left, removed⟩ := remove_of_look found
      rw [removed] at failed
      cases failed

theorem removeHandle_runs (within : Within base s) {a : Addr} {id : HandleId} {owner type : Nat}
    (mine : owner = s.owner a) (may : s.handles.contains id owner type = false → E)
    (plain : type ≠ ConVarType)
    (hidden : type = MenuType →
      ∀ (slot : Int) (d : Display), s.displays[slot]? = some d → d.menu ≠ id) :
    Runs Reach E base (removeHandle id owner type) s fun _ _ => True := by
  subst mine
  unfold removeHandle
  refine Runs.get ?_
  cases removed : s.handles.remove id (s.owner a) type with
  | error _ => exact Runs.throw within _ (may (remove_fails removed))
  | ok pair =>
      obtain ⟨value, handles⟩ := pair
      refine Runs.modify ?_
      exact destroyAll_runs (within.act (.removeHandle a id type value handles plain hidden removed)
        rfl) [value]

/-- The removal of a handle whose value needs no destruction. -/
theorem removeHandle_plain (within : Within base s) {a : Addr} {id : HandleId} {owner type : Nat}
    (mine : owner = s.owner a) (may : s.handles.contains id owner type = false → E)
    (plain : type ≠ ConVarType) (simple : type ≠ ExtensionType)
    (hidden : type = MenuType →
      ∀ (slot : Int) (d : Display), s.displays[slot]? = some d → d.menu ≠ id) :
    Runs I E base (removeHandle id owner type) s fun _ s' => ∃ value handles,
      s.handles.remove id owner type = .ok (value, handles) ∧ s' = s.detached handles [value] := by
  subst mine
  unfold removeHandle
  refine Runs.get ?_
  cases removed : s.handles.remove id (s.owner a) type with
  | error _ => exact Runs.throw within _ (may (remove_fails removed))
  | ok pair =>
      obtain ⟨value, handles⟩ := pair
      have none_ : State.holders [value] = [] := by
        refine holders_plain fun v member => ?_
        rw [List.mem_singleton.mp member]
        have kind := within.reach.held.typed id _ (look_remove removed).1
        exact fun is => simple (kind.trans is)
      refine Runs.modify ?_
      rw [destroyAll_plain none_]
      exact Runs.pure
        (within.act (.removeHandle a id type value handles plain hidden removed) rfl)
        ⟨value, handles, rfl, rfl⟩

/-! ## Players -/

theorem resolvePlayer_runs {I : State → Prop} {E : Prop} (within : Within base s) (a : Addr)
    (handle : HandleId) : Runs I E base (resolvePlayer a handle) s fun answer s' => s' = s ∧
      ∀ player, answer = .ok player → ∃ known, s.player handle (s.owner a) = some known ∧
        player.sameConnection known = true := by
  unfold resolvePlayer
  refine Runs.get ?_
  split
  · exact Runs.pure within ⟨rfl, fun _ is => (nomatch is)⟩
  rename_i live
  obtain ⟨known, found⟩ := State.player_live within.reach (by simpa using live)
  refine Runs.expected _ found (Runs.reply fun r => ?_)
  split
  · exact Runs.pure within ⟨rfl, fun _ is => (nomatch is)⟩
  split
  · exact Runs.pure within ⟨rfl, fun _ is => (nomatch is)⟩
  rename_i same
  refine Runs.pure within ⟨rfl, fun player is => ⟨known, found, ?_⟩⟩
  rw [← Except.ok.inj is]
  simpa using same

theorem resolvePlayer_looks (within : Within base s) (a : Addr) (handle : HandleId) :
    Looks base (resolvePlayer a handle) s fun answer => ∀ player, answer = .ok player →
      ∃ known, s.player handle (s.owner a) = some known ∧
        player.sameConnection known = true := resolvePlayer_runs within a handle

/-- `Allowed` raises only when the permission is none. -/
theorem allowed_runs {I : State → Prop} (within : Within base s) (a : Addr) (handle : HandleId)
    (permission : String) :
    Runs I (validPermission permission = false) base (allowed a handle permission) s fun _ s' =>
      s' = s ∧ validPermission permission = true := by
  unfold allowed
  dsimp only
  split
  · rename_i invalid
    exact Runs.throw within _ (by simpa using invalid)
  rename_i valid
  have valid : validPermission permission = true := by simpa using valid
  split
  · exact Runs.pure within ⟨rfl, valid⟩
  refine Runs.bind (resolvePlayer_runs within a handle) fun answer s' within' both => ?_
  obtain ⟨rfl, -⟩ := both
  cases answer with
  | error _ => exact Runs.pure within ⟨rfl, valid⟩
  | ok current =>
      refine Runs.get ?_
      exact Runs.pure within ⟨rfl, valid⟩

theorem allowed_looks (within : Within base s) (a : Addr) (handle : HandleId)
    (permission : String) :
    Looks base (allowed a handle permission) s fun _ => validPermission permission = true :=
  (allowed_runs within a handle permission).does

theorem findPlayer_looks (within : Within base s) (owner : Nat) (player : Player)
    {ids : List HandleId} (live : ∀ id ∈ ids, s.handles.contains id owner PlayerType = true) :
    Looks base (findPlayer owner player ids) s fun found => ∀ id, found = some id → id ∈ ids ∧
      ∃ known, s.player id owner = some known ∧ known.sameConnection player = true := by
  induction ids with
  | nil => exact Runs.pure within ⟨rfl, fun _ is => (nomatch is)⟩
  | cons id rest ih =>
      unfold findPlayer
      obtain ⟨known, there⟩ := State.player_live within.reach (live id List.mem_cons_self)
      refine Runs.get (Runs.expected _ there ?_)
      split
      · rename_i same
        refine Runs.pure within ⟨rfl, fun id' is => ?_⟩
        rw [← Option.some.inj is]
        exact ⟨List.mem_cons_self .., known, there, same⟩
      · refine (ih fun other member => live other (List.mem_cons_of_mem _ member)).mono
          fun found s' _ both => ⟨both.1, fun id' is => ?_⟩
        obtain ⟨member, known⟩ := both.2 id' is
        exact ⟨List.mem_cons_of_mem _ member, known⟩

theorem addHandle_does (within : Within base s) {a : Addr} {value : Resource}
    (making : s.Making a) (loaded : s.vm a = true)
    (plain : (∃ player, value = .player player) ∨ (∃ file, value = .configFile file) ∨
      ∃ menu : ScriptMenu, value = .menu menu ∧ menu.menu.items = [] ∧ menu.menu.selected = 0) :
    Does base (addHandle (s.owner a) value) s fun id s' => ∃ handles,
      s.handles.add (s.owner a) value.type value = .ok (id, handles) ∧
        s' = { s with handles } := by
  unfold addHandle
  refine Runs.get ?_
  cases added : s.handles.add (s.owner a) value.type value with
  | error _ => exact Runs.throw within _ trivial
  | ok pair =>
      obtain ⟨id, handles⟩ := pair
      refine Runs.modify ?_
      exact Runs.pure (within.act (.addHandle a value id handles making loaded plain added) rfl)
        ⟨handles, rfl, rfl⟩

/-- The script has a handle for the connection. -/
def State.HasPlayer (s : State) (a : Addr) (id : HandleId) (player : Player) : Prop :=
  ∃ known, s.player id (s.owner a) = some known ∧ known.slot = player.slot ∧
    known.connection = player.connection

theorem State.hasPlayer_add {a : Addr} {id : HandleId} {player : Player}
    {handles : Handles Resource}
    (added : s.handles.add (s.owner a) PlayerType (.player player) = .ok (id, handles)) :
    State.HasPlayer { s with handles } a id player := by
  obtain ⟨-, -, after⟩ := look_add added
  have found : handles.get id (s.owner a) PlayerType = .ok (.player player) := by
    rw [get_iff, after, if_pos rfl]
  exact ⟨player, State.player_of_get found, rfl, rfl⟩

/-- The script comes to have a handle for the connection, and nothing else changes. -/
theorem playerHandle_does (within : Within base s) {a : Addr} (player : Player)
    (awake : s.state a = .running ∨ s.active a ≠ 0) :
    Does base (playerHandle a player) s fun id s' =>
      (∃ handles, s' = { s with handles }) ∧ s'.HasPlayer a id player := by
  unfold playerHandle
  refine Runs.get ?_
  refine Looks.bind (findPlayer_looks within _ _ fun id => contains_of_owned (by decide))
    fun found member => ?_
  cases found with
  | some id =>
      obtain ⟨-, known, there, same⟩ := member id rfl
      obtain ⟨slot, -, connection⟩ := Player.sameConnection_iff.mp same
      exact Runs.pure within ⟨⟨_, rfl⟩, known, there, slot, connection⟩
  | none =>
      have limited : Looks base (limit a) s fun _ => s.Making a ∧ s.vm a = true := by
        rcases awake with running | inside
        · exact limit_running within running
        · exact limit_active within inside
      refine Looks.bind limited fun _ both => ?_
      refine (addHandle_does within both.1 both.2 (Or.inl ⟨player, rfl⟩)).mono ?_
      rintro id s' - ⟨handles, added, rfl⟩
      exact ⟨⟨handles, rfl⟩, State.hasPlayer_add added⟩

theorem playerHandle_keeps (within : Within base s) {a : Addr} (player : Player)
    (awake : s.state a = .running ∨ s.active a ≠ 0) :
    Keeps base (playerHandle a player) s := (playerHandle_does within player awake).fine

/-! ## Calls -/

/-- The call is over: `leave`, and `fault` if it failed. -/
def State.called (s : State) (a : Addr) (success : Bool) : State :=
  if success then s.leave a else (s.leave a).fault a

/-- A call that was begun by one of the single changes: what is known when it is
over. -/
theorem invoke_over {a : Addr} {reason : Reason} (reach : Reach s) {s' : State} (reach' : Reach s')
    (later : Later (s.enter a reason) s') (success : Bool) :
    Reach (s'.called a success) ∧ (s'.called a success).calls = s.calls ∧
      (s.managing = true → Quietly (s.enter a reason) (s'.called a success)) ∧
      Onward (s.enter a reason) (s'.called a success) := by
  have active : s'.active = Function.update s.active a (s.active a + 1) :=
    congrArg Calls.active later.calls
  have inside : s'.active a ≠ 0 := by
    rw [active, Function.update_self]
    exact Nat.succ_ne_zero _
  have outside : s'.active a = 1 → ∀ r, (a, r) ∉ s'.invocations := by
    intro last r member
    rw [active, Function.update_self] at last
    have same : s'.invocations = s.invocations := congrArg Calls.invocations later.calls
    rw [same] at member
    exact (reach.binds.inside a r member).1 (by omega)
  have restored : (s'.leave a).calls = s.calls := by
    have depth : s'.depth = s.depth + 1 := congrArg Calls.depth later.calls
    have level : Function.update s'.active a (s'.active a - 1) = s.active := by
      rw [active, Function.update_self, Function.update_idem, Nat.add_sub_cancel,
        Function.update_eq_self]
    have rest := later.calls
    simp only [State.calls, Calls.mk.injEq] at rest ⊢
    refine ⟨level, ?_, rest.2.2⟩
    show s'.depth - 1 = s.depth
    rw [depth, Nat.add_sub_cancel]
  have left : Reach (s'.leave a) := reach'.act (.leave a inside outside)
  cases success with
  | true =>
      have leaves : Act .quiet s' (s'.leave a) := .leave a inside outside
      refine ⟨left, restored, fun managed => ?_, later.onward.trans leaves.onward⟩
      exact (later.quietly managed).trans (leaves.quietly reach')
  | false =>
      have faults : Act .quiet s' (s'.fault a) := .fault a inside
      have faulted : Reach (s'.fault a) := reach'.act faults
      have both : Act .quiet (s'.fault a) ((s'.fault a).leave a) := .leave a inside outside
      refine ⟨faulted.act both, restored, fun managed => ?_,
        (later.onward.trans faults.onward).trans both.onward⟩
      exact ((later.quietly managed).trans (faults.quietly reach')).trans (both.quietly faulted)

/-- `Invoke`, whatever began it. -/
theorem invoke_wp {k : Kind} {a : Addr} {reason : Reason} (reach : Reach s)
    (act : Act k s (s.enter a reason)) {Q : Except Raised (Bool × Int) → State → Prop}
    (over_ : ∀ (r : Reply) (s' : State), Reach s' → s'.calls = s.calls →
      (s.managing = true → Quietly (s.enter a reason) s') → Onward (s.enter a reason) s' →
      Q (.ok (r.flag, r.cell)) s') :
    (invoke a reason s).Wp Reach Later Q := by
  unfold invoke
  refine wp_bind.mpr (wp_bind.mpr (wp_enter.mpr ⟨reach.act act, ?_⟩) :)
  intro r s' reach' later
  obtain ⟨reached, calls, quietly, onward⟩ := invoke_over reach reach' later r.flag
  have fine := over_ r _ reached calls quietly onward
  refine wp_bind.mpr ?_
  dsimp only
  cases flag : r.flag with
  | true =>
      rw [flag] at fine
      exact fine
  | false =>
      rw [flag] at fine
      exact fine

/-- A call of a running script. -/
theorem invoke_keeps (within : Within base s) {a : Addr} (reason : Reason)
    (running : s.state a = .running) (entitled : s.Entitled a reason) :
    Keeps base (invoke a reason) s := by
  have loaded := (within.reach.living.home a (Or.inl running)).1
  have act : Act .quiet s (s.enter a reason) := .enter a reason running loaded entitled
  refine invoke_wp within.reach act fun r s' reach calls quietly onward => ?_
  exact ⟨within.over act reach calls onward quietly, fun _ _ => trivial, fun _ _ => trivial⟩

/-! ## The voice service -/

/-- Nothing of the manager but the voice service and its world changes. -/
theorem runVoice_eq (s : State) (m : Voice.M Voice.Outcome) (replies : List Voice.Reply) :
    ∃ world voice, (s.runVoice m replies).2 = { s with world, voice } := ⟨_, _, rfl⟩

theorem voiceCall_runs (within : Within base s) (m : Voice.M Voice.Outcome) :
    Runs I E base (voiceCall m) s fun _ s' => ∃ world voice, s' = { s with world, voice } := by
  unfold voiceCall
  refine Runs.reply fun r => Runs.get ?_
  obtain ⟨world, voice, same⟩ := runVoice_eq s m r.voice
  dsimp only
  refine Runs.modify ?_
  rw [same]
  exact Runs.pure (within.act (.voice world voice) rfl) ⟨world, voice, rfl⟩

end Source2Root.Foundation
