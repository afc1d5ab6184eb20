import Source2Root.Foundation.PlayersKeep

/-!
# The natives keep to the single changes

A native is called while a function of its script runs, so the script has a virtual
machine; what `Limit` lets through is a script that may make new things.
-/

set_option autoImplicit false

namespace Source2Root.Foundation

open Reentrant Handles

variable {I : State → Prop} {E : Prop} {base s : State} {a : Addr}

/-! ## Commands, events -/

theorem foreign_false {owners : Finset Addr} (ours : s.foreign owners a = false) :
    ∀ b ∈ owners, (s.manifest b).id = (s.manifest a).id := by
  intro b member
  by_contra apart
  exact absurd (decide_eq_false_iff_not.mp ours) (not_not.mpr ⟨b, member, apart⟩)

theorem registerCommand_keeps (within : Within base s) (inside : s.active a ≠ 0)
    (name permission : String) (callback : Function) (usage : String) :
    Keeps base (registerCommand a name permission callback usage) s := by
  unfold registerCommand
  refine Looks.bind (limit_active within inside) fun _ ⟨making, loaded⟩ => ?_
  refine Runs.ite (fun _ => Runs.throw within _ trivial) fun _ => ?_
  refine Runs.ite (fun _ => Runs.throw within _ trivial) fun _ => Runs.get ?_
  refine Runs.ite (fun _ => Runs.pure within trivial) fun unowned => ?_
  have unowned : name ∉ s.commandsOf a := fun member => unowned (by simpa using member)
  cases there : s.commands[name]? with
  | some owners =>
      refine Runs.ite (fun _ => Runs.pure within trivial) fun ours => ?_
      have ours := foreign_false (by simpa using ours)
      refine Runs.modify (Runs.pure (within.act ?_ rfl) trivial)
      refine .addCommand a name _ false making loaded unowned (fun owners' found => ?_) ?_
      · rw [there] at found
        rw [← Option.some.inj found]
        exact ours
      · have member : name ∈ s.commands := Tables.mem_iff.mpr ⟨owners, there⟩
        simp [member]
  | none =>
      have absent : name ∉ s.commands := Tables.not_mem_iff.mpr there
      refine Runs.host fun result => Runs.ite (fun _ => Runs.pure within trivial) fun _ => ?_
      refine Runs.modify (Runs.pure (within.act ?_ rfl) trivial)
      refine .addCommand a name _ true making loaded unowned (fun owners found => ?_) ?_
      · rw [there] at found
        cases found
      · simp [absent]

theorem listenEvent_keeps (within : Within base s) (inside : s.active a ≠ 0)
    (name : String) (callback : Function) : Keeps base (listenEvent a name callback) s := by
  unfold listenEvent
  refine Looks.bind (limit_active within inside) fun _ ⟨making, loaded⟩ => ?_
  refine Runs.ite (fun _ => Runs.throw within _ trivial) fun _ => Runs.get ?_
  refine Runs.ite (fun _ => Runs.pure within trivial) fun unowned => ?_
  have unowned : name ∉ s.eventsOf a := fun member => unowned (by simpa using member)
  refine Runs.ite (fun there => ?_) fun absent => ?_
  · refine Runs.modify (Runs.pure (within.act ?_ rfl) trivial)
    have member : name ∈ s.events := by simpa using there
    exact .addEvent a name callback false making loaded unowned (by simp [member])
  · refine Runs.host fun result => Runs.ite (fun _ => Runs.pure within trivial) fun _ => ?_
    refine Runs.modify (Runs.pure (within.act ?_ rfl) trivial)
    have absent : name ∉ s.events := fun member => absent (by simpa using member)
    exact .addEvent a name callback true making loaded unowned (by simp [absent])

theorem setCommandMenu_keeps (within : Within base s) (inside : s.active a ≠ 0)
    (name : String) (callback : Function) : Keeps base (setCommandMenu a name callback) s := by
  unfold setCommandMenu
  refine Runs.get (Runs.ite (fun _ => Runs.pure within trivial) fun _ => ?_)
  cases there : (s.commandsOf a)[name]? with
  | none => exact Runs.pure within trivial
  | some command =>
      refine Runs.modify (Runs.pure (within.act ?_ rfl) trivial)
      exact .putCommand a name _ inside (Tables.mem_iff.mpr ⟨command, there⟩)

theorem commandOwner_running {name : String} {owner : Addr}
    (found : s.commandOwner name = some owner) : s.state owner = .running ∧
      ∃ owners, s.commands[name]? = some owners ∧ owner ∈ owners := by
  unfold State.commandOwner at found
  cases there : s.commands[name]? with
  | none =>
      rw [there] at found
      cases found
  | some owners =>
      rw [there] at found
      refine ⟨by simpa using List.find?_some found, owners, rfl, ?_⟩
      exact (Finset.mem_sort _).mp (List.mem_of_find?_eq_some found)

/-- A function of a running script is called, one menu call deeper. -/
theorem menuCall_keeps (within : Within base s) {owner : Addr} (reason : Reason)
    (free : ∀ t : State, t.Entitled owner reason) (running : s.state owner = .running) :
    Keeps base (do
      modify fun s => { s with menuCallDepth := s.menuCallDepth + 1 }
      let (success, _) ← invoke owner reason
      modify fun s => { s with menuCallDepth := s.menuCallDepth - 1 }
      return success) s := by
  have deeper : Act .quiet s { s with menuCallDepth := s.menuCallDepth + 1 } := .menuDeeper
  have reach := within.reach.act deeper
  have loaded := (within.reach.living.home owner (Or.inl running)).1
  refine Runs.modify (wp_bind.mpr (invoke_wp reach (.enter owner reason running loaded (free _))
    fun r s' reach' calls quietly onward => ?_))
  have back : Act .quiet s' { s' with menuCallDepth := s'.menuCallDepth - 1 } := .menuShallower
  have depth : s'.menuCallDepth = s.menuCallDepth + 1 := congrArg Calls.menuCallDepth calls
  have entered : Act .quiet { s with menuCallDepth := s.menuCallDepth + 1 }
      (State.enter { s with menuCallDepth := s.menuCallDepth + 1 } owner reason) :=
    .enter owner reason running loaded (free _)
  refine Runs.modify (Runs.pure (within.over deeper (reach'.act back) ?_
    ((entered.onward.trans onward).trans back.onward) fun managed => ?_) trivial)
  · simp only [State.calls, Calls.mk.injEq] at calls ⊢
    refine ⟨calls.1, calls.2.1, calls.2.2.1, calls.2.2.2.1, calls.2.2.2.2.1, ?_,
      calls.2.2.2.2.2.2⟩
    rw [depth, Nat.add_sub_cancel]
  · exact ((entered.quietly reach).trans (quietly managed)).trans (back.quietly reach')

theorem openCommandMenu_keeps (within : Within base s) (handle : HandleId) (name : String) :
    Keeps base (openCommandMenu a handle name) s := by
  unfold openCommandMenu
  refine Runs.get (Runs.ite (fun _ => Runs.pure within trivial) fun _ => ?_)
  refine Runs.ite (fun _ => Runs.pure within trivial) fun _ => ?_
  refine Looks.bind (resolvePlayer_looks within a handle) fun answer _ => ?_
  cases answer with
  | error _ => exact Runs.pure within trivial
  | ok caller =>
      refine Runs.get ?_
      cases found : s.commandOwner name with
      | none => exact Runs.pure within trivial
      | some owner =>
          obtain ⟨running, owners, there, member⟩ := commandOwner_running found
          obtain ⟨command, mine⟩ := within.reach.registers.command there member
          refine Runs.expected _ mine ?_
          refine Runs.ite (fun _ => Runs.pure within trivial) fun _ => ?_
          refine Runs.ite (fun _ => Runs.pure within trivial) fun _ => ?_
          refine Runs.ite (fun _ => Runs.pure within trivial) fun _ => ?_
          refine Runs.bind (playerHandle_does within caller (Or.inl running)) ?_
          rintro id s' within' ⟨⟨handles, rfl⟩, -⟩
          exact menuCall_keeps within' _ (fun _ => trivial) running

/-! ## Timers -/

theorem targetThere_looks (within : Within base s) (a : Addr) (target : HandleId) :
    Looks base (targetThere a target) s fun there => there = true →
      target = 0 ∨ ∃ player, s.player target (s.owner a) = some player := by
  unfold targetThere
  refine Runs.ite (fun zero => Runs.pure within ⟨rfl, fun _ => Or.inl zero⟩) fun _ => ?_
  refine Looks.bind (resolvePlayer_looks within a target) fun answer known => ?_
  cases answer with
  | error _ => exact Runs.pure within ⟨rfl, fun is => (nomatch is)⟩
  | ok player =>
      obtain ⟨expected, there, -⟩ := known player rfl
      exact Runs.pure within ⟨rfl, fun _ => Or.inr ⟨expected, there⟩⟩

theorem createTimer_keeps (within : Within base s) (inside : s.active a ≠ 0) (count : Int)
    (callback : Function) (target : HandleId) (acrossMaps : Int) :
    Keeps base (createTimer a count callback target acrossMaps) s := by
  unfold createTimer
  refine Looks.bind (limit_active within inside) fun _ ⟨making, loaded⟩ => ?_
  refine Runs.ite (fun _ => Runs.throw within _ trivial) fun counted => ?_
  refine Looks.bind (targetThere_looks within a target) fun there known => ?_
  refine Runs.ite (fun _ => Runs.pure within trivial) fun there' => ?_
  refine Runs.ite (fun _ => Runs.throw within _ trivial) fun bound => Runs.get ?_
  have positive : 0 < milliseconds count := by
    unfold milliseconds
    omega
  have aimed : target = 0 ∨ (acrossMaps == 1) = false ∧
      ∃ player, s.player target (s.owner a) = some player := by
    rcases known (by simpa using there') with zero | player
    · exact Or.inl zero
    · by_cases zero : target = 0
      · exact Or.inl zero
      · refine Or.inr ⟨?_, player⟩
        have unbound : acrossMaps = 0 := by
          by_contra across
          exact bound (Or.inr ⟨across, zero⟩)
        rw [unbound]
        rfl
  dsimp only
  split
  · rename_i id handles added
    refine Runs.modify (Runs.pure (within.act ?_ rfl) trivial)
    exact .addTimer a _ (milliseconds count) id handles making loaded positive rfl rfl aimed added
  · exact Runs.throw within _ trivial

theorem cancelTimer_keeps (within : Within base s) (a : Addr) (id : HandleId) :
    Keeps base (cancelTimer a id) s := by
  unfold cancelTimer
  refine Runs.get ?_
  exact removeHandle_runs within rfl (fun _ => trivial) (by decide) fun is => (by cases is)

/-! ## Menus -/

theorem createMenu_keeps (within : Within base s) (inside : s.active a ≠ 0)
    (title permission : String) (callback : Function) (back : Option Function) :
    Keeps base (createMenu a title permission callback back) s := by
  unfold createMenu
  refine Looks.bind (limit_active within inside) fun _ ⟨making, loaded⟩ => ?_
  refine Runs.ite (fun _ => Runs.throw within _ trivial) fun _ => Runs.get ?_
  exact (addHandle_does within making loaded (Or.inr (Or.inr ⟨_, rfl, rfl, rfl⟩))).fine

theorem getMenu_looks (within : Within base s) (a : Addr) (id : HandleId) :
    Looks base (getMenu a id) s fun menu => s.menu id (s.owner a) = some menu := by
  unfold getMenu
  refine Runs.get (Looks.bind (getHandle_looks within id (s.owner a) MenuType) fun value found => ?_)
  split
  · rename_i menu
    refine Runs.pure within ⟨rfl, ?_⟩
    unfold State.menu
    rw [found]
  · exact Runs.throw within _ trivial

theorem addMenuItem_keeps (within : Within base s) (id : HandleId) (text : String)
    (enabled value : Int) : Keeps base (addMenuItem a id text enabled value) s := by
  unfold addMenuItem
  refine Looks.bind (getMenu_looks within a id) fun menu there => ?_
  refine Runs.ite (fun _ => Runs.throw within _ trivial) fun _ => Runs.get ?_
  refine Runs.ite (fun _ => Runs.throw within _ trivial) fun _ => ?_
  refine Runs.ite (fun _ => Runs.throw within _ trivial) fun _ => ?_
  refine Runs.ite (fun _ => Runs.throw within _ trivial) fun _ => ?_
  refine Runs.modified (within.act (.putMenu a id menu _ there ?_) rfl) trivial
  have rows : menu.menu.Inside := within.reach.shown.inside id _ menu (menu_look there) rfl
  show menu.menu.selected < (menu.menu.items ++ [_]).length
  rw [List.length_append, List.length_singleton]
  rcases rows with ⟨-, first⟩ | row
  · omega
  · omega

/-- The menu has come on the screen of the player, in `s'` from `t`: on its first item,
where no menu was. -/
structure MenuOpened (s : State) (a : Addr) (id handle : HandleId) (timeout : Int)
    (menu : ScriptMenu) (player : Player) (t s' : State) : Prop where
  there : s.menu id (s.owner a) = some menu
  filled : menu.menu.items ≠ []
  valid : validPermission menu.menu.permission = true
  connected : player.sameConnection player = true
  is : s' = t.addDisplay a id handle player (milliseconds timeout)
  free : t.displays[player.slot]? = none
  dark : t.nativeDisplays[player.slot]? = none
  first : t.menu id (t.owner a) = some { menu with menu := { menu.menu with selected := 0 } }

theorem showMenu_runs (within : Within base s) (inside : s.active a ≠ 0) (id handle : HandleId)
    (timeout : Int) : Does base (showMenu a id handle timeout) s fun opened s' => opened = true →
      ∃ menu player t, MenuOpened s a id handle timeout menu player t s' := by
  unfold showMenu
  refine Looks.bind (limit_active within inside) fun _ ⟨_, loaded⟩ => ?_
  refine Looks.bind (getMenu_looks within a id) fun menu there => ?_
  refine Looks.bind (resolvePlayer_looks within a handle) fun answer resolved => ?_
  cases answer with
  | error _ => exact Runs.pure within fun yes => (nomatch yes)
  | ok player =>
      obtain ⟨known, -, same⟩ := resolved player rfl
      have connected := Player.sameConnection_trans same (Player.sameConnection_symm same)
      refine Looks.bind (allowed_looks within a handle _) fun permitted valid => ?_
      refine Runs.ite (fun _ => Runs.pure within fun yes => (nomatch yes)) fun _ => ?_
      refine Runs.ite (fun _ => Runs.throw within _ trivial) fun ready => Runs.get ?_
      refine Runs.ite (fun _ => Runs.throw within _ trivial) fun hidden => Runs.get ?_
      refine Runs.ite (fun _ => Runs.pure within fun yes => (nomatch yes)) fun running => ?_
      have running : s.state a = .running := not_not.mp running
      have filled : menu.menu.items ≠ [] := fun empty => ready (Or.inr (Or.inr (by simp [empty])))
      refine Runs.bind (closeDisplay_runs within player.slot) fun gone s' within' both => ?_
      refine Runs.ite (fun _ => Runs.pure within' fun yes => (nomatch yes)) fun closed => ?_
      obtain ⟨free, dark⟩ := both.2 (by simpa using closed)
      refine Runs.get (Runs.ite (fun _ => Runs.throw within' _ trivial) fun _ => ?_)
      -- nobody shows the menu, so closing the other one left its handle alone
      have unshown : ∀ (slot : Int) (d : Display), s.displays[slot]? = some d → d.menu ≠ id := by
        intro slot d at_slot is
        obtain ⟨live, look, -⟩ := within.reach.shown.menu slot d at_slot
        rw [is, menu_look there] at look
        have owner_eq : s.owner a = s.owner d.script :=
          congrArg Binding.owner (Option.some.inj look)
        have mine : d.script = a :=
          (within.reach.numbered.one a d.script owner_eq (look_owner (menu_look there))).symm
        exact hidden (State.shows_iff.mpr ⟨slot, d, at_slot, mine, is⟩)
      have kept := both.1.kept id _ (menu_look there) unshown
      obtain ⟨natives, leases, journal, displays, handles, rfl⟩ := both.1.only
      have live : State.menu { s with
          nativeDisplays := natives, leases, journal, displays, handles } id (s.owner a) =
          some menu := State.menu_of_get (get_iff.mpr kept)
      have put := within'.act (.putMenu a id menu
        { menu with menu := { menu.menu with selected := 0 } } live
        (List.length_pos_iff.mpr filled)) rfl
      refine Runs.modify (Runs.host fun result => ?_)
      refine Runs.ite (fun _ => Runs.pure put fun yes => (nomatch yes)) fun _ => ?_
      have after : (handles.put id (.menu { menu with menu := { menu.menu with selected := 0 } })).look
          id = some (menuBinding (s.owner a)
            { menu with menu := { menu.menu with selected := 0 } }) := by
        rw [look_put kept, if_pos rfl]
        rfl
      have first := State.menu_of_get (s := { s with
        nativeDisplays := natives, leases, journal, displays
        handles := handles.put id (.menu { menu with menu := { menu.menu with selected := 0 } }) })
        (get_iff.mpr after)
      refine Runs.modify (Runs.pure (put.act (.addDisplay a id handle player
        (milliseconds timeout) { menu with menu := { menu.menu with selected := 0 } } running loaded
        free dark first filled ?_) rfl) fun _ =>
          ⟨menu, player, _, ⟨there, filled, valid, connected, rfl, free, dark, first⟩⟩)
      refine Bool.eq_false_iff.mpr fun shows => ?_
      obtain ⟨slot, d, at_slot, -, is⟩ := State.shows_iff.mp shows
      exact unshown slot d (both.1.displays slot d at_slot) is

theorem showMenu_keeps (within : Within base s) (inside : s.active a ≠ 0) (id handle : HandleId)
    (timeout : Int) : Keeps base (showMenu a id handle timeout) s :=
  (showMenu_runs within inside id handle timeout).fine

theorem closeDisplays_runs (slots : List Int) :
    ∀ {s : State}, Within base s →
      Runs I E base (closeDisplays slots) s fun gone s' => Closes s s' ∧ (gone = true →
        ∀ slot ∈ slots, s'.displays[slot]? = none) := by
  induction slots with
  | nil => exact fun within => Runs.pure within ⟨Closes.refl _, fun _ _ member => (nomatch member)⟩
  | cons slot rest ih =>
      intro s within
      unfold closeDisplays
      refine Runs.bind (closeDisplay_runs within slot) fun gone s' within' both => ?_
      refine Runs.ite (fun _ => Runs.pure within' ⟨both.1, fun is => (nomatch is)⟩) fun closed => ?_
      have empty := (both.2 (by simpa using closed)).1
      refine (ih within').mono fun gone' s'' _ after => ⟨both.1.trans after.1, fun done => ?_⟩
      intro other member
      rcases List.mem_cons.mp member with rfl | later
      · by_contra some_
        obtain ⟨d, at_slot⟩ := Option.ne_none_iff_exists'.mp some_
        rw [after.1.displays other d at_slot] at empty
        cases empty
      · exact after.2 done other later

theorem closeMenu_keeps (within : Within base s) (id : HandleId) :
    Keeps base (closeMenu a id) s := by
  unfold closeMenu
  refine Looks.bind (getMenu_looks within a id) fun menu there => Runs.get ?_
  refine Runs.bind (closeDisplays_runs _ within) fun gone s' within' both => ?_
  refine Runs.ite (fun _ => Runs.pure within' trivial) fun closed => Runs.get ?_
  have empty := both.2 (by simpa using closed)
  refine Runs.ite (fun _ => ?_) fun _ => Runs.pure within' trivial
  have same_owner : s'.owner = s.owner := by
    obtain ⟨natives, leases, journal, displays, handles, rfl⟩ := both.1.only
    rfl
  refine Keeps.bind (removeHandle_runs within' (congrFun same_owner a).symm (fun _ => trivial)
    (by decide) fun _ slot d at_slot is => ?_) fun _ s'' within'' => Runs.pure within'' trivial
  -- the menu is the script's own, and all of its displays were closed
  have before := both.1.displays slot d at_slot
  obtain ⟨live, look, -⟩ := within.reach.shown.menu slot d before
  rw [is, menu_look there] at look
  have owner_eq : s.owner a = s.owner d.script := congrArg Binding.owner (Option.some.inj look)
  have mine : d.script = a :=
    (within.reach.numbered.one a d.script owner_eq (look_owner (menu_look there))).symm
  have member : slot ∈ (s.displays.toList.filter
      fun entry => entry.2.script == a && entry.2.menu == id).map Prod.fst := by
    refine List.mem_map.mpr ⟨(slot, d), List.mem_filter.mpr ⟨Tables.mem_toList.mpr before, ?_⟩, rfl⟩
    simp [mine, is]
  rw [empty slot member] at at_slot
  cases at_slot

/-! ## ConVars -/

/-- A handle is added, and what follows before anybody else runs. -/
theorem addHandle_then {β : Type} {Q : Except Raised β → State → Prop} {owner : Nat}
    {value : Resource} {f : HandleId → M β} (may : Q (.error .runtimeError) s)
    (rest : ∀ id handles, s.handles.add owner value.type value = .ok (id, handles) →
      (f id { s with handles }).Wp Reach Later Q) :
    ((addHandle owner value >>= f) s).Wp Reach Later Q := by
  refine wp_bind.mpr (get_wp ?_)
  cases added : s.handles.add owner value.type value with
  | ok pair => exact rest pair.1 pair.2 added
  | error _ => exact may

theorem detached_plain {handles : Handles Resource} {values : List Resource}
    (plain : State.holders values = []) : s.detached handles values = { s with handles } := by
  unfold State.detached
  rw [plain, List.toFinset_nil, Finset.union_empty]

/-- A handle without a destructor is removed, and what follows before anybody
else runs. -/
theorem removeHandle_then {β : Type} {Q : Except Raised β → State → Prop} {owner type : Nat}
    {id : HandleId} {value : Resource} {left : Handles Resource} {f : Unit → M β}
    (removed : s.handles.remove id owner type = .ok (value, left))
    (plain : State.holders [value] = [])
    (rest : (f () { s with handles := left }).Wp Reach Later Q) :
    ((removeHandle id owner type >>= f) s).Wp Reach Later Q := by
  refine wp_bind.mpr (get_wp ?_)
  rw [removed]
  refine modify_wp ?_
  rw [destroyAll_plain plain]
  show (f () (s.detached left [value])).Wp Reach Later Q
  rw [detached_plain plain]
  exact rest

/-- A handle that was just added goes again. -/
theorem added_removed {handles after : Handles Resource} {owner type : Nat} {value : Resource}
    {id : HandleId} (added : handles.add owner type value = .ok (id, after)) :
    ∃ left, after.remove id owner type = .ok (value, left) := by
  obtain ⟨-, -, found⟩ := look_add added
  refine remove_of_look ?_
  rw [found, if_pos rfl]

theorem createConVar_keeps (within : Within base s) (inside : s.active a ≠ 0)
    (definition : ConVarDefinition) : Keeps base (createConVar a definition) s := by
  unfold createConVar
  refine Looks.bind (limit_active within inside) fun _ ⟨making, loaded⟩ => ?_
  refine Runs.ite (fun _ => Runs.throw within _ trivial) fun _ => Runs.get ?_
  refine Runs.ite (fun _ => Runs.pure within trivial) fun unowned => ?_
  have unowned : definition.name ∉ s.convarsOf a := fun member => unowned (by simpa using member)
  have failed := Runs.throw (I := Reach) (α := HandleId) (P := fun _ _ => True) within .runtimeError trivial
  cases there : s.convars[definition.name]? with
  | some v =>
      refine Runs.ite (fun _ => Runs.pure within trivial) fun ours => ?_
      have ours := foreign_false (by simpa using ours)
      refine Runs.ite (fun _ => Runs.pure within trivial) fun same => ?_
      have same : v.definition = definition := not_not.mp same
      refine addHandle_then failed fun id handles added => ?_
      refine Runs.modify (Runs.pure (within.act ?_ rfl) trivial)
      exact .addConVar a definition id handles v false making loaded unowned ours same there added
  | none =>
      refine addHandle_then failed fun id handles added => ?_
      refine Runs.reply fun r => Runs.ite (fun _ => ?_) fun _ => ?_
      · obtain ⟨left, removed⟩ := added_removed added
        refine removeHandle_then removed rfl (Runs.pure (within.act ?_ rfl) trivial)
        exact .flashConVar a definition.name id handles left making added removed
      · refine Runs.modify (Runs.pure (within.act ?_ rfl) trivial)
        exact .addConVar a definition id handles { definition, native := r.native } true making loaded
          unowned (fun b member => absurd member (Finset.notMem_empty b)) rfl ⟨there, rfl⟩ added

/-- What closing a ConVar does: nothing, or the entry and the handle go together. -/
theorem closeConVar_wp (reach : Reach s) (a : Addr) (name : String)
    {Q : Except Raised Bool → State → Prop} (same : Q (.ok false) s)
    (closed : ∀ s', (∀ k, s.Permit a k → Act k s s') → s'.calls = s.calls →
      (∃ v released handles, s' = { s.dropConVar a name v released with handles }) →
      Q (.ok true) s') :
    (closeConVar a name s).Wp Reach Later Q := by
  unfold closeConVar
  refine get_wp ?_
  cases owned : (s.convarsOf a)[name]? with
  | none => exact same
  | some id =>
  cases there : s.convars[name]? with
  | none => exact same
  | some v =>
    -- the entry goes, and the handle with it
    have dropped : ∀ released : Bool, released = decide (v.owners.card = 1 ∧ v.native ≠ 0) →
        Tree.Wp Reach Later Q ((do
          modify (·.dropConVar a name v released)
          if (← get).handles.contains id (s.owner a) ConVarType then
            removeHandle id (s.owner a) ConVarType
          return true : M Bool) s) := by
      intro released last
      refine modify_wp (get_wp (wp_ite (fun held => ?_) fun gone => ?_))
      · obtain ⟨value, found⟩ := contains_iff.mp held
        obtain ⟨left, removed⟩ := remove_of_look found
        have plain : State.holders [value] = [] := by
          refine holders_plain fun v member => ?_
          rw [List.mem_singleton.mp member]
          have kind := reach.held.typed id _ found
          exact kind ▸ (by decide : ConVarType ≠ ExtensionType)
        refine removeHandle_then removed plain (closed _ (fun k permit => ?_) rfl
          ⟨v, released, left, rfl⟩)
        exact .dropConVar a name id v released left permit owned there last (Or.inl ⟨value, removed⟩)
      · refine closed _ (fun k permit => ?_) rfl ⟨v, released, s.handles, rfl⟩
        refine .dropConVar a name id v released s.handles permit owned there last
          (Or.inr ⟨fun value found => gone ?_, rfl⟩)
        exact contains_iff.mpr ⟨value, found⟩
    have first : (v.owners.card == 1 && v.native != 0) =
        decide (v.owners.card = 1 ∧ v.native ≠ 0) := by
      rw [Bool.decide_and, bne, decide_not]
      rfl
    refine wp_ite (fun _ => host_wp fun result => ?_) fun _ => dropped _ first
    exact wp_ite (fun _ => same) fun _ => dropped _ first

theorem getConVar_looks (within : Within base s) (a : Addr) (handle : HandleId) :
    Looks base (getConVar a handle) s fun name =>
      s.handles.look handle = some (conVarBinding (s.owner a) name) := by
  unfold getConVar
  refine Runs.get (Looks.bind (getHandle_looks within handle (s.owner a) ConVarType)
    fun value found => ?_)
  split
  · exact Runs.pure within ⟨rfl, get_iff.mp found⟩
  · exact Runs.throw within _ trivial

theorem closeConVarNative_keeps (within : Within base s) (inside : s.active a ≠ 0)
    (handle : HandleId) : Keeps base (closeConVarNative a handle) s := by
  unfold closeConVarNative
  refine Looks.bind (getConVar_looks within a handle) fun name _ => ?_
  refine closeConVar_wp within.reach a name ?_ fun s' act calls _ => ?_
  · exact ⟨within, fun _ _ => trivial, fun _ _ => trivial⟩
  · have act := act .quiet (Or.inl ⟨rfl, inside⟩)
    exact ⟨within.act act calls, fun _ _ => trivial, fun _ _ => trivial⟩

/-- An order to the engine, which may act on it before it answers. -/
theorem order_keeps (within : Within base s) :
    Keeps base (do return (← Code.enter).result = .ok : M Bool) s :=
  Runs.enter within fun _ _ within' _ => Runs.pure within' trivial

theorem writeConVar_keeps (within : Within base s) (handle : HandleId) (value : ConVarValue) :
    Keeps base (writeConVar a handle value) s := by
  have written : Keeps base (do
      let r ← Code.enter
      return r.result = .ok : M Bool) s := order_keeps within
  have refused : ∀ f : Unit → M Bool, Keeps base (do let x ← throw .nativeError; f x) s := fun f =>
    Runs.bind (P := fun _ _ => False) (Runs.throw within _ trivial) fun _ _ _ never => never.elim
  unfold writeConVar
  refine Looks.bind (getConVar_looks within a handle) fun name live => Runs.get ?_
  obtain ⟨b, other, same, mine⟩ := within.reach.declares.2.entry _ _ live rfl
  cases Resource.conVar.inj (congrArg Binding.value same)
  obtain ⟨v, there, -⟩ := within.reach.declares.1.ledger.mem (Tables.mem_iff.mpr ⟨_, mine⟩)
  refine Runs.expected _ there ?_
  refine Runs.ite (fun _ => Runs.pure within trivial) fun _ => ?_
  refine Runs.ite (fun _ => Runs.pure within trivial) fun _ => ?_
  cases value with
  | cell value => exact written
  | float bits => exact Runs.ite (fun _ => refused _) fun _ => written
  | string text => exact Runs.ite (fun _ => refused _) fun _ => written

/-! ## Players, communication, the server -/

theorem playerAction_keeps (within : Within base s) (handle : HandleId) :
    Keeps base (playerAction a handle) s := by
  unfold playerAction
  refine Runs.get (Runs.ite (fun _ => Runs.pure within trivial) fun _ => ?_)
  refine Looks.bind (resolvePlayer_looks within a handle) fun answer _ => ?_
  cases answer with
  | error _ => exact Runs.pure within trivial
  | ok _ => exact order_keeps within

theorem findTargets_keeps (within : Within base s) (inside : s.active a ≠ 0) (capacity : Int) :
    Keeps base (findTargets a capacity) s :=
  Runs.reply fun _ => makePlayerHandles_keeps within inside _ capacity

theorem setPlayerMuted_keeps (within : Within base s) (handle : HandleId) (muted : Bool) :
    Keeps base (setPlayerMuted a handle muted) s := by
  unfold setPlayerMuted
  refine Runs.get (Runs.ite (fun _ => Runs.pure within trivial) fun _ => ?_)
  refine Looks.bind (resolvePlayer_looks within a handle) fun answer _ => ?_
  cases answer with
  | error _ => exact Runs.pure within trivial
  | ok player => exact Runs.get (voiceCall_runs within _).fine

theorem setPlayerGagged_keeps (within : Within base s) (handle : HandleId) (gagged : Bool) :
    Keeps base (setPlayerGagged a handle gagged) s := by
  unfold setPlayerGagged
  refine Runs.get (Runs.ite (fun _ => Runs.pure within trivial) fun running => ?_)
  have running : s.state a = .running := not_not.mp running
  refine Looks.bind (resolvePlayer_looks within a handle) fun answer _ => ?_
  cases answer with
  | error _ => exact Runs.pure within trivial
  | ok player =>
      refine Runs.modify ?_
      cases gagged with
      | true => exact Runs.pure (within.act (.setGag a player running) rfl) trivial
      | false => exact Runs.pure (within.act (.eraseGag a player.slot) rfl) trivial

theorem changeMap_keeps (within : Within base s) (inside : s.active a ≠ 0) (name : String) :
    Keeps base (changeMap a name) s := by
  unfold changeMap
  refine Runs.get (Runs.ite (fun _ => Runs.pure within trivial) fun running => ?_)
  refine Runs.ite (fun _ => Runs.pure within trivial) fun _ => Runs.get ?_
  refine Runs.ite (fun _ => Runs.pure within trivial) fun free => Runs.reply fun r => ?_
  refine Runs.ite (fun _ => Runs.pure within trivial) fun _ => ?_
  have free : s.pendingMap = none := by simpa using free
  have act : Act .quiet s (s.askMap a name) := .askMap a name (not_not.mp running) inside free
  exact Runs.modify (Runs.pure (within.act act rfl) trivial)

theorem restartRound_keeps (within : Within base s) (seconds : Int) :
    Keeps base (restartRound a seconds) s := by
  unfold restartRound
  refine Runs.get (Runs.ite (fun _ => Runs.pure within trivial) fun _ => ?_)
  exact Runs.ite (fun _ => Runs.pure within trivial) fun _ => order_keeps within

theorem reloadPermissions_keeps (within : Within base s) : Keeps base reloadPermissions s := by
  unfold reloadPermissions
  refine Runs.reply fun r => ?_
  cases r.permissions with
  | none => exact Runs.throw within _ trivial
  | some permissions => exact Runs.modified (within.act (.permissions permissions) rfl) trivial

theorem reloadAdmins_keeps (within : Within base s) (handle : HandleId) :
    Keeps base (reloadAdmins a handle) s := by
  unfold reloadAdmins
  refine Looks.bind (allowed_looks within a handle _) fun permitted _ => ?_
  refine Runs.ite (fun _ => Runs.pure within trivial) fun _ => ?_
  refine Runs.handle (P := fun _ _ => True) ?_ fun _ s' within' => Runs.pure within' trivial
  exact Keeps.bind (reloadPermissions_keeps within) fun _ s' within' => Runs.pure within' trivial

/-! ## Settings -/

theorem setSetting_keeps (within : Within base s) (name value : List Char) :
    Keeps base (setSetting name value) s := by
  unfold setSetting
  refine Runs.get ?_
  cases changed : s.settings.set name value with
  | error _ => exact Runs.pure within trivial
  | ok settings =>
      have act := within.act (.configure settings (Or.inl ⟨name, value, changed⟩)) rfl
      exact Runs.modify (Runs.pure act trivial)

theorem setSettings_keeps (within : Within base s) (values : Settings.Field → List Char) :
    Keeps base (setSettings values) s := by
  unfold setSettings
  refine Runs.get ?_
  cases changed : s.settings.setAll values with
  | error _ => exact Runs.pure within trivial
  | ok settings =>
      have act := within.act (.configure settings (Or.inr ⟨values, changed⟩)) rfl
      exact Runs.modify (Runs.pure act trivial)

/-! ## Configuration files -/

theorem openConfigFile_keeps (within : Within base s) (inside : s.active a ≠ 0) (name : String) :
    Keeps base (openConfigFile a name) s := by
  unfold openConfigFile
  refine Looks.bind (limit_active within inside) fun _ ⟨making, loaded⟩ => ?_
  refine Runs.ite (fun _ => Runs.pure within trivial) fun _ => Runs.get ?_
  refine Runs.ite (fun _ => Runs.pure within trivial) fun _ => Runs.reply fun r => ?_
  refine Runs.ite (fun _ => Runs.pure within trivial) fun _ => ?_
  split
  · rename_i id handles added
    refine Runs.modify (Runs.pure (within.act ?_ rfl) trivial)
    exact .addHandle a (.configFile { text := r.text }) id handles making loaded
      (Or.inr (Or.inl ⟨_, rfl⟩)) added
  · exact Runs.pure within trivial

theorem readConfigLine_keeps (within : Within base s) (id : HandleId) (capacity : Nat) :
    Keeps base (readConfigLine a id capacity) s := by
  unfold readConfigLine
  refine Runs.get (Looks.bind (getHandle_looks within id (s.owner a) ConfigFileType)
    fun value found => ?_)
  split
  · rename_i file
    refine Runs.ite (fun _ => Runs.pure within trivial) fun _ => ?_
    refine Runs.ite (fun _ => Runs.pure within trivial) fun _ => ?_
    refine Runs.modify (Runs.pure (within.act ?_ rfl) trivial)
    exact .putFile a id file _ found
  · exact Runs.throw within _ trivial

theorem closeConfigFile_keeps (within : Within base s) (a : Addr) (id : HandleId) :
    Keeps base (closeConfigFile a id) s := by
  unfold closeConfigFile
  refine Runs.get ?_
  exact removeHandle_runs within rfl (fun _ => trivial) (by decide) fun is => (by cases is)

end Source2Root.Foundation
