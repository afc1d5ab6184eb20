import Source2Root.Foundation.Living

/-!
# What scripts hold

Every live handle is of the type of its value and belongs to a script that was
born; a script that is not loaded has nothing; and no script has more than the
quota.
-/

set_option autoImplicit false

namespace Source2Root.Foundation

open Handles

/-! ## Handles -/

/-- Every live handle has an owner number that was given out, and the type of its
value. -/
structure Held (handles : Handles Resource) (nextOwner : Nat) : Prop where
  typed : ∀ id b, handles.look id = some b → b.type = b.value.type
  below : ∀ id b, handles.look id = some b → b.owner < nextOwner

section Held

variable {handles left : Handles Resource} {nextOwner : Nat}

theorem Held.less (held : Held handles nextOwner) (less : Less handles left) :
    Held left nextOwner :=
  ⟨fun id b found => held.typed id b (less.look id b found),
    fun id b found => held.below id b (less.look id b found)⟩

theorem Held.add (held : Held handles nextOwner) {owner type : Nat} {value : Resource}
    {id : HandleId} (below : owner < nextOwner)
    (added : handles.add owner type value = .ok (id, left)) (kind : type = value.type) :
    Held left nextOwner := by
  obtain ⟨-, -, after⟩ := look_add added
  refine ⟨?_, ?_⟩
  · intro other b found
    rw [after] at found
    split at found
    · cases found
      exact kind
    · exact held.typed other b found
  · intro other b found
    rw [after] at found
    split at found
    · cases found
      exact below
    · exact held.below other b found

theorem Held.put (held : Held handles nextOwner) {owner type : Nat} {id : HandleId}
    {before after : Resource} (there : handles.get id owner type = .ok before)
    (same : after.type = before.type) : Held (handles.put id after) nextOwner := by
  have found := get_iff.mp there
  refine ⟨?_, ?_⟩
  · intro other b there_b
    rw [look_put found] at there_b
    split at there_b
    · cases there_b
      exact (held.typed id _ found).trans same.symm
    · exact held.typed other b there_b
  · intro other b there_b
    rw [look_put found] at there_b
    split at there_b
    · cases there_b
      have below := held.below id _ found
      exact below
    · exact held.below other b there_b

end Held

theorem State.menu_of_get {s : State} {id : HandleId} {owner : Nat} {menu : ScriptMenu}
    (found : s.handles.get id owner MenuType = .ok (.menu menu)) :
    s.menu id owner = some menu := by rw [State.menu, found]

theorem State.menu_get {s : State} {id : HandleId} {owner : Nat} {menu : ScriptMenu}
    (there : s.menu id owner = some menu) :
    s.handles.get id owner MenuType = .ok (.menu menu) := by
  unfold State.menu at there
  split at there
  · rename_i found
    cases there
    exact found
  · cases there

theorem State.timer_of_get {s : State} {id : HandleId} {owner : Nat} {timer : Timer}
    (found : s.handles.get id owner TimerType = .ok (.timer timer)) :
    s.timer id owner = some timer := by rw [State.timer, found]

theorem State.timer_get {s : State} {id : HandleId} {owner : Nat} {timer : Timer}
    (there : s.timer id owner = some timer) :
    s.handles.get id owner TimerType = .ok (.timer timer) := by
  unfold State.timer at there
  split at there
  · rename_i found
    cases there
    exact found
  · cases there

theorem State.player_of_get {s : State} {id : HandleId} {owner : Nat} {player : Player}
    (found : s.handles.get id owner PlayerType = .ok (.player player)) :
    s.player id owner = some player := by rw [State.player, found]

theorem State.player_get {s : State} {id : HandleId} {owner : Nat} {player : Player}
    (there : s.player id owner = some player) :
    s.handles.get id owner PlayerType = .ok (.player player) := by
  unfold State.player at there
  split at there
  · rename_i found
    cases there
    exact found
  · cases there

theorem Act.held {s s' : State} {k : Kind} (act : Act k s s')
    (numbered : Numbered s.nextOwner s.fresh s.owner) (held : Held s.handles s.nextOwner) :
    Held s'.handles s'.nextOwner := by
  cases act with
  | closeMenu slot d value handles there removed => exact held.less (less_remove removed)
  | addHandle a value id handles making loaded plain added => exact held.add (numbered.below a) added rfl
  | addTimer a timer delay id handles making loaded positive due serial target added =>
      exact held.add (numbered.below a) added rfl
  | createResource a r p type value id handles making bound there owned added =>
      exact held.add (numbered.below a) added rfl
  | removeHandle a id type value handles plain hidden removed => exact held.less (less_remove removed)
  | retirePlayers => exact held.less (less_retire ..)
  | retireMenus => exact held.less (less_retire ..)
  | retireResources => exact held.less (less_retire ..)
  | retireRest => exact held.less (less_retire ..)
  | putMenu a id before after there => exact held.put (State.menu_get there) rfl
  | putFile a id before after there => exact held.put there rfl
  | putTimer a id timer elapsed there => exact held.put (State.timer_get there) rfl
  | addConVar a name id handles v created making loaded unowned ours named known added =>
      exact held.add (numbered.below a) added rfl
  | flashConVar a name id handles left making added removed =>
      exact (held.add (numbered.below a) added rfl).less (less_remove removed)
  | dropConVar a name id v released handles permit owned there last removed =>
      rcases removed with ⟨value, removed⟩ | ⟨-, same⟩
      · exact held.less (less_remove removed)
      · exact same ▸ held
  | prepare => exact ⟨held.typed, fun id b found => Nat.lt_succ_of_lt (held.below id b found)⟩
  | _ => exact held

theorem Reach.held {s : State} (reach : Reach s) : Held s.handles s.nextOwner := by
  induction reach with
  | boot first =>
      obtain ⟨now, publicTrigger, silentTrigger, rfl⟩ := first
      have nothing : ∀ id, (({} : Handles Resource).look id) = none := by
        intro id
        simp [Handles.look]
      exact ⟨fun id b found => absurd found (by simp [State.boot, nothing]),
        fun id b found => absurd found (by simp [State.boot, nothing])⟩
  | act before change ih => exact change.held before.numbered ih

/-! ## Scripts that are not loaded -/

/-- A table of the scripts in which only loaded ones have entries. -/
def Spare {T : Type} [EmptyCollection T] (vm : Addr → Bool) (table : Addr → T) : Prop :=
  ∀ a, vm a = false → table a = ∅

section Spare

variable {T : Type} [EmptyCollection T] {vm : Addr → Bool} {table : Addr → T}

theorem Spare.update (spare : Spare vm table) {a : Addr} {entry : T}
    (fine : vm a = true ∨ entry = ∅) : Spare vm (Function.update table a entry) := by
  intro b unloaded
  rw [Function.update_apply]
  split
  · rcases fine with loaded | empty
    · rw [← ‹b = a›, unloaded] at loaded
      exact nomatch loaded
    · exact empty
  · exact spare b unloaded

theorem Spare.reset (spare : Spare vm table) {a : Addr} (empty : table a = ∅) :
    Spare (Function.update vm a false) table := by
  intro b
  rw [Function.update_apply]
  split
  · exact fun _ => ‹b = a› ▸ empty
  · exact spare b

theorem Spare.load (spare : Spare vm table) (a : Addr) :
    Spare (Function.update vm a true) table := by
  intro b
  rw [Function.update_apply]
  split
  · exact fun loaded => (nomatch loaded)
  · exact spare b

theorem Spare.born (spare : Spare vm table) (a : Addr) :
    Spare (Function.update vm a false) (Function.update table a ∅) :=
  (spare.update (Or.inr rfl)).reset (Function.update_self ..)

/-- An entry shows that the script is loaded. -/
theorem Spare.loaded (spare : Spare vm table) {a : Addr} (some_ : table a ≠ ∅) : vm a = true := by
  by_contra unloaded
  exact some_ (spare a (by simpa using unloaded))

end Spare

/-- No handle belongs to a script that is not loaded. -/
def Unheld (vm : Addr → Bool) (owner : Addr → Nat) (handles : Handles Resource) : Prop :=
  ∀ a, vm a = false → ∀ id b, handles.look id = some b → b.owner ≠ owner a

section Unheld

variable {vm : Addr → Bool} {owner : Addr → Nat} {handles left : Handles Resource}

theorem Unheld.less (unheld : Unheld vm owner handles) (less : Less handles left) :
    Unheld vm owner left :=
  fun a unloaded id b found => unheld a unloaded id b (less.look id b found)

theorem Unheld.add (unheld : Unheld vm owner handles) {nextOwner : Nat} {fresh a : Addr}
    (numbered : Numbered nextOwner fresh owner) {type : Nat} {value : Resource} {id : HandleId}
    (loaded : vm a = true) (added : handles.add (owner a) type value = .ok (id, left)) :
    Unheld vm owner left := by
  obtain ⟨real, -, after⟩ := look_add added
  intro c unloaded other b found
  rw [after] at found
  split at found
  · cases found
    intro same
    rw [numbered.one a c same real, unloaded] at loaded
    exact nomatch loaded
  · exact unheld c unloaded other b found

theorem Unheld.put (unheld : Unheld vm owner handles) {number type : Nat} {id : HandleId}
    {before : Resource} (there : handles.get id number type = .ok before) (after : Resource) :
    Unheld vm owner (handles.put id after) := by
  have found := get_iff.mp there
  intro c unloaded other b there_b
  rw [look_put found] at there_b
  split at there_b
  · cases there_b
    have apart := unheld c unloaded id _ found
    exact apart
  · exact unheld c unloaded other b there_b

end Unheld

structure Bared (vm : Addr → Bool) (owner : Addr → Nat) (handles : Handles Resource)
    (commandsOf : Addr → Std.ExtTreeMap String Command)
    (eventsOf : Addr → Std.ExtTreeMap String Function)
    (convarsOf : Addr → Std.ExtTreeMap String HandleId)
    (providersOf : Addr → Finset Registration) (callbacksOf : Addr → Finset Token)
    (gagsOf : Addr → Std.ExtTreeMap Int Player) : Prop where
  handles : Unheld vm owner handles
  commands : Spare vm commandsOf
  events : Spare vm eventsOf
  convars : Spare vm convarsOf
  providers : Spare vm providersOf
  callbacks : Spare vm callbacksOf
  gags : Spare vm gagsOf

def State.Bares (s : State) : Prop :=
  Bared s.vm s.owner s.handles s.commandsOf s.eventsOf s.convarsOf s.providersOf s.callbacksOf
    s.gagsOf

/-- A new script has nothing, and its owner number is on no handle. -/
theorem State.Bares.born {s : State} (bared : s.Bares) (m : Manifest) (path : Path)
    (number : Nat) (state : PluginState)
    (free : ∀ id b, s.handles.look id = some b → b.owner ≠ number) :
    (s.newScript m path number state).Bares where
  handles := by
    intro a
    show Function.update s.vm s.fresh false a = false → ∀ id b, s.handles.look id = some b →
      b.owner ≠ Function.update s.owner s.fresh number a
    rw [Function.update_apply, Function.update_apply]
    split
    · exact fun _ => free
    · exact bared.handles a
  commands := bared.commands.born _
  events := bared.events.born _
  convars := bared.convars.born _
  providers := bared.providers.born _
  callbacks := bared.callbacks.born _
  gags := bared.gags.born _

theorem Act.bared {s s' : State} {k : Kind} (act : Act k s s')
    (numbered : Numbered s.nextOwner s.fresh s.owner) (held : Held s.handles s.nextOwner)
    (living : s.Lives) (bared : s.Bares) : s'.Bares := by
  have of_mem : ∀ {a : Addr} {r : Registration}, r ∈ s.providersOf a → s.vm a = true := by
    intro a r member
    exact bared.providers.loaded (Finset.ne_empty_of_mem member)
  cases act with
  | bindProvider a r p acquired candidate loading loaded =>
      exact { bared with providers := bared.providers.update (Or.inl loaded) }
  | freeProvider a r p released still there bound =>
      exact { bared with providers := bared.providers.update (Or.inl (of_mem bound)) }
  | closeMenu slot d value handles there removed =>
      exact { bared with handles := bared.handles.less (less_remove removed) }
  | addHandle a value id handles making loaded plain added =>
      exact { bared with handles := bared.handles.add numbered loaded added }
  | addTimer a timer delay id handles making loaded positive due serial target added =>
      exact { bared with handles := bared.handles.add numbered loaded added }
  | createResource a r p type value id handles making bound there owned added =>
      exact { bared with handles := bared.handles.add numbered (of_mem bound) added }
  | removeHandle a id type value handles plain hidden removed =>
      exact { bared with handles := bared.handles.less (less_remove removed) }
  | retirePlayers => exact { bared with handles := bared.handles.less (less_retire ..) }
  | retireMenus => exact { bared with handles := bared.handles.less (less_retire ..) }
  | retireResources => exact { bared with handles := bared.handles.less (less_retire ..) }
  | retireRest => exact { bared with handles := bared.handles.less (less_retire ..) }
  | putMenu a id before after there =>
      exact { bared with handles := bared.handles.put (State.menu_get there) _ }
  | putFile a id before after there =>
      exact { bared with handles := bared.handles.put there _ }
  | putTimer a id timer elapsed there =>
      exact { bared with handles := bared.handles.put (State.timer_get there) _ }
  | addCommand a name command registered making loaded =>
      exact { bared with commands := bared.commands.update (Or.inl loaded) }
  | putCommand a name command active =>
      exact { bared with commands := bared.commands.update (Or.inl (living.loaded active)) }
  | dropCommand a name owners removed still owned =>
      have loaded := bared.commands.loaded fun empty =>
        absurd owned (by rw [empty]; exact Std.ExtTreeMap.not_mem_empty)
      exact { bared with commands := bared.commands.update (Or.inl loaded) }
  | addEvent a name callback registered making loaded =>
      exact { bared with events := bared.events.update (Or.inl loaded) }
  | dropEvent a name owners removed still owned =>
      have loaded := bared.events.loaded fun empty =>
        absurd owned (by rw [empty]; exact Std.ExtTreeMap.not_mem_empty)
      exact { bared with events := bared.events.update (Or.inl loaded) }
  | addConVar a name id handles v created making loaded unowned ours named known added =>
      exact { bared with
        handles := bared.handles.add numbered loaded added
        convars := bared.convars.update (Or.inl loaded) }
  | flashConVar a name id handles left making added removed =>
      refine { bared with handles := ?_ }
      refine bared.handles.less ⟨fun other b found => ?_⟩
      obtain ⟨-, -, after⟩ := look_add added
      rw [(look_remove removed).2, after] at found
      split at found
      · cases found
      · exact found
  | dropConVar a name id v released handles permit owned there last removed =>
      have loaded : s.vm a = true := bared.convars.loaded fun empty => by
        rw [empty] at owned
        simp at owned
      refine { bared with
        handles := ?_
        convars := bared.convars.update (Or.inl loaded) }
      rcases removed with ⟨value, removed⟩ | ⟨-, same⟩
      · exact bared.handles.less (less_remove removed)
      · exact same ▸ bared.handles
  | capture a r p function making loaded =>
      exact { bared with callbacks := bared.callbacks.update (Or.inl loaded) }
  | cancel token callback there =>
      refine { bared with callbacks := bared.callbacks.update ?_ }
      cases loaded : s.vm callback.script with
      | true => exact Or.inl rfl
      | false =>
          rw [bared.callbacks _ loaded]
          exact Or.inr (Finset.erase_empty token)
  | dropCallbacks a still =>
      exact { bared with callbacks := bared.callbacks.update (Or.inr rfl) }
  | setGag a player running =>
      exact { bared with gags := bared.gags.update (Or.inl (living.home a (Or.inl running)).1) }
  | eraseGag a slot =>
      refine { bared with gags := bared.gags.update ?_ }
      cases loaded : s.vm a with
      | true => exact Or.inl rfl
      | false =>
          rw [bared.gags _ loaded]
          exact Or.inr (Tables.eq_empty_iff.mpr fun k => by simp)
  | clearGags a => exact { bared with gags := bared.gags.update (Or.inr rfl) }
  | resetVm a still bare =>
      refine ⟨?_, bared.commands.reset bare.commands, bared.events.reset bare.events,
        bared.convars.reset bare.convars, bared.providers.reset bare.providers,
        bared.callbacks.reset bare.callbacks, bared.gags.reset bare.gags⟩
      intro b
      show Function.update s.vm a false b = false → _
      rw [Function.update_apply]
      split
      · intro _ id c found same
        rw [‹b = a›] at same
        have member : id ∈ s.handles.owned (s.owner a) 0 := mem_owned_all.mpr ⟨c, found, same⟩
        rw [bare.handles] at member
        exact absurd member List.not_mem_nil
      · exact bared.handles b
  | prepare m path managing settled owners accepted =>
      have born := bared.born m path s.nextOwner .loading
        fun id b found => Nat.ne_of_lt (held.below id b found)
      exact born
  | placeRecord id m path state =>
      have born := bared.born m path 0 state fun id b found => look_owner found
      exact born
  | loadVm a candidate loading unloaded =>
      refine ⟨?_, bared.commands.load a, bared.events.load a, bared.convars.load a,
        bared.providers.load a, bared.callbacks.load a, bared.gags.load a⟩
      intro b
      show Function.update s.vm a true b = false → _
      rw [Function.update_apply]
      split
      · exact fun loaded => (nomatch loaded)
      · exact bared.handles b
  | _ => exact bared

theorem Reach.bared {s : State} (reach : Reach s) : s.Bares := by
  induction reach with
  | boot first =>
      obtain ⟨now, publicTrigger, silentTrigger, rfl⟩ := first
      have nothing : ∀ id, (({} : Handles Resource).look id) = none := by
        intro id
        simp [Handles.look]
      exact ⟨fun a _ id b found => absurd found (by simp [State.boot, nothing]), fun _ _ => rfl,
        fun _ _ => rfl, fun _ _ => rfl, fun _ _ => rfl, fun _ _ => rfl, fun _ _ => rfl⟩
  | act before change ih => exact change.bared before.numbered before.held before.living ih

/-! ## The quota -/

def quota : Nat := 128

/-- The four parts of the load stay or shrink. -/
theorem load_le {s s' : State} {b : Addr}
    (handles : (s'.handles.owned (s'.owner b) 0).length ≤ (s.handles.owned (s.owner b) 0).length)
    (commands : (s'.commandsOf b).size ≤ (s.commandsOf b).size)
    (events : (s'.eventsOf b).size ≤ (s.eventsOf b).size)
    (callbacks : (s'.callbacksOf b).card ≤ (s.callbacksOf b).card) : s'.load b ≤ s.load b := by
  unfold State.load
  omega

/-- One part of the load of one script grows by one, and `Limit` has left room. -/
theorem load_grows {s s' : State} {a : Addr} (within : ∀ b, s.load b ≤ quota)
    (making : s.Making a) (mine : s'.load a ≤ s.load a + 1)
    (others : ∀ b, b ≠ a → s'.load b ≤ s.load b) : ∀ b, s'.load b ≤ quota := by
  intro b
  by_cases same : b = a
  · have room := making.room
    rw [same]
    unfold quota
    omega
  · exact (others b same).trans (within b)

/-- A handle for a script is a handle for nobody else. -/
theorem load_add {s s' : State} {a : Addr} {type : Nat} {value : Resource} {id : HandleId}
    (numbered : Numbered s.nextOwner s.fresh s.owner) (within : ∀ b, s.load b ≤ quota)
    (making : s.Making a)
    (added : s.handles.add (s.owner a) type value = .ok (id, s'.handles))
    (owner : s'.owner = s.owner) (commands : s'.commandsOf = s.commandsOf)
    (events : s'.eventsOf = s.eventsOf) (callbacks : s'.callbacksOf = s.callbacksOf) :
    ∀ b, s'.load b ≤ quota := by
  have real := (look_add added).1
  refine load_grows within making ?_ ?_
  · have more := owned_add_le added
    unfold State.load
    rw [owner, commands, events, callbacks]
    omega
  · intro b other
    have apart : s.owner b ≠ s.owner a :=
      fun same => other (numbered.one a b same.symm real).symm
    have kept := owned_add_other added apart
    refine load_le (owner ▸ kept) (le_of_eq ?_) (le_of_eq ?_) (le_of_eq ?_)
    · rw [commands]
    · rw [events]
    · rw [callbacks]

theorem update_size_le {T : Type} (table : Addr → T) (size : T → Nat) {a : Addr} {entry : T}
    (less : size entry ≤ size (table a)) (b : Addr) :
    size (Function.update table a entry b) ≤ size (table b) := by
  rw [Function.update_apply]
  split
  · exact ‹b = a› ▸ less
  · exact le_refl _

theorem load_less {s s' : State} (within : ∀ b, s.load b ≤ quota)
    (less : Less s.handles s'.handles) (owner : s'.owner = s.owner)
    (commands : ∀ b, (s'.commandsOf b).size ≤ (s.commandsOf b).size)
    (events : ∀ b, (s'.eventsOf b).size ≤ (s.eventsOf b).size)
    (callbacks : ∀ b, (s'.callbacksOf b).card ≤ (s.callbacksOf b).card) :
    ∀ b, s'.load b ≤ quota := by
  intro b
  refine (load_le ?_ (commands b) (events b) (callbacks b)).trans (within b)
  rw [owner]
  exact less.owned_le _

theorem load_put {s s' : State} {id : HandleId} {number type : Nat} {before after : Resource}
    (within : ∀ b, s.load b ≤ quota) (there : s.handles.get id number type = .ok before)
    (handles : s'.handles = s.handles.put id after) (owner : s'.owner = s.owner)
    (commands : s'.commandsOf = s.commandsOf) (events : s'.eventsOf = s.eventsOf)
    (callbacks : s'.callbacksOf = s.callbacksOf) : ∀ b, s'.load b ≤ quota := by
  intro b
  refine (load_le ?_ (le_of_eq ?_) (le_of_eq ?_) (le_of_eq ?_)).trans (within b)
  · rw [handles, owner]
    exact owned_put_le (get_iff.mp there) after (s.owner b)
  · rw [commands]
  · rw [events]
  · rw [callbacks]

/-- A new script has no load: nobody had its owner number. -/
theorem load_born {s : State} (within : ∀ b, s.load b ≤ quota) (m : Manifest) (path : Path)
    (number : Nat) (state : PluginState) (free : (s.handles.owned number 0) = []) :
    ∀ b, (s.newScript m path number state).load b ≤ quota := by
  intro b
  by_cases new : b = s.fresh
  · have empty : (s.newScript m path number state).load b = 0 := by
      simp [State.load, State.newScript, new, free]
    rw [empty]
    exact Nat.zero_le _
  · have same : (s.newScript m path number state).load b = s.load b := by
      simp [State.load, State.newScript, Function.update_of_ne new]
    rw [same]
    exact within b

theorem Act.load_le_quota {s s' : State} {k : Kind} (act : Act k s s')
    (numbered : Numbered s.nextOwner s.fresh s.owner) (held : Held s.handles s.nextOwner)
    (within : ∀ b, s.load b ≤ quota) : ∀ b, s'.load b ≤ quota := by
  have same : ∀ {n : Nat}, n ≤ n := fun {n} => le_refl n
  cases act with
  | closeMenu slot d value handles there removed =>
      exact load_less within (less_remove removed) rfl (fun _ => same) (fun _ => same)
        (fun _ => same)
  | addHandle a value id handles making loaded plain added =>
      exact load_add numbered within making added rfl rfl rfl rfl
  | addTimer a timer delay id handles making loaded positive due serial target added =>
      exact load_add numbered within making added rfl rfl rfl rfl
  | createResource a r p type value id handles making bound there owned added =>
      exact load_add numbered within making added rfl rfl rfl rfl
  | removeHandle a id type value handles plain hidden removed =>
      exact load_less within (less_remove removed) rfl (fun _ => same) (fun _ => same)
        (fun _ => same)
  | retirePlayers =>
      exact load_less within (less_retire ..) rfl (fun _ => same) (fun _ => same) (fun _ => same)
  | retireMenus =>
      exact load_less within (less_retire ..) rfl (fun _ => same) (fun _ => same) (fun _ => same)
  | retireResources =>
      exact load_less within (less_retire ..) rfl (fun _ => same) (fun _ => same) (fun _ => same)
  | retireRest =>
      exact load_less within (less_retire ..) rfl (fun _ => same) (fun _ => same) (fun _ => same)
  | putMenu a id before after there =>
      exact load_put within (State.menu_get there) rfl rfl rfl rfl rfl
  | putFile a id before after there => exact load_put within there rfl rfl rfl rfl rfl
  | putTimer a id timer elapsed there =>
      exact load_put within (State.timer_get there) rfl rfl rfl rfl rfl
  | addCommand a name command registered making =>
      refine load_grows within making ?_ ?_
      · have grown := @Std.ExtTreeMap.size_insert_le _ _ _ (s.commandsOf a) _ name command
        simp only [State.load, State.addCommand, Function.update_self]
        omega
      · intro b other
        simp only [State.load, State.addCommand, Function.update_of_ne other]
        exact same
  | putCommand a name command active owned =>
      refine load_less within (Less.refl _) rfl
        (update_size_le s.commandsOf Std.ExtTreeMap.size ?_) (fun _ => same) (fun _ => same)
      rw [Std.ExtTreeMap.size_insert, if_pos (Std.ExtTreeMap.mem_iff_contains.mp owned)]
  | dropCommand a name owners removed =>
      exact load_less within (Less.refl _) rfl
        (update_size_le s.commandsOf Std.ExtTreeMap.size Std.ExtTreeMap.size_erase_le)
        (fun _ => same) (fun _ => same)
  | addEvent a name callback registered making =>
      refine load_grows within making ?_ ?_
      · have grown := @Std.ExtTreeMap.size_insert_le _ _ _ (s.eventsOf a) _ name callback
        simp only [State.load, State.addEvent, Function.update_self]
        omega
      · intro b other
        simp only [State.load, State.addEvent, Function.update_of_ne other]
        exact same
  | dropEvent a name owners removed =>
      exact load_less within (Less.refl _) rfl (fun _ => same)
        (update_size_le s.eventsOf Std.ExtTreeMap.size Std.ExtTreeMap.size_erase_le)
        (fun _ => same)
  | addConVar a name id handles v created making loaded unowned ours named known added =>
      exact load_add numbered within making added rfl rfl rfl rfl
  | flashConVar a name id handles left making added removed =>
      refine load_less within ⟨fun other b found => ?_⟩ rfl (fun _ => same) (fun _ => same)
        (fun _ => same)
      rw [(look_remove removed).2, (look_add added).2.2] at found
      split at found
      · cases found
      · exact found
  | dropConVar a name id v released handles permit owned there last removed =>
      refine load_less within ?_ rfl (fun _ => same) (fun _ => same) (fun _ => same)
      rcases removed with ⟨value, removed⟩ | ⟨-, kept⟩
      · exact less_remove removed
      · exact kept ▸ Less.refl _
  | capture a r p function making =>
      refine load_grows within making ?_ ?_
      · have grown := Finset.card_insert_le s.nextCallback (s.callbacksOf a)
        simp only [State.load, State.capture, Function.update_self]
        omega
      · intro b other
        simp only [State.load, State.capture, Function.update_of_ne other]
        exact same
  | cancel token callback there =>
      exact load_less within (Less.refl _) rfl (fun _ => same) (fun _ => same)
        (update_size_le s.callbacksOf Finset.card Finset.card_erase_le)
  | dropCallbacks a still =>
      exact load_less within (Less.refl _) rfl (fun _ => same) (fun _ => same)
        (update_size_le s.callbacksOf Finset.card (Nat.zero_le _))
  | prepare m path managing settled owners accepted =>
      have free : s.handles.owned s.nextOwner 0 = [] := by
        apply List.eq_nil_iff_forall_not_mem.mpr
        intro id member
        obtain ⟨b, found, mine⟩ := mem_owned_all.mp member
        exact absurd (held.below id b found) (by omega)
      exact load_born within m path s.nextOwner .loading free
  | placeRecord id m path state =>
      exact load_born within m path 0 state (by simp [owned])
  | _ => exact within

/-- No script ever has more than the quota. -/
theorem Reach.load_le_quota {s : State} (reach : Reach s) : ∀ a, s.load a ≤ quota := by
  induction reach with
  | boot first =>
      obtain ⟨now, publicTrigger, silentTrigger, rfl⟩ := first
      intro a
      have empty : (State.boot now publicTrigger silentTrigger).load a = 0 := by
        simp [State.load, State.boot, owned]
      rw [empty]
      exact Nat.zero_le _
  | act before change ih => exact change.load_le_quota before.numbered before.held ih

end Source2Root.Foundation
