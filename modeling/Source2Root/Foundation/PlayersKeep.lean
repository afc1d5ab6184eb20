import Source2Root.Foundation.MenusKeep

/-!
# Forgetting players keeps to the single changes

What leaves with a connection or with the map.  A loop over handles of one script
finds every one of them still there: the ones it removes are behind it.
-/

set_option autoImplicit false

namespace Source2Root.Foundation

open Reentrant Handles

variable {I : State → Prop} {E : Prop} {base s : State}

/-! ## What a loop leaves -/

/-- Only handles changed, and of those only the ones of some types left. -/
structure Prunes (kinds : Nat → Prop) (s s' : State) : Prop where
  only : ∃ handles doomed, s' = { s with handles, doomed }
  less : Less s.handles s'.handles
  kept : ∀ id b, s.handles.look id = some b → ¬ kinds b.type → s'.handles.look id = some b

theorem Prunes.refl (kinds : Nat → Prop) (s : State) : Prunes kinds s s :=
  ⟨⟨_, _, rfl⟩, Less.refl _, fun _ _ found _ => found⟩

theorem Prunes.trans {kinds : Nat → Prop} {s s' s'' : State} (first : Prunes kinds s s')
    (second : Prunes kinds s' s'') : Prunes kinds s s'' where
  only := by
    obtain ⟨handles, doomed, rfl⟩ := first.only
    obtain ⟨handles', doomed', rfl⟩ := second.only
    exact ⟨handles', doomed', rfl⟩
  less := first.less.trans second.less
  kept := fun id b found apart => second.kept id b (first.kept id b found apart) apart

theorem Prunes.wider {kinds kinds' : Nat → Prop} {s s' : State} (prunes : Prunes kinds s s')
    (wider : ∀ type, kinds type → kinds' type) : Prunes kinds' s s' :=
  ⟨prunes.only, prunes.less, fun id b found apart =>
    prunes.kept id b found fun kind => apart (wider _ kind)⟩

theorem Prunes.owner {kinds : Nat → Prop} {s s' : State} (prunes : Prunes kinds s s') :
    s'.owner = s.owner := by
  obtain ⟨handles, doomed, rfl⟩ := prunes.only
  rfl

theorem Prunes.live {kinds : Nat → Prop} {s s' : State} (prunes : Prunes kinds s s')
    {id : HandleId} {owner type : Nat} (apart : ¬ kinds type)
    (live : s.handles.contains id owner type = true) :
    s'.handles.contains id owner type = true := by
  obtain ⟨value, found⟩ := contains_iff.mp live
  exact contains_iff.mpr ⟨value, prunes.kept id _ found apart⟩

/-- The removal of a live handle without a destructor. -/
theorem removeHandle_prunes (within : Within base s) {a : Addr} {id : HandleId} {owner type : Nat}
    (mine : owner = s.owner a) (live : s.handles.contains id owner type = true)
    (plain : type = PlayerType ∨ type = TimerType ∨ type = ConfigFileType) :
    Runs I E base (removeHandle id owner type) s fun _ s' => Prunes (· = type) s s' ∧
      ∀ other, other ≠ id → s'.handles.look other = s.handles.look other := by
  have apart : type ≠ ConVarType ∧ type ≠ ExtensionType ∧ type ≠ MenuType := by
    rcases plain with rfl | rfl | rfl <;> decide
  refine (removeHandle_plain within mine (fun gone => ?_) apart.1 apart.2.1
    fun is => absurd is apart.2.2).mono fun _ s' _ removal => ?_
  · rw [live] at gone
    cases gone
  · obtain ⟨value, handles, removed, rfl⟩ := removal
    obtain ⟨there, after⟩ := look_remove removed
    refine ⟨⟨⟨_, _, rfl⟩, less_remove removed, fun other b found other_type => ?_⟩,
      fun other apart => ?_⟩
    · show handles.look other = some b
      rw [after, if_neg]
      · exact found
      · rintro rfl
        rw [there] at found
        exact other_type (Option.some.inj found ▸ rfl)
    · show handles.look other = _
      rw [after, if_neg apart]

/-- All handles of a list are live. -/
def State.Live (s : State) (owner type : Nat) (ids : List HandleId) : Prop :=
  ∀ id ∈ ids, s.handles.contains id owner type = true

theorem State.Live.rest {owner type : Nat} {id : HandleId} {rest : List HandleId}
    (live : s.Live owner type (id :: rest)) : s.Live owner type rest :=
  fun other member => live other (List.mem_cons_of_mem _ member)

theorem State.Live.kept {s' : State} {owner type : Nat} {ids : List HandleId}
    (live : s.Live owner type ids)
    (same : ∀ id ∈ ids, s'.handles.look id = s.handles.look id) : s'.Live owner type ids := by
  intro id member
  obtain ⟨value, found⟩ := contains_iff.mp (live id member)
  exact contains_iff.mpr ⟨value, (same id member).trans found⟩

theorem State.live_owned (s : State) (owner : Nat) {type : Nat} (real : type ≠ 0) :
    s.Live owner type (s.handles.owned owner type) := fun _ => contains_of_owned real

/-! ## Timers -/

theorem removeTimers_runs {a : Addr} {owner : Nat} (gone : Timer → Bool) (ids : List HandleId) :
    ∀ {s : State}, Within base s → owner = s.owner a → s.Live owner TimerType ids → ids.Nodup →
      Runs I E base (removeTimers owner gone ids) s fun _ s' => Prunes (· = TimerType) s s' := by
  induction ids with
  | nil => exact fun within _ _ _ => Runs.pure within (Prunes.refl _ _)
  | cons id rest ih =>
      intro s within mine live once
      obtain ⟨fresh, once⟩ := List.nodup_cons.mp once
      obtain ⟨timer, there⟩ := State.timer_live within.reach (live id (List.mem_cons_self ..))
      unfold removeTimers
      refine Runs.get (Runs.expected _ there ?_)
      split
      · refine Runs.bind (removeHandle_prunes within mine (live id (List.mem_cons_self ..))
          (Or.inr (Or.inl rfl))) fun _ s' within' both => ?_
        have live' : s'.Live owner TimerType rest := live.rest.kept fun other member =>
          both.2 other fun is => fresh (is ▸ member)
        exact (ih within' (mine.trans (congrFun both.1.owner a).symm) live' once).mono
          fun _ s'' _ prunes => both.1.trans prunes
      · exact ih within mine live.rest once

/-! ## A connection ends -/

/-- Only things of players are gone: no script is elsewhere. -/
def Forgets (s s' : State) : Prop :=
  ∃ handles doomed nativeDisplays leases journal displays gagsOf world voice, s' =
    { s with handles, doomed, nativeDisplays, leases, journal, displays, gagsOf, world, voice }

theorem Forgets.refl (s : State) : Forgets s s := ⟨_, _, _, _, _, _, _, _, _, rfl⟩

theorem Forgets.trans {s s' s'' : State} (first : Forgets s s') (second : Forgets s' s'') :
    Forgets s s'' := by
  obtain ⟨h, d, n, l, j, m, g, w, v, rfl⟩ := first
  obtain ⟨h', d', n', l', j', m', g', w', v', rfl⟩ := second
  exact ⟨h', d', n', l', j', m', g', w', v', rfl⟩

theorem Prunes.forgets {kinds : Nat → Prop} {s s' : State} (prunes : Prunes kinds s s') :
    Forgets s s' := by
  obtain ⟨handles, doomed, rfl⟩ := prunes.only
  exact ⟨handles, doomed, _, _, _, _, _, _, _, rfl⟩

theorem OnlyNatives.forgets {s s' : State} (only : OnlyNatives s s') : Forgets s s' := by
  obtain ⟨n, l, j, rfl⟩ := only
  exact ⟨_, _, n, l, j, _, _, _, _, rfl⟩

theorem Closes.forgets {s s' : State} (closes : Closes s s') : Forgets s s' := by
  obtain ⟨n, l, j, d, h, rfl⟩ := closes.only
  exact ⟨h, _, n, l, j, d, _, _, _, rfl⟩

theorem forgetPlayer_runs {a : Addr} {owner : Nat} (slot : Int) (generation : Nat)
    (ids : List HandleId) :
    ∀ {s : State}, Within base s → owner = s.owner a → s.Live owner PlayerType ids → ids.Nodup →
      Runs I E base (forgetPlayer owner slot generation ids) s fun _ s' =>
        Prunes (fun type => type = PlayerType ∨ type = TimerType) s s' := by
  induction ids with
  | nil => exact fun within _ _ _ => Runs.pure within (Prunes.refl _ _)
  | cons id rest ih =>
      intro s within mine live once
      obtain ⟨fresh, once⟩ := List.nodup_cons.mp once
      obtain ⟨player, there⟩ := State.player_live within.reach (live id (List.mem_cons_self ..))
      unfold forgetPlayer
      refine Runs.get (Runs.expected _ there ?_)
      split
      · refine Runs.get ?_
        refine Runs.bind (removeTimers_runs _ _ within mine (s.live_owned owner (by decide))
          (owned_nodup _ _ _)) fun _ s' within' timers => ?_
        have mine' : owner = s'.owner a := mine.trans (congrFun timers.owner a).symm
        have live' : s'.Live owner PlayerType (id :: rest) := fun other member =>
          timers.live (by decide) (live other member)
        refine Runs.bind (removeHandle_prunes within' mine' (live' id (List.mem_cons_self ..))
          (Or.inl rfl)) fun _ s'' within'' both => ?_
        have live'' : s''.Live owner PlayerType rest := live'.rest.kept fun other member =>
          both.2 other fun is => fresh (is ▸ member)
        refine (ih within'' (mine'.trans (congrFun both.1.owner a).symm) live'' once).mono
          fun _ _ _ prunes => ?_
        exact ((timers.wider fun _ => Or.inr).trans (both.1.wider fun _ => Or.inl)).trans prunes
      · exact ih within mine live.rest once

theorem forgetConnection_runs (within : Within base s) (slot : Int) (generation : Nat) (a : Addr) :
    Runs I E base (forgetConnection slot generation a) s fun _ s' => Forgets s s' := by
  have players : ∀ {s' : State}, Within base s' → s'.handles = s.handles → s'.owner = s.owner →
      Runs I E base (forgetPlayer (s.owner a) slot generation
        (s.handles.owned (s.owner a) PlayerType)) s' fun _ s'' => Forgets s' s'' := by
    intro s' within' same same_owner
    refine (forgetPlayer_runs slot generation _ within' (congrFun same_owner a).symm ?_
      (owned_nodup _ _ _)).mono fun _ _ _ prunes => prunes.forgets
    rw [← same]
    exact s'.live_owned _ (by decide)
  unfold forgetConnection
  refine Runs.get ?_
  split
  · split
    · refine Runs.modify ((players (within.act (.eraseGag a slot) rfl) rfl rfl).mono ?_)
      intro _ s' _ forgets
      exact Forgets.trans ⟨_, _, _, _, _, _, _, _, _, rfl⟩ forgets
    · exact players within rfl rfl
  · exact players within rfl rfl

theorem disconnectedNative_runs (within : Within base s) (slot : Int) (generation : Nat) :
    Runs I E base (disconnectedNative slot generation) s fun _ s' => Forgets s s' := by
  unfold disconnectedNative
  refine Runs.get ?_
  cases there : s.nativeDisplays[slot]? with
  | none => exact Runs.pure within (Forgets.refl s)
  | some d =>
      dsimp only
      refine Runs.ite (fun _ => ?_) fun _ => Runs.pure within (Forgets.refl s)
      refine Runs.bind (abandonNative_runs within there) fun _ s' within' only => ?_
      exact Runs.pure within' only.forgets

theorem disconnectedDisplay_runs (within : Within base s) (slot : Int) (generation : Nat) :
    Runs I E base (disconnectedDisplay slot generation) s fun _ s' => Forgets s s' := by
  unfold disconnectedDisplay
  refine Runs.get ?_
  cases there : s.displays[slot]? with
  | none => exact Runs.pure within (Forgets.refl s)
  | some d =>
      dsimp only
      refine Runs.ite (fun _ => ?_) fun _ => Runs.pure within (Forgets.refl s)
      exact (retireDisplay_runs within there).mono fun _ _ _ closed => closed.1.forgets

/-- The end of a connection is noticed without an exception. -/
theorem disconnected_runs (within : Within base s) (slot : Int) (generation : Nat) :
    Runs I E base (disconnected slot generation) s fun _ s' => Forgets s s' := by
  unfold disconnected
  refine Runs.modify ?_
  obtain ⟨world, voice, same⟩ := runVoice_eq s
    (do Voice.disconnected slot generation; return {}) []
  have spoken : s.voiceDisconnected slot generation = { s with world, voice } := same
  have heard : Within base (s.voiceDisconnected slot generation) := by
    rw [spoken]
    exact within.act (.voice world voice) rfl
  have first : Forgets s (s.voiceDisconnected slot generation) := by
    rw [spoken]
    exact ⟨_, _, _, _, _, _, _, world, voice, rfl⟩
  refine Runs.bind (disconnectedNative_runs heard slot generation) fun _ s' within' native => ?_
  refine Runs.bind (disconnectedDisplay_runs within' slot generation)
    fun _ s'' within'' display => ?_
  have second := (first.trans native).trans display
  refine Runs.get (Runs.forM _ _ (fun a _ s3 within3 forgot => ?_) s'' within'' second)
  exact (forgetConnection_runs within3 slot generation a).mono
    fun _ _ _ forgets => forgot.trans forgets

/-! ## Reconciling -/

theorem observe_runs (within : Within base s) {owner : Nat} {id : HandleId} (seen : Observed)
    (live : s.handles.contains id owner PlayerType = true) :
    Runs I E base (observe owner seen id) s fun _ s' => s' = s := by
  obtain ⟨player, there⟩ := State.player_live within.reach live
  unfold observe
  refine Runs.get (Runs.expected _ there ?_)
  refine Runs.ite (fun _ => Runs.pure within rfl) fun _ => Runs.reply fun r => ?_
  exact Runs.ite (fun _ => Runs.pure within rfl) fun _ => Runs.pure within rfl

theorem observeScript_runs (within : Within base s) (seen : Observed) (a : Addr) :
    Runs I E base (observeScript seen a) s fun _ s' => s' = s := by
  unfold observeScript
  refine Runs.get ?_
  refine Runs.foldlM _ _ (fun id member seen' s' within' same => ?_) seen s within rfl
  subst same
  exact observe_runs within' seen' (contains_of_owned (by decide) member)

theorem reconcilePlayers_runs (within : Within base s) :
    Runs I E base reconcilePlayers s fun _ s' => Forgets s s' := by
  unfold reconcilePlayers
  refine Runs.get (Runs.bind (P := fun _ s' => s' = s) ?_ fun seen s' within' same => ?_)
  · refine Runs.foldlM _ _ (fun a _ seen s' within' same => ?_) _ s within rfl
    subst same
    exact observeScript_runs within' seen a
  · refine Runs.forM _ _ (fun stale _ s'' within'' forgot => ?_) s' within' (same ▸ Forgets.refl s)
    exact (disconnected_runs within'' stale.1 stale.2).mono
      fun _ _ _ forgets => forgot.trans forgets

/-! ## A new map -/

/-- The values of handles that leave by type have that type. -/
theorem retired_typed (reach : Reach s) {owner type : Nat} (real : type ≠ 0) {value : Resource}
    (member : value ∈ (s.handles.retire owner type).1) : value.type = type := by
  have placed : owner ≠ 0 := by
    rintro rfl
    obtain ⟨e, selected, -⟩ := List.mem_map.mp member
    obtain ⟨there, mine⟩ := List.mem_filter.mp selected
    simp only [Entry.ownedBy, Bool.and_eq_true, Bool.or_eq_true, beq_iff_eq] at mine
    have free : e.type = 0 := (s.handles.sound e there).free.mp mine.1
    rcases mine.2 with zero | same
    · exact real zero
    · exact real (same.trans free)
  obtain ⟨id, b, found, mine, rfl⟩ := (mem_retire placed).mp member
  simp only [Binding.matches, Bool.and_eq_true, Bool.or_eq_true, beq_iff_eq] at mine
  rcases mine.2 with zero | same
  · exact absurd zero real
  · exact (reach.held.typed id b found).symm.trans same.symm

theorem retireHandles_prunes (within : Within base s) {owner type : Nat}
    (simple : type ≠ ExtensionType) (real : type ≠ 0)
    (act : Act .quiet s (s.detached (s.handles.retire owner type).2
      (s.handles.retire owner type).1)) :
    Runs I E base (retireHandles owner type) s fun _ s' => Prunes (· = type) s s' := by
  have none_ : State.holders (s.handles.retire owner type).1 = [] :=
    holders_plain fun v member is => simple ((retired_typed within.reach real member).symm.trans is)
  have retired : Runs I E base (destroyAll (s.handles.retire owner type).1)
      (s.detached (s.handles.retire owner type).2 (s.handles.retire owner type).1)
      fun _ s' => Prunes (· = type) s s' := by
    rw [destroyAll_plain none_]
    refine Runs.pure (within.act act rfl) ⟨⟨_, _, rfl⟩, less_retire .., fun id b found apart => ?_⟩
    show (s.handles.retire owner type).2.look id = some b
    have spared : b.matches owner type = false := by
      simp only [Binding.matches, Bool.and_eq_false_iff, Bool.or_eq_false_iff, beq_eq_false_iff_ne]
      exact Or.inr ⟨real, fun is => apart is.symm⟩
    rw [look_retire, found, Option.filter_some, spared]
    rfl
  exact Runs.get (Runs.modify retired)

theorem leaveMap_runs (within : Within base s) (a : Addr) (dark : s.displays = ∅) :
    Runs I E base (leaveMap a) s fun _ s' => s'.displays = ∅ := by
  unfold leaveMap
  refine Runs.get (Runs.bind (removeTimers_runs _ _ within rfl (s.live_owned _ (by decide))
    (owned_nodup _ _ _)) fun _ s1 within1 timers => ?_)
  have owner1 := congrFun timers.owner a
  have dark1 : s1.displays = ∅ := by
    obtain ⟨handles, doomed, rfl⟩ := timers.only
    exact dark
  refine Runs.bind (retireHandles_prunes within1 (by decide) (by decide)
    (owner1 ▸ .retirePlayers a)) fun _ s2 within2 players => ?_
  have owner2 := (congrFun players.owner a).trans owner1
  have dark2 : s2.displays = ∅ := by
    obtain ⟨handles, doomed, rfl⟩ := players.only
    exact dark1
  refine Runs.bind (retireHandles_prunes within2 (by decide) (by decide)
    (owner2 ▸ .retireMenus a fun slot d there => ?_)) fun _ s3 within3 menus => ?_
  · rw [dark2] at there
    exact absurd there (by simp)
  · refine Runs.modified (within3.act (.clearGags a) rfl) ?_
    obtain ⟨handles, doomed, rfl⟩ := menus.only
    exact dark2

/-- A new map is noticed without an exception. -/
theorem mapChanged_runs (within : Within base s) :
    Runs I E base mapChanged s fun _ _ => True := by
  unfold mapChanged
  refine Runs.modify ?_
  have changed : Within base ((s.cancelMap 0).note .newMap) := within.act .newMap rfl
  refine Runs.bind (voiceCall_runs changed _) fun _ s1 within1 _ => Runs.get ?_
  refine Runs.bind (P := fun _ _ => True) ?_ fun _ s2 within2 _ => ?_
  · refine Runs.forM _ _ (fun slot _ s2 within2 _ => ?_) s1 within1 trivial
    unfold abandonAt
    refine Runs.get ?_
    cases there : s2.nativeDisplays[slot]? with
    | none => exact Runs.pure within2 trivial
    | some d =>
        refine Runs.bind (abandonNative_runs within2 there) fun _ s3 within3 _ => ?_
        exact Runs.pure within3 trivial
  · refine Runs.modify (Runs.get ?_)
    have cleared : Within base { s2 with displays := ∅ } := within2.act .clearDisplays rfl
    exact (Runs.forM _ _ (fun a _ _ within3 dark => leaveMap_runs within3 a dark) _ cleared
      rfl).fine

/-! ## Handles for several players -/

theorem missingPlayers_looks (within : Within base s) (owner : Nat) {owned : List HandleId}
    (live : ∀ id ∈ owned, s.handles.contains id owner PlayerType = true) (players : List Player) :
    Looks base (missingPlayers owner owned players) s fun _ => True := by
  induction players with
  | nil => exact Runs.pure within ⟨rfl, trivial⟩
  | cons player rest ih =>
      unfold missingPlayers
      refine Looks.bind (findPlayer_looks within owner player live) fun found _ => ?_
      exact Looks.bind ih fun missing _ => Runs.pure within ⟨rfl, trivial⟩

/-- Handles for players are taken back. -/
theorem removePlayers_keeps (a : Addr) (ids : List HandleId) :
    ∀ {s : State}, Within base s → ∀ owner, owner = s.owner a →
      Runs Reach True base (ids.forM fun id => removeHandle id owner PlayerType) s fun _ _ => True := by
  induction ids with
  | nil => exact fun within _ _ => Runs.pure within trivial
  | cons id rest ih =>
      intro s within owner mine
      refine Runs.bind (removeHandle_plain within mine (fun _ => trivial) (by decide) (by decide)
        fun is => (by cases is)) fun _ s' within' removal => ?_
      obtain ⟨value, handles, -, rfl⟩ := removal
      exact ih within' owner mine

theorem addPlayers_keeps {a : Addr} (owned : List HandleId) (players : List Player) :
    ∀ {s : State} (created output : List HandleId), Within base s → s.active a ≠ 0 →
      Keeps base (addPlayers a owned players created output) s := by
  induction players with
  | nil => exact fun _ _ within _ => Runs.pure within trivial
  | cons player rest ih =>
      intro s created output within inside
      unfold addPlayers
      refine Keeps.bind (Runs.handle (playerHandle_keeps within player (Or.inr inside))
        fun x s' within' => ?_) fun handle s' within' => ?_
      · refine Runs.get (Keeps.bind (removePlayers_keeps a created within' _ rfl)
          fun _ s'' within'' => ?_)
        exact Runs.throw within'' x trivial
      · exact ih _ _ within' (within.active within' ▸ inside)

theorem makePlayerHandles_keeps (within : Within base s) {a : Addr} (inside : s.active a ≠ 0)
    (players : List Player) (capacity : Int) :
    Keeps base (makePlayerHandles a players capacity) s := by
  unfold makePlayerHandles
  refine Runs.ite (fun _ => Runs.pure within trivial) fun _ => ?_
  refine Keeps.bind (reconcilePlayers_runs within).fine fun _ s' within' => Runs.get ?_
  refine Looks.bind (missingPlayers_looks within' _ (fun id => contains_of_owned (by decide)) _)
    fun missing _ => ?_
  refine Runs.ite (fun _ => Runs.pure within' trivial) fun _ => ?_
  refine Keeps.bind (addPlayers_keeps _ _ _ _ within' (within.active within' ▸ inside))
    fun _ s'' within'' => ?_
  exact Runs.pure within'' trivial

end Source2Root.Foundation
