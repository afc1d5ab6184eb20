import Source2Root.Foundation.NativesKeep
import Source2Root.Foundation.MenuScreen

/-!
# The manager's menus are the menus on the screens

`ShowMenu` and `MenuInput` of the manager, as it runs with its handles, displays and
the other menu on the slot, do what `Screen` says, up to the call of the script.  The
page itself is with the host.
-/

set_option autoImplicit false

namespace Source2Root.Foundation

open Reentrant Handles

/-! ## Up to the first call -/

/-- Until somebody else gets control, in a state with `H`, nothing is raised; where
nobody does, the end is as `P` says. -/
def Leads {α : Type} (m : M α) (st : State) (P : α → State → Prop) (H : State → Prop) : Prop :=
  (m st).Wp H (fun _ _ => False) (Returns P)

section Leads

variable {α β : Type} {E : Prop} {base st : State} {P : α → State → Prop}
  {P' : β → State → Prop} {H : State → Prop}

theorem Leads.pure {value : α} (fine : P value st) : Leads (Pure.pure value) st P H := fine

theorem Leads.ite {c : Prop} [Decidable c] {m n : M α} (pos : c → Leads m st P H)
    (neg : ¬ c → Leads n st P H) : Leads (if c then m else n) st P H := wp_ite pos neg

/-- A part in which nobody else gets control, and the rest. -/
theorem Leads.after {m : M β} {f : β → M α}
    (first : Runs (fun _ => False) E base m st P') (sure : ¬ E)
    (rest : ∀ value st', Within base st' → P' value st' → Leads (f value) st' P H) :
    Leads (m >>= f) st P H := by
  refine wp_bind.mpr (Tree.Wp.alone (Tree.Wp.mono first fun outcome st' fine => ?_))
  cases outcome with
  | ok value => exact rest value st' fine.1 (fine.2.1 value rfl)
  | error x => exact absurd (fine.2.2 x rfl) sure

theorem Leads.done {m : M α} {P' : α → State → Prop}
    (runs : Runs (fun _ => False) E base m st P') (sure : ¬ E)
    (weaker : ∀ value st', P' value st' → P value st') : Leads m st P H := by
  refine Tree.Wp.alone (Tree.Wp.mono runs fun outcome st' fine => ?_)
  cases outcome with
  | ok value => exact weaker value st' (fine.2.1 value rfl)
  | error x => exact absurd (fine.2.2 x rfl) sure

theorem Leads.get {f : State → M α} (rest : Leads (f st) st P H) :
    Leads (Foundation.get >>= f) st P H := wp_bind.mpr rest

theorem Leads.modify {f : State → State} {g : Unit → M α} (rest : Leads (g ()) (f st) P H) :
    Leads (Foundation.modify f >>= g) st P H := wp_bind.mpr rest

theorem Leads.host {f : KeelResult → M α} (rest : ∀ result, Leads (f result) st P H) :
    Leads (Foundation.host >>= f) st P H := by
  refine wp_bind.mpr (wp_bind.mpr fun r => ?_)
  exact rest r.result

theorem Leads.expected (lookup : Lookup) {found : Option β} {value : β}
    (there : found = some value) {f : β → M α} (rest : Leads (f value) st P H) :
    Leads (Foundation.expect lookup found >>= f) st P H := by
  subst there
  exact rest

theorem Leads.invoke {a : Addr} {reason : Reason} {f : Bool × Int → M α}
    (called : H (st.enter a reason)) : Leads (Foundation.invoke a reason >>= f) st P H := by
  refine wp_bind.mpr ?_
  unfold Foundation.invoke
  refine wp_bind.mpr ?_
  show Tree.Wp H (fun _ _ => False) _ ((Code.enter >>= _) (st.enter a reason))
  refine wp_bind.mpr (wp_enter.mpr ⟨called, fun r st' _ never => ?_⟩)
  exact False.elim never

end Leads

/-! ## What is on the screen -/

/-- The display of the player, opened as `d`, is the screen `s` of some moment before. -/
structure OnScreen (st : State) (player : Player) (d : Display) (s : Screen) : Prop where
  there : st.displays[player.slot]? = some { d with expires := s.expires }
  dark : st.nativeDisplays[player.slot]? = none
  connected : d.player.sameConnection player = true
  menu : st.menu d.menu (st.owner d.script) = some s.menu
  valid : validPermission s.menu.menu.permission = true
  timeout : d.timeout = s.timeout
  clock : s.now ≤ st.now

/-- The display after a button that led to `left`. -/
def Leaves (st : State) (player : Player) (d : Display) (left : Option Screen) : Prop :=
  match left with
  | none => st.displays[player.slot]? = none
  | some s => OnScreen st player d s

/-- What the manager knows of the moment of a button. -/
structure Meets (st : State) (d : Display) (s : Screen) (button : MenuInput) (m : Moment) :
    Prop where
  input : m.input = button
  elapsed : s.now + m.elapsed = st.now
  running : m.running = decide (st.state d.script = .running)

def Outcome.reason : Outcome → Option Reason
  | .none => Option.none
  | .selection _ => some .selection
  | .parent => some .back

/-- Nobody got control, and the display is the screen that the button leaves. -/
def Rests (st : State) (player : Player) (d : Display) (s : Screen) (button : MenuInput)
    (_ : Bool) (st' : State) : Prop :=
  ∃ m left, Meets st d s button m ∧ s.input m = (left, .none) ∧ Leaves st' player d left

/-- The menu is gone, and the function that the button asks for is called. -/
def Hands (st : State) (player : Player) (d : Display) (s : Screen) (button : MenuInput)
    (t : State) : Prop :=
  ∃ (m : Moment) (outcome : Outcome) (reason : Reason) (st' : State), Meets st d s button m ∧
    s.input m = (none, outcome) ∧ outcome.reason = some reason ∧
    st'.displays[player.slot]? = none ∧ t = st'.enter d.script reason

/-- A menu that was shown is a screen at its start. -/
theorem showMenu_screen {base s : State} {a : Addr} (within : Within base s)
    (inside : s.active a ≠ 0) (id handle : HandleId) (timeout : Int) :
    Does base (showMenu a id handle timeout) s fun opened s' => opened = true →
      ∃ menu player d, s.menu id (s.owner a) = some menu ∧ menu.menu.items ≠ [] ∧
        d.script = a ∧ d.menu = id ∧ d.playerHandle = handle ∧
        OnScreen s' player d (menu.show s'.now (milliseconds timeout)) := by
  refine (showMenu_runs within inside id handle timeout).mono fun opened s' _ after yes => ?_
  obtain ⟨menu, player, t, came⟩ := after yes
  have time : s'.now = t.now := by
    rw [came.is, State.addDisplay]
  let d : Display :=
    { session := t.nextSession, script := a, menu := id, playerHandle := handle, player
      expires := s'.now + milliseconds timeout, timeout := milliseconds timeout }
  have at_slot : s'.displays[player.slot]? = some d := by
    rw [came.is, State.addDisplay, Tables.getElem?_insertIfNew came.free, if_pos rfl, ← time]
  refine ⟨menu, player, d, came.there, came.filled, rfl, rfl, rfl,
    { there := at_slot
      dark := ?_
      connected := came.connected
      menu := ?_
      valid := came.valid
      timeout := rfl
      clock := le_refl _ }⟩
  · rw [came.is]
    exact came.dark
  · rw [came.is]
    exact came.first

/-! ## A button -/

section Input

variable {I : State → Prop} {E : Prop} {base st st₀ : State} {player : Player} {d : Display}
  {s s' : Screen} {m : Moment} {button : MenuInput}

theorem Meets.host (meets : Meets st d s button m) (closed rendered : Bool) :
    Meets st d s button { m with closed, rendered } := ⟨meets.input, meets.elapsed, meets.running⟩

theorem Screen.Takes.host (takes : s.Takes m) (closed rendered : Bool) :
    s.Takes { m with closed, rendered } := ⟨takes.running, takes.allowed, takes.inTime⟩

/-- The screen at the moment of the button. -/
theorem OnScreen.moment (on : OnScreen st player d s) (meets : Meets st d s button m) :
    OnScreen st player d { s with now := s.now + m.elapsed } :=
  { on with clock := le_of_eq meets.elapsed }

theorem OnScreen.close (within : Within base st) (on : OnScreen st player d s) :
    Runs I E base (closeDisplay player.slot) st fun gone st' =>
      ∀ m : Moment, m.closed = gone → Leaves st' player d (s.close m) := by
  refine (closeDisplay_alone within on.there on.dark).mono fun gone st' _ after m is => ?_
  unfold Screen.close
  cases gone with
  | true =>
      rw [if_pos is]
      exact after
  | false =>
      rw [if_neg (by simp [is]), show st' = st from after]
      exact on

/-- The display goes and nothing is called, or it stays. -/
theorem close_leads {H : State → Prop} (within : Within base st)
    (on : OnScreen st player d s') (meets : Meets st₀ d s button m)
    (asked : ∀ closed, s.input { m with closed } = (s'.close { m with closed }, .none)) :
    Leads (do let _ ← closeDisplay player.slot; return false) st (Rests st₀ player d s button) H :=
  Leads.after (on.close within) id fun gone _ _ leaves =>
    Leads.pure ⟨_, _, meets.host gone m.rendered, asked gone, leaves _ rfl⟩

/-- The display goes and the script is called, or it stays. -/
theorem call_leads (within : Within base st)
    (on : OnScreen st player d s') (meets : Meets st₀ d s button m)
    {outcome : Outcome} {reason : Reason} (asks : outcome.reason = some reason)
    (asked : ∀ closed, s.input { m with closed } =
      (s'.close { m with closed }, if closed then outcome else .none)) :
    Leads (do
      if !(← closeDisplay player.slot) then return false
      return (← invoke d.script reason).1) st (Rests st₀ player d s button)
        (Hands st₀ player d s button) := by
  refine Leads.after (on.close within) id fun gone st' _ leaves => ?_
  have input := asked gone
  have left := leaves { m with closed := gone } rfl
  cases gone with
  | false => exact Leads.pure ⟨_, _, meets.host false m.rendered, input, left⟩
  | true =>
      exact Leads.invoke ⟨_, outcome, reason, st', meets.host true m.rendered, input, asks, left,
        rfl⟩

/-- The menu has taken the button. -/
theorem OnScreen.put (on : OnScreen st player d s) {menu : ScriptMenu}
    (same : menu.menu.permission = s.menu.menu.permission) :
    OnScreen { st with handles := st.handles.put d.menu (.menu menu) } player d
      { s with menu } where
  there := on.there
  dark := on.dark
  connected := on.connected
  menu := by
    refine State.menu_of_get (get_iff.mpr ?_)
    show (st.handles.put d.menu (.menu menu)).look d.menu = _
    rw [look_put (menu_look on.menu), if_pos rfl]
    rfl
  valid := by
    show validPermission menu.menu.permission = true
    rw [same]
    exact on.valid
  timeout := on.timeout
  clock := on.clock

theorem OnScreen.expire (on : OnScreen st player d s) (expires : Int) :
    OnScreen (st.setDisplay player.slot { d with expires }) player d { s with expires } :=
  { on with there := getElem?_setDisplay st player.slot _ }

/-- A button that is taken gives the menu its whole time again. -/
theorem OnScreen.taken (on : OnScreen st player d s) (meets : Meets st d s button m) :
    OnScreen (st.setDisplay player.slot { d with expires := st.now + d.timeout }) player d
      (s.taken m) := by
  have renewed := (on.moment meets).expire (st.now + d.timeout)
  rw [on.timeout, ← meets.elapsed] at renewed
  rw [on.timeout, ← meets.elapsed]
  exact renewed

theorem OnScreen.current (on : OnScreen st player d s) : st.currentMenu player = d.session := by
  have own : (some { d with expires := s.expires }).filter (·.player.sameConnection player) =
      some { d with expires := s.expires } := if_pos on.connected
  unfold State.currentMenu
  simp only [on.dark, on.there, own, Option.filter_none]

theorem menuAction_leads (within : Within base st) {action : MenuAction} {left : Menu}
    (on : OnScreen st player d s') (time : s'.now = st.now)
    (permission : left.permission = s'.menu.menu.permission)
    (inside : left.selected < left.items.length) (meets : Meets st₀ d s button m)
    (asked : ∀ closed rendered, s.input { m with closed, rendered } =
      Screen.act { s' with menu := { s'.menu with menu := left } } { m with closed, rendered }
        action) :
    Leads (menuAction player d.session { d with expires := s'.expires } s'.menu action left) st
      (Rests st₀ player d s button) (Hands st₀ player d s button) := by
  have put := within.act (.putMenu d.script d.menu s'.menu { s'.menu with menu := left } on.menu
    inside) rfl
  have taken : OnScreen { st with
      handles := st.handles.put d.menu (.menu { s'.menu with menu := left }) } player
      d { s' with menu := { s'.menu with menu := left } } := on.put permission
  unfold menuAction
  refine Leads.modify ?_
  cases action with
  | none => exact Leads.pure ⟨_, _, meets.host m.closed m.rendered, asked _ _, taken⟩
  | cancelled =>
      exact Leads.done (taken.close put) id fun gone _ leaves =>
        ⟨_, _, meets.host gone m.rendered, asked gone m.rendered, leaves _ rfl⟩
  | selected =>
      refine Leads.expected _ (List.getElem?_eq_getElem inside) ?_
      exact call_leads put taken meets rfl fun closed => asked closed m.rendered
  | changed =>
      refine Leads.host fun result => Leads.ite (fun fine => Leads.pure ?_) fun failed => ?_
      · exact ⟨_, _, meets.host m.closed true, asked m.closed true, { taken with }⟩
      refine Leads.get (Leads.ite (fun _ => ?_) fun other => absurd taken.current other)
      refine Leads.get (Leads.expected _ taken.there (Leads.modify ?_))
      have overdue := taken.expire st.now
      refine Leads.after (overdue.close (expire_within put taken.there st.now)) id
        fun gone _ _ leaves => Leads.pure ?_
      have left := leaves { m with closed := gone, rendered := false } rfl
      rw [← time] at left
      exact ⟨_, _, meets.host gone false, asked gone false, left⟩

/-- Back, taken, in a menu that has a function for it. -/
theorem parent_leads (within : Within base st) (on : OnScreen st player d s)
    (meets : Meets st d s .back m) (takes : s.Takes m) (parent : s.menu.back.isSome = true) :
    Leads (do
      modify (·.setDisplay player.slot { d with expires := st.now })
      if !(← closeDisplay player.slot) then return false
      return (← invoke d.script .back).1)
      (st.setDisplay player.slot { d with expires := st.now + d.timeout })
      (Rests st player d s .back) (Hands st player d s .back) := by
  have renewed := on.taken meets
  have later : Within base (st.setDisplay player.slot { d with expires := st.now + d.timeout }) :=
    expire_within within on.there (st.now + d.timeout)
  have overdue := renewed.expire st.now
  have asks : Outcome.parent.reason = some .back := rfl
  refine Leads.modify ?_
  refine call_leads (expire_within later renewed.there st.now) overdue meets asks fun closed => ?_
  rw [← meets.elapsed]
  exact Screen.input_parent (takes.host closed m.rendered) meets.input parent

/-- Any other button, taken: the menu's. -/
theorem menu_leads (within : Within base st) (on : OnScreen st player d s)
    (meets : Meets st d s button m) (takes : s.Takes m)
    (own : ¬ (m.input = .back ∧ s.menu.back.isSome = true)) :
    Leads (menuAction player d.session { d with expires := st.now + d.timeout } s.menu
      (s.menu.menu.input button).1 (s.menu.menu.input button).2)
      (st.setDisplay player.slot { d with expires := st.now + d.timeout })
      (Rests st player d s button) (Hands st player d s button) := by
  have filled : s.menu.menu.items ≠ [] := by
    obtain ⟨menu, is, rows⟩ := State.displayed within.reach on.there
    rw [← Option.some.inj (is.symm.trans on.menu)]
    exact List.length_pos_iff.mp (Nat.zero_lt_of_lt rows)
  have again : st.now + d.timeout = (s.taken m).expires := by
    rw [on.timeout, ← meets.elapsed]
    rfl
  have renewed := on.taken meets
  have later : Within base (st.setDisplay player.slot { d with expires := st.now + d.timeout }) :=
    expire_within within on.there (st.now + d.timeout)
  rw [again] at later renewed ⊢
  refine menuAction_leads later renewed meets.elapsed (Menu.input_permission ..) ?_ meets
    fun closed rendered => ?_
  · rw [Menu.input_items]
    exact Menu.input_selected filled button
  · rw [← meets.input]
    exact Screen.input_menu (takes.host closed rendered) own

theorem scriptMenuInput_leads (within : Within base st) (on : OnScreen st player d s)
    (button : MenuInput) :
    Leads (scriptMenuInput player d.session button { d with expires := s.expires }) st
      (Rests st player d s button) (Hands st player d s button) := by
  obtain ⟨elapsed, clock⟩ : ∃ elapsed : Nat, s.now + elapsed = st.now :=
    ⟨(st.now - s.now).toNat, by have before := on.clock; omega⟩
  have meets : ∀ allowed, Meets st d s button
      { input := button, elapsed, running := decide (st.state d.script = .running), allowed } :=
    fun _ => ⟨rfl, clock, rfl⟩
  unfold scriptMenuInput
  refine Leads.get (Leads.ite (fun stopped => ?_) fun up => ?_)
  · refine close_leads within (on.moment (meets true)) (meets true) fun closed => ?_
    refine Screen.input_refused fun takes => ?_
    rcases stopped with down | late
    · exact down (by simpa using takes.running)
    · have inTime := takes.inTime
      dsimp only at late inTime
      omega
  obtain ⟨running, timely⟩ := not_or.mp up
  have running : st.state d.script = .running := not_not.mp running
  refine Leads.expected _ on.menu (Leads.after (allowed_runs within _ _ _)
    (by simp [on.valid]) fun permitted st' _ both => ?_)
  obtain ⟨rfl, -⟩ := both
  refine Leads.ite (fun denied => ?_) fun granted => Leads.modify ?_
  · refine close_leads within (on.moment (meets false)) (meets false) fun closed => ?_
    exact Screen.input_refused fun takes => absurd takes.allowed Bool.false_ne_true
  have takes : s.Takes
      { input := button, elapsed, running := decide (st'.state d.script = .running) } := by
    refine ⟨decide_eq_true running, rfl, ?_⟩
    dsimp only at timely ⊢
    omega
  split
  · rename_i there
    exact parent_leads within on (meets true) takes (Option.isSome_iff_exists.mpr ⟨_, there⟩)
  · rename_i own
    refine menu_leads within on (meets true) takes fun both => ?_
    obtain ⟨function, there⟩ := Option.isSome_iff_exists.mp both.2
    exact own function both.1 there

/-- What the manager makes of a button is what `MenuInput` makes of it on the screen. -/
theorem menuInput_screen (within : Within base st) (on : OnScreen st player d s)
    (button : MenuInput) : Leads (menuInput player d.session button) st
      (Rests st player d s button) (Hands st player d s button) := by
  unfold menuInput
  refine Leads.get (Leads.ite (fun native => ?_) fun _ => ?_)
  · rw [Std.ExtTreeMap.contains_eq_isSome_getElem?, on.dark] at native
    cases native
  rw [on.there]
  refine Leads.ite (fun other => ?_) fun _ => scriptMenuInput_leads within on button
  rcases other with session | stranger
  · exact absurd rfl session
  · simp [on.connected] at stranger

end Input

end Source2Root.Foundation
