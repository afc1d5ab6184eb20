import Source2Root.Foundation.ConVars

/-!
# What is on the screens

At most one menu for each player slot, every display of a script has a live menu
of that script that nobody else shows, and session numbers are not used twice.
-/

set_option autoImplicit false

namespace Source2Root.Foundation

open Handles

abbrev Displays := Std.ExtTreeMap Int Display

abbrev NativeDisplays := Std.ExtTreeMap Int NativeDisplay

def menuBinding (owner : Nat) (menu : ScriptMenu) : Binding Resource :=
  { owner, type := MenuType, value := .menu menu }

/-- The row a menu is at, if it has rows. -/
def Menu.Inside (menu : Menu) : Prop :=
  (menu.items = [] ∧ menu.selected = 0) ∨ menu.selected < menu.items.length

/-- Every menu handle has its row inside the list, and every display has such a
handle with rows. -/
structure Shown (displays : Displays) (handles : Handles Resource) (owner : Addr → Nat) : Prop where
  menu : ∀ (slot : Int) (d : Display), displays[slot]? = some d → ∃ menu : ScriptMenu,
    handles.look d.menu = some (menuBinding (owner d.script) menu) ∧
      menu.menu.selected < menu.menu.items.length
  one : ∀ (slot other : Int) (d e : Display), displays[slot]? = some d →
    displays[other]? = some e → d.menu = e.menu → slot = other
  inside : ∀ (id : HandleId) (b : Binding Resource) (menu : ScriptMenu),
    handles.look id = some b → b.value = .menu menu → menu.menu.Inside

section Shown

variable {displays : Displays} {handles left : Handles Resource} {owner : Addr → Nat}

theorem Shown.less (shown : Shown displays handles owner) (less : Less handles left)
    (kept : ∀ (slot : Int) (d : Display) (menu : ScriptMenu), displays[slot]? = some d →
      handles.look d.menu = some (menuBinding (owner d.script) menu) →
      left.look d.menu = some (menuBinding (owner d.script) menu)) :
    Shown displays left owner where
  menu := by
    intro slot d there
    obtain ⟨menu, found, rows⟩ := shown.menu slot d there
    exact ⟨menu, kept slot d menu there found, rows⟩
  one := shown.one
  inside := fun id b menu found => shown.inside id b menu (less.look id b found)

theorem Shown.remove (shown : Shown displays handles owner) {id : HandleId} {number type : Nat}
    {value : Resource}
    (hidden : type = MenuType → ∀ (slot : Int) (d : Display),
      displays[slot]? = some d → d.menu ≠ id)
    (removed : handles.remove id number type = .ok (value, left)) :
    Shown displays left owner := by
  obtain ⟨found, after⟩ := look_remove removed
  refine shown.less (less_remove removed) fun slot d menu there live => ?_
  have apart : d.menu ≠ id := by
    intro same
    rw [same, found] at live
    have kind : type = MenuType := congrArg Binding.type (Option.some.inj live)
    exact hidden kind slot d there same
  rw [after, if_neg apart]
  exact live

theorem Shown.retire (shown : Shown displays handles owner) {number type : Nat}
    (plain : type ≠ 0 ∧ type ≠ MenuType) : Shown displays (handles.retire number type).2 owner := by
  refine shown.less (less_retire ..) fun slot d menu there live => ?_
  rw [look_retire, live, Option.filter_some, if_pos]
  simp [Binding.matches, menuBinding, plain]

/-- The handles of a script that shows nothing go. -/
theorem Shown.retire_hidden (shown : Shown displays handles owner) {nextOwner : Nat} {fresh a : Addr}
    (numbered : Numbered nextOwner fresh owner) (type : Nat)
    (undisplayed : ∀ (slot : Int) (d : Display), displays[slot]? = some d → d.script ≠ a) :
    Shown displays (handles.retire (owner a) type).2 owner := by
  refine shown.less (less_retire ..) fun slot d menu there live => ?_
  have apart : owner d.script ≠ owner a := by
    intro same
    have real := look_owner live
    exact undisplayed slot d there (numbered.one d.script a same real)
  rw [look_retire, live, Option.filter_some, if_pos]
  simp [Binding.matches, menuBinding, apart]

theorem Shown.add (shown : Shown displays handles owner) {id : HandleId} {number type : Nat}
    {value : Resource} (rows : ∀ menu, value = .menu menu → menu.menu.Inside)
    (added : handles.add number type value = .ok (id, left)) : Shown displays left owner := by
  obtain ⟨-, new, after⟩ := look_add added
  refine ⟨?_, shown.one, ?_⟩
  · intro slot d there
    obtain ⟨menu, found, rows⟩ := shown.menu slot d there
    have apart : d.menu ≠ id := by
      intro same
      rw [same, new] at found
      cases found
    refine ⟨menu, ?_, rows⟩
    rw [after, if_neg apart]
    exact found
  · intro other b menu found is
    rw [after] at found
    split at found
    · cases found
      exact rows menu is
    · exact shown.inside other b menu found is

theorem Shown.put (shown : Shown displays handles owner) {id : HandleId} {number type : Nat}
    {before value : Resource} (there : handles.get id number type = .ok before)
    (rows : ∀ old, before = .menu old → type = MenuType →
      ∃ menu, value = .menu menu ∧ menu.menu.selected < menu.menu.items.length)
    (inside : ∀ menu, value = .menu menu → menu.menu.Inside) :
    Shown displays (handles.put id value) owner := by
  have found := get_iff.mp there
  refine ⟨?_, shown.one, ?_⟩
  · intro slot d at_slot
    obtain ⟨menu, live, full⟩ := shown.menu slot d at_slot
    rw [look_put found]
    by_cases same : d.menu = id
    · rw [same, found] at live
      have whole := Option.some.inj live
      have kind : type = MenuType := congrArg Binding.type whole
      have old : before = .menu menu := congrArg Binding.value whole
      have number_eq : number = owner d.script := congrArg Binding.owner whole
      obtain ⟨after, rfl, later⟩ := rows menu old kind
      refine ⟨after, ?_, later⟩
      rw [if_pos same, kind, number_eq]
      rfl
    · rw [if_neg same]
      exact ⟨menu, live, full⟩
  · intro other b menu at_other is
    rw [look_put found] at at_other
    split at at_other
    · cases at_other
      exact inside menu is
    · exact shown.inside other b menu at_other is

/-- The display and its menu go. -/
theorem Shown.close (shown : Shown displays handles owner) {slot : Int} {d : Display}
    {value : Resource} (there : displays[slot]? = some d)
    (removed : handles.remove d.menu (owner d.script) MenuType = .ok (value, left)) :
    Shown (displays.erase slot) left owner := by
  obtain ⟨found, after⟩ := look_remove removed
  have others : ∀ {other : Int} {e : Display}, (displays.erase slot)[other]? = some e →
      other ≠ slot ∧ displays[other]? = some e := by
    intro other e at_other
    rw [Tables.getElem?_erase] at at_other
    split at at_other
    · cases at_other
    · exact ⟨‹_›, at_other⟩
  refine ⟨?_, ?_, fun id b menu at_id =>
    shown.inside id b menu ((less_remove removed).look id b at_id)⟩
  · intro other e at_other
    obtain ⟨apart, old⟩ := others at_other
    obtain ⟨menu, live, full⟩ := shown.menu other e old
    refine ⟨menu, ?_, full⟩
    rw [after, if_neg (fun same => apart (shown.one other slot e d old there same))]
    exact live
  · intro first second e f at_first at_second
    exact shown.one first second e f (others at_first).2 (others at_second).2

/-- A menu that nobody shows is shown on a slot. -/
theorem Shown.display (shown : Shown displays handles owner) {slot : Int} {d : Display}
    {menu : ScriptMenu} (free : displays[slot]? = none)
    (found : handles.look d.menu = some (menuBinding (owner d.script) menu))
    (rows : menu.menu.items ≠ [])
    (unshown : ∀ (other : Int) (e : Display), displays[other]? = some e → e.menu ≠ d.menu) :
    Shown (displays.insertIfNew slot d) handles owner := by
  refine ⟨?_, ?_, shown.inside⟩
  · intro other e at_other
    rw [Tables.getElem?_insertIfNew free] at at_other
    split at at_other
    · cases at_other
      refine ⟨menu, found, ?_⟩
      rcases shown.inside _ _ menu found rfl with ⟨empty, -⟩ | inside
      · exact absurd empty rows
      · exact inside
    · exact shown.menu other e at_other
  · intro first second e f at_first at_second same
    rw [Tables.getElem?_insertIfNew free] at at_first at_second
    by_cases one : first = slot
    · by_cases two : second = slot
      · rw [one, two]
      · rw [if_pos one] at at_first
        rw [if_neg two] at at_second
        cases at_first
        exact absurd same.symm (unshown second f at_second)
    · rw [if_neg one] at at_first
      by_cases two : second = slot
      · rw [if_pos two] at at_second
        cases at_second
        exact absurd same (unshown first e at_first)
      · rw [if_neg two] at at_second
        exact shown.one first second e f at_first at_second same

end Shown

theorem State.shows_iff {s : State} {a : Addr} {id : HandleId} :
    s.shows a id = true ↔
      ∃ (slot : Int) (d : Display), s.displays[slot]? = some d ∧ d.script = a ∧ d.menu = id := by
  simp only [State.shows, List.any_eq_true, Prod.exists, Tables.mem_toList, Bool.and_eq_true,
    beq_iff_eq]

theorem menu_look {s : State} {id : HandleId} {number : Nat} {menu : ScriptMenu}
    (there : s.menu id number = some menu) :
    s.handles.look id = some (menuBinding number menu) := get_iff.mp (State.menu_get there)

theorem Act.shown {s s' : State} {k : Kind} (act : Act k s s')
    (numbered : Numbered s.nextOwner s.fresh s.owner) (living : s.Lives) (bared : s.Bares)
    (shown : Shown s.displays s.handles s.owner) : Shown s'.displays s'.handles s'.owner := by
  -- the script of a display is loaded: its owner number is on a handle
  have born : ∀ (number : Nat), Shown s.displays s.handles
      (Function.update s.owner s.fresh number) := by
    refine fun number => ⟨?_, shown.one, shown.inside⟩
    intro slot d there
    obtain ⟨menu, found, full⟩ := shown.menu slot d there
    have other : d.script ≠ s.fresh := by
      intro same
      have unloaded := living.unborn s.fresh (le_refl _)
      exact bared.handles s.fresh unloaded d.menu _ found (same ▸ rfl)
    exact ⟨menu, by rw [Function.update_of_ne other]; exact found, full⟩
  have plain_name : ∀ {id : HandleId}, ConVarType = MenuType → ∀ (slot : Int) (d : Display),
      s.displays[slot]? = some d → d.menu ≠ id := fun kind => absurd kind (by decide)
  cases act with
  | addDisplay a id handle player timeout menu running loaded free dark live filled unshown =>
      refine shown.display free (menu_look live) filled fun other e at_other same => ?_
      obtain ⟨rows, found, -⟩ := shown.menu other e at_other
      have here := menu_look live
      have id_eq : e.menu = id := same
      rw [id_eq, here] at found
      have number : s.owner a = s.owner e.script := congrArg Binding.owner (Option.some.inj found)
      have real := look_owner here
      have mine := numbered.one a e.script number real
      have yes : s.shows a id = true := State.shows_iff.mpr ⟨other, e, at_other, mine.symm, id_eq⟩
      rw [unshown] at yes
      exact nomatch yes
  | expire slot d expires there =>
      have old : ∀ {other : Int} {e : Display},
          (s.displays.insert slot { d with expires })[other]? = some e →
          ∃ f : Display, s.displays[other]? = some f ∧ f.menu = e.menu ∧ f.script = e.script := by
        intro other e at_other
        rw [Tables.getElem?_insert] at at_other
        split at at_other
        · cases at_other
          exact ⟨d, ‹other = slot› ▸ there, rfl, rfl⟩
        · exact ⟨e, at_other, rfl, rfl⟩
      refine ⟨?_, ?_, shown.inside⟩
      · intro other e at_other
        obtain ⟨f, was, menu, script⟩ := old at_other
        rw [← menu, ← script]
        exact shown.menu other f was
      · intro first second e f at_first at_second same
        obtain ⟨e', was_e, menu_e, -⟩ := old at_first
        obtain ⟨f', was_f, menu_f, -⟩ := old at_second
        exact shown.one first second e' f' was_e was_f (menu_e.trans (same.trans menu_f.symm))
  | closeMenu slot d value handles there removed => exact shown.close there removed
  | clearDisplays =>
      refine ⟨?_, ?_, shown.inside⟩
      · intro slot d there
        exact absurd there (by simp)
      · intro first second e f at_first
        exact absurd at_first (by simp)
  | addHandle a value id handles making loaded plain added =>
      refine shown.add ?_ added
      intro menu is
      rcases plain with ⟨player, rfl⟩ | ⟨file, rfl⟩ | ⟨new, rfl, empty, top⟩
      · cases is
      · cases is
      · cases is
        exact Or.inl ⟨empty, top⟩
  | addTimer a timer delay id handles making loaded positive due serial target added =>
      exact shown.add (fun menu is => (by cases is)) added
  | createResource a r p type value id handles making bound there owned added =>
      exact shown.add (fun menu is => (by cases is)) added
  | removeHandle a id type value handles plain hidden removed => exact shown.remove hidden removed
  | retirePlayers => exact shown.retire (by decide)
  | retireMenus a undisplayed => exact shown.retire_hidden numbered MenuType undisplayed
  | retireResources => exact shown.retire (by decide)
  | retireRest a still swept undisplayed => exact shown.retire_hidden numbered 0 undisplayed
  | putMenu a id before after there inside =>
      exact shown.put (State.menu_get there) (fun old is kind => ⟨after, rfl, inside⟩)
        fun menu is => Or.inr (Resource.menu.inj is ▸ inside)
  | putFile a id before after there =>
      exact shown.put there (fun old is => (by cases is)) fun menu is => (by cases is)
  | putTimer a id timer elapsed there =>
      exact shown.put (State.timer_get there) (fun old is => (by cases is)) fun menu is =>
        (by cases is)
  | addConVar a definition id handles v created making loaded unowned ours same known added =>
      exact shown.add (fun menu is => (by cases is)) added
  | flashConVar a name id handles left making added removed =>
      exact (shown.add (fun menu is => (by cases is)) added).remove plain_name removed
  | dropConVar a name id v released handles permit owned there last removed =>
      rcases removed with ⟨value, removed⟩ | ⟨gone, rfl⟩
      · exact shown.remove plain_name removed
      · exact shown
  | prepare => exact born _
  | placeRecord => exact born _
  | _ => exact shown

theorem Reach.shown {s : State} (reach : Reach s) : Shown s.displays s.handles s.owner := by
  induction reach with
  | boot first =>
      obtain ⟨now, publicTrigger, silentTrigger, rfl⟩ := first
      refine ⟨?_, ?_, ?_⟩
      all_goals simp [State.boot, Handles.look]
  | act before change ih => exact change.shown before.numbered before.living before.bared ih

/-! ## One menu for each slot -/

/-- Where the menus are, and their session numbers. -/
structure Placing (displays : Displays) (nativeDisplays : NativeDisplays) (nextSession : Session) :
    Prop where
  slot : ∀ (slot : Int) (d : Display), displays[slot]? = some d → d.player.slot = slot
  nativeSlot : ∀ (slot : Int) (d : NativeDisplay), nativeDisplays[slot]? = some d →
    d.player.slot = slot
  dark : ∀ (slot : Int) (d : Display), displays[slot]? = some d → nativeDisplays[slot]? = none
  session : ∀ (slot : Int) (d : Display), displays[slot]? = some d → d.session < nextSession
  nativeSession : ∀ (slot : Int) (d : NativeDisplay), nativeDisplays[slot]? = some d →
    d.session < nextSession
  one : ∀ (slot other : Int) (d e : Display), displays[slot]? = some d →
    displays[other]? = some e → d.session = e.session → slot = other
  nativeOne : ∀ (slot other : Int) (d e : NativeDisplay), nativeDisplays[slot]? = some d →
    nativeDisplays[other]? = some e → d.session = e.session → slot = other
  apart : ∀ (slot other : Int) (d : Display) (e : NativeDisplay), displays[slot]? = some d →
    nativeDisplays[other]? = some e → d.session ≠ e.session
  row : ∀ (slot : Int) (d : NativeDisplay), nativeDisplays[slot]? = some d →
    d.menu.selected < d.menu.items.length

def State.Screens (s : State) : Prop := Placing s.displays s.nativeDisplays s.nextSession

section Placing

variable {displays left : Displays} {nativeDisplays natives : NativeDisplays}
  {nextSession : Session}

/-- Every display is one that was there before. -/
theorem Placing.less (placing : Placing displays nativeDisplays nextSession) {later : Session}
    (more : nextSession ≤ later)
    (old : ∀ (slot : Int) (d : Display), left[slot]? = some d → ∃ e : Display,
      displays[slot]? = some e ∧ e.session = d.session ∧ e.player = d.player)
    (oldNative : ∀ (slot : Int) (d : NativeDisplay), natives[slot]? = some d →
      d.menu.selected < d.menu.items.length ∧ ∃ e : NativeDisplay,
        nativeDisplays[slot]? = some e ∧ e.session = d.session ∧ e.player = d.player) :
    Placing left natives later where
  slot := by
    intro slot d there
    obtain ⟨e, was, -, player⟩ := old slot d there
    exact player ▸ placing.slot slot e was
  nativeSlot := by
    intro slot d there
    obtain ⟨-, e, was, -, player⟩ := oldNative slot d there
    exact player ▸ placing.nativeSlot slot e was
  dark := by
    intro slot d there
    obtain ⟨e, was, -, -⟩ := old slot d there
    have dark := placing.dark slot e was
    cases native : natives[slot]? with
    | none => rfl
    | some n =>
        obtain ⟨-, f, was, -, -⟩ := oldNative slot n native
        rw [dark] at was
        cases was
  session := by
    intro slot d there
    obtain ⟨e, was, session, -⟩ := old slot d there
    exact session ▸ lt_of_lt_of_le (placing.session slot e was) more
  nativeSession := by
    intro slot d there
    obtain ⟨-, e, was, session, -⟩ := oldNative slot d there
    exact session ▸ lt_of_lt_of_le (placing.nativeSession slot e was) more
  one := by
    intro slot other d e there there_e same
    obtain ⟨d', was, session, -⟩ := old slot d there
    obtain ⟨e', was_e, session_e, -⟩ := old other e there_e
    exact placing.one slot other d' e' was was_e (session.trans (same.trans session_e.symm))
  nativeOne := by
    intro slot other d e there there_e same
    obtain ⟨-, d', was, session, -⟩ := oldNative slot d there
    obtain ⟨-, e', was_e, session_e, -⟩ := oldNative other e there_e
    exact placing.nativeOne slot other d' e' was was_e (session.trans (same.trans session_e.symm))
  apart := by
    intro slot other d e there there_e
    obtain ⟨d', was, session, -⟩ := old slot d there
    obtain ⟨-, e', was_e, session_e, -⟩ := oldNative other e there_e
    rw [← session, ← session_e]
    exact placing.apart slot other d' e' was was_e
  row := fun slot d there => (oldNative slot d there).1

theorem Placing.same (placing : Placing displays nativeDisplays nextSession) (slot : Int)
    (d : NativeDisplay) (there : nativeDisplays[slot]? = some d) :
    d.menu.selected < d.menu.items.length ∧ ∃ e : NativeDisplay,
      nativeDisplays[slot]? = some e ∧ e.session = d.session ∧ e.player = d.player :=
  ⟨placing.row slot d there, d, there, rfl, rfl⟩

/-- A record changes in place. -/
theorem Placing.mark (placing : Placing displays nativeDisplays nextSession) {slot : Int}
    {d d' : NativeDisplay} (there : nativeDisplays[slot]? = some d)
    (session : d'.session = d.session) (player : d'.player = d.player)
    (row : d'.menu.selected < d'.menu.items.length) :
    Placing displays (nativeDisplays.insert slot d') nextSession := by
  refine placing.less (le_refl _) (fun slot d there => ⟨d, there, rfl, rfl⟩) ?_
  intro other e at_other
  rw [Tables.getElem?_insert] at at_other
  split at at_other
  · cases at_other
    exact ⟨row, d, ‹other = slot› ▸ there, session.symm, player.symm⟩
  · exact placing.same other e at_other

end Placing

theorem Marked.session {now : Int} {d d' : NativeDisplay} (marked : Marked now d d') :
    d'.session = d.session ∧ d'.player = d.player := by
  cases marked <;> exact ⟨rfl, rfl⟩

theorem Marked.row {now : Int} {d d' : NativeDisplay} (marked : Marked now d d')
    (row : d.menu.selected < d.menu.items.length) :
    d'.menu.selected < d'.menu.items.length := by
  cases marked with
  | used input idle opened inTime =>
      have filled : d.menu.items ≠ [] := by
        intro empty
        rw [empty] at row
        exact absurd row (Nat.not_lt_zero _)
      show (d.menu.input input).2.selected < (d.menu.input input).2.items.length
      rw [Menu.input_items]
      exact Menu.input_selected filled input
  | closing => exact row
  | cleared => exact row
  | abandoned => exact row

theorem Act.screens {s s' : State} {k : Kind} (act : Act k s s') (screens : s.Screens) :
    s'.Screens := by
  have keep : ∀ (slot : Int) (d : Display), s.displays[slot]? = some d → ∃ e : Display,
      s.displays[slot]? = some e ∧ e.session = d.session ∧ e.player = d.player :=
    fun slot d there => ⟨d, there, rfl, rfl⟩
  cases act with
  | skipSession => exact screens.less (Nat.le_succ _) keep screens.same
  | openNative slot d acquired free dark session there filled top fresh lease =>
      have shown : ∀ {other : Int} {e : NativeDisplay},
          (s.nativeDisplays.insert slot d)[other]? = some e →
          (other = slot ∧ e = d) ∨ (other ≠ slot ∧ s.nativeDisplays[other]? = some e) := by
        intro other e at_other
        rw [Tables.getElem?_insert] at at_other
        split at at_other
        · cases at_other
          exact Or.inl ⟨‹_›, rfl⟩
        · exact Or.inr ⟨‹_›, at_other⟩
      have new : ∀ {n : Nat}, n < s.nextSession → n ≠ d.session :=
        fun below => session ▸ Nat.ne_of_lt below
      refine ⟨screens.slot, ?_, ?_, ?_, ?_, screens.one, ?_, ?_, ?_⟩
      · intro other e at_other
        rcases shown at_other with ⟨rfl, rfl⟩ | ⟨-, old⟩
        · exact there
        · exact screens.nativeSlot other e old
      · intro other e at_other
        show (s.nativeDisplays.insert slot d)[other]? = none
        rw [Tables.getElem?_insert, if_neg]
        · exact screens.dark other e at_other
        · rintro rfl
          exact absurd (dark.symm.trans at_other) (by simp)
      · exact fun other e at_other => Nat.lt_succ_of_lt (screens.session other e at_other)
      · intro other e at_other
        rcases shown at_other with ⟨rfl, rfl⟩ | ⟨-, old⟩
        · exact session ▸ Nat.lt_succ_self _
        · exact Nat.lt_succ_of_lt (screens.nativeSession other e old)
      · intro first second e f at_first at_second same
        rcases shown at_first with ⟨is, rfl⟩ | ⟨-, old⟩
        · rcases shown at_second with ⟨also, -⟩ | ⟨-, old⟩
          · rw [is, also]
          · exact absurd same.symm (new (screens.nativeSession second f old))
        · rcases shown at_second with ⟨-, rfl⟩ | ⟨-, also⟩
          · exact absurd same (new (screens.nativeSession first e old))
          · exact screens.nativeOne first second e f old also same
      · intro first second e f at_first at_second
        rcases shown at_second with ⟨-, rfl⟩ | ⟨-, old⟩
        · exact new (screens.session first e at_first)
        · exact screens.apart first second e f at_first old
      · intro other e at_other
        rcases shown at_other with ⟨-, rfl⟩ | ⟨-, old⟩
        · rw [top]
          exact List.length_pos_iff.mpr filled
        · exact screens.row other e old
  | markNative slot d d' there marked =>
      exact screens.mark there marked.session.1 marked.session.2
        (marked.row (screens.row slot d there))
  | selectNative slot d index current there =>
      exact screens.mark there rfl rfl (screens.row slot d there)
  | returnNative slot d there active =>
      exact screens.mark there rfl rfl (screens.row slot d there)
  | closeNative slot d released there idle closing last =>
      refine screens.less (le_refl _) keep fun other e at_other => ?_
      have found : (s.nativeDisplays.erase slot)[other]? = some e := at_other
      rw [Tables.getElem?_erase] at found
      split at found
      · cases found
      · exact screens.same other e found
  | addDisplay a id handle player timeout menu running loaded free dark =>
      have shown : ∀ {other : Int} {e : Display},
          (s.addDisplay a id handle player timeout).displays[other]? = some e →
          (other = player.slot ∧ e.session = s.nextSession ∧ e.player = player) ∨
            (other ≠ player.slot ∧ s.displays[other]? = some e) := by
        intro other e at_other
        have found := at_other
        simp only [State.addDisplay] at found
        rw [Tables.getElem?_insertIfNew free] at found
        split at found
        · cases found
          exact Or.inl ⟨‹_›, rfl, rfl⟩
        · exact Or.inr ⟨‹_›, found⟩
      have new : ∀ {n : Nat}, n < s.nextSession → n ≠ s.nextSession := fun below => Nat.ne_of_lt below
      refine ⟨?_, screens.nativeSlot, ?_, ?_, ?_, ?_, screens.nativeOne, ?_, screens.row⟩
      · intro other e at_other
        rcases shown at_other with ⟨is, -, same⟩ | ⟨-, old⟩
        · rw [same, is]
        · exact screens.slot other e old
      · intro other e at_other
        rcases shown at_other with ⟨is, -, -⟩ | ⟨-, old⟩
        · exact is ▸ dark
        · exact screens.dark other e old
      · intro other e at_other
        rcases shown at_other with ⟨-, is, -⟩ | ⟨-, old⟩
        · exact is ▸ Nat.lt_succ_self _
        · exact Nat.lt_succ_of_lt (screens.session other e old)
      · exact fun other e at_other => Nat.lt_succ_of_lt (screens.nativeSession other e at_other)
      · intro first second e f at_first at_second same
        rcases shown at_first with ⟨is, session, -⟩ | ⟨-, old⟩
        · rcases shown at_second with ⟨also, -, -⟩ | ⟨-, old⟩
          · rw [is, also]
          · exact absurd (same.symm.trans session) (new (screens.session second f old))
        · rcases shown at_second with ⟨-, session, -⟩ | ⟨-, also⟩
          · exact absurd (same.trans session) (new (screens.session first e old))
          · exact screens.one first second e f old also same
      · intro first second e f at_first at_second
        rcases shown at_first with ⟨-, session, -⟩ | ⟨-, old⟩
        · rw [session]
          exact (new (screens.nativeSession second f at_second)).symm
        · exact screens.apart first second e f old at_second
  | expire slot d expires there =>
      refine screens.less (le_refl _) ?_ screens.same
      intro other e at_other
      have found : (s.displays.insert slot { d with expires })[other]? = some e := at_other
      rw [Tables.getElem?_insert] at found
      split at found
      · cases found
        exact ⟨d, ‹other = slot› ▸ there, rfl, rfl⟩
      · exact ⟨e, found, rfl, rfl⟩
  | closeMenu slot d value handles there removed =>
      refine screens.less (le_refl _) ?_ screens.same
      intro other e at_other
      have found : (s.displays.erase slot)[other]? = some e := at_other
      rw [Tables.getElem?_erase] at found
      split at found
      · cases found
      · exact ⟨e, found, rfl, rfl⟩
  | clearDisplays =>
      refine screens.less (le_refl _) ?_ screens.same
      intro other e at_other
      exact absurd at_other (by simp)
  | _ => exact screens

theorem Reach.screens {s : State} (reach : Reach s) : s.Screens := by
  induction reach with
  | boot first =>
      obtain ⟨now, publicTrigger, silentTrigger, rfl⟩ := first
      refine ⟨?_, ?_, ?_, ?_, ?_, ?_, ?_, ?_, ?_⟩
      all_goals simp [State.boot]
  | act before change ih => exact change.screens ih

/-! ## The flags of a native menu -/

/-- A record whose screen is cleared is closing, and one whose callback runs is
both and has no callback left. -/
structure NativeDisplay.Flags (d : NativeDisplay) : Prop where
  closing : d.cleared = true → d.closing = true
  active : d.active = true → d.cleared = true ∧ d.callback = false

theorem Marked.flags {now : Int} {d d' : NativeDisplay} (marked : Marked now d d')
    (flags : d.Flags) : d'.Flags := by
  cases marked with
  | closing idle => exact ⟨fun _ => rfl, fun active => absurd (idle.symm.trans active) (by simp)⟩
  | cleared idle closing =>
      exact ⟨fun _ => closing, fun active => absurd (idle.symm.trans active) (by simp)⟩
  | abandoned idle =>
      exact ⟨fun _ => rfl, fun active => absurd (idle.symm.trans active) (by simp)⟩
  | used input idle opened inTime =>
      exact ⟨flags.closing, fun active => absurd (idle.symm.trans active) (by simp)⟩

def State.Flagged (s : State) : Prop :=
  ∀ (slot : Int) (d : NativeDisplay), s.nativeDisplays[slot]? = some d → d.Flags

theorem flagged_insert {s : State} (flagged : s.Flagged) {slot other : Int}
    {d e : NativeDisplay} (flags : d.Flags)
    (there : (s.nativeDisplays.insert slot d)[other]? = some e) : e.Flags := by
  rw [Tables.getElem?_insert] at there
  split at there
  · cases there
    exact flags
  · exact flagged other e there

theorem Act.flagged {s s' : State} {k : Kind} (act : Act k s s') (flagged : s.Flagged) :
    s'.Flagged := by
  cases act with
  | openNative slot d acquired free dark session there filled top fresh lease =>
      obtain ⟨-, idle, -, uncleared⟩ := fresh
      exact fun other e at_other => flagged_insert flagged
        ⟨fun yes => absurd (uncleared.symm.trans yes) (by simp),
          fun yes => absurd (idle.symm.trans yes) (by simp)⟩ at_other
  | markNative slot d d' there marked =>
      exact fun other e at_other =>
        flagged_insert flagged (marked.flags (flagged slot d there)) at_other
  | selectNative slot d index current there chosen closing cleared =>
      have flags : NativeDisplay.Flags { d with callback := false, active := true } :=
        ⟨fun _ => closing, fun _ => ⟨cleared, rfl⟩⟩
      exact fun other e at_other => flagged_insert flagged flags at_other
  | returnNative slot d there active =>
      have flags : NativeDisplay.Flags { d with active := false } :=
        ⟨(flagged slot d there).closing, fun yes => (by cases yes)⟩
      exact fun other e at_other => flagged_insert flagged flags at_other
  | closeNative slot d released there =>
      intro other e at_other
      have found : (s.nativeDisplays.erase slot)[other]? = some e := at_other
      rw [Tables.getElem?_erase] at found
      split at found
      · cases found
      · exact flagged other e found
  | _ => exact flagged

theorem Reach.flagged {s : State} (reach : Reach s) : s.Flagged := by
  induction reach with
  | boot first =>
      obtain ⟨now, publicTrigger, silentTrigger, rfl⟩ := first
      exact fun slot d there => absurd there (by simp [State.boot])
  | act before change ih => exact change.flagged ih

end Source2Root.Foundation
