import Source2Root.Foundation.CodeKeeps

/-!
# Menus keep to the single changes

What opening, clearing and closing menus does.  Closing a menu without a
selection hands control to nobody and touches nothing but the screens.
-/

set_option autoImplicit false

namespace Source2Root.Foundation

open Reentrant Handles

variable {I : State → Prop} {E : Prop} {base s : State}

/-! ## The records that are being selected -/

theorem calls_natives {s' : State} (same : ∀ slot : Int,
      (s'.nativeDisplays[slot]?).filter NativeDisplay.active =
        (s.nativeDisplays[slot]?).filter NativeDisplay.active)
    (rest : { s' with nativeDisplays := s.nativeDisplays }.calls = s.calls) :
    s'.calls = s.calls := by
  have selecting : (s'.calls).selecting = s.calls.selecting := funext same
  simp only [State.calls, Calls.mk.injEq] at rest selecting ⊢
  exact ⟨rest.1, rest.2.1, rest.2.2.1, rest.2.2.2.1, rest.2.2.2.2.1, rest.2.2.2.2.2.1,
    rest.2.2.2.2.2.2.1, selecting⟩

/-- An idle record changes and stays idle. -/
theorem calls_setNative {slot : Int} {d d' : NativeDisplay}
    (there : s.nativeDisplays[slot]? = some d) (idle : d.active = false)
    (idle' : d'.active = false) : (s.setNative slot d').calls = s.calls := by
  refine calls_natives (fun other => ?_) rfl
  show ((s.nativeDisplays.insert slot d')[other]?).filter _ = _
  rw [Tables.getElem?_insert]
  split
  · rw [‹other = slot›, there, Option.filter_some, Option.filter_some, idle, idle']
    rfl
  · rfl

theorem calls_closeNative {slot : Int} {d : NativeDisplay} (released : Bool)
    (there : s.nativeDisplays[slot]? = some d) (idle : d.active = false) :
    (s.closeNative slot d released).calls = s.calls := by
  refine calls_natives (fun other => ?_) rfl
  show ((s.nativeDisplays.erase slot)[other]?).filter _ = _
  rw [Tables.getElem?_erase]
  split
  · rw [‹other = slot›, there, Option.filter_some, idle]
    rfl
  · rfl

theorem calls_openNative {slot : Int} {d : NativeDisplay} (acquired : Bool)
    (free : s.nativeDisplays[slot]? = none) (idle : d.active = false) :
    (s.openNative slot d acquired).calls = s.calls := by
  refine calls_natives (fun other => ?_) rfl
  show ((s.nativeDisplays.insert slot d)[other]?).filter _ = _
  rw [Tables.getElem?_insert]
  split
  · rw [‹other = slot›, free, Option.filter_some, idle]
    rfl
  · rfl

/-! ## Closing menus of extensions -/

/-- Only the menus of extensions and their leases change. -/
def OnlyNatives (s s' : State) : Prop :=
  ∃ nativeDisplays leases journal, s' = { s with nativeDisplays, leases, journal }

theorem OnlyNatives.refl (s : State) : OnlyNatives s s := ⟨_, _, _, rfl⟩

theorem OnlyNatives.trans {s s' s'' : State} (first : OnlyNatives s s')
    (second : OnlyNatives s' s'') : OnlyNatives s s'' := by
  obtain ⟨n, l, j, rfl⟩ := first
  obtain ⟨n', l', j', rfl⟩ := second
  exact ⟨n', l', j', rfl⟩

theorem getElem?_setNative (s : State) (slot : Int) (d : NativeDisplay) :
    (s.setNative slot d).nativeDisplays[slot]? = some d := by
  show (s.nativeDisplays.insert slot d)[slot]? = some d
  rw [Tables.getElem?_insert, if_pos rfl]

/-- What `CloseNativeDisplay` knows when the screen is cleared. -/
structure Cleared (s : State) (slot : Int) (d : NativeDisplay) (selected : Option Nat)
    (left : Option Nat) (seen : Option Player) : Prop where
  there : s.nativeDisplays[slot]? = some { d with cleared := true }
  chosen : ∀ index, left = some index → selected = some index ∧ (d.cleared = false →
    ∃ player, seen = some player ∧ player.sameConnection d.player = true ∧
      s.permissions.allows player d.menu.permission = true)

theorem clearNative_runs (within : Within base s) {slot : Int} {d : NativeDisplay}
    (there : s.nativeDisplays[slot]? = some d) (idle : d.active = false)
    (closing : d.closing = true) (selected : Option Nat) :
    Runs I E base (clearNative slot d selected) s fun answer s' => OnlyNatives s s' ∧
      s'.journal = s.journal ∧ ∀ left seen, answer = some (left, seen) → Cleared s' slot d selected left seen := by
  have marked : Within base (s.setNative slot { d with cleared := true }) :=
    within.act (.markNative slot d _ there (.cleared idle closing))
      (calls_setNative there idle idle)
  have only : OnlyNatives s (s.setNative slot { d with cleared := true }) := ⟨_, _, _, rfl⟩
  have found := getElem?_setNative s slot { d with cleared := true }
  unfold clearNative
  split
  · rename_i cleared
    refine Runs.pure within ⟨OnlyNatives.refl s, rfl, ?_⟩
    intro left seen is
    cases is
    refine ⟨?_, fun index chosen => ⟨chosen, fun uncleared => ?_⟩⟩
    · rw [there, ← cleared]
    · rw [cleared] at uncleared
      cases uncleared
  refine Runs.reply fun r => ?_
  split
  · refine Runs.modify (Runs.pure marked ⟨only, rfl, ?_⟩)
    intro left seen is
    cases is
    exact ⟨found, fun index chosen => (nomatch chosen)⟩
  rename_i same
  split
  · exact Runs.pure within ⟨OnlyNatives.refl s, rfl, fun left seen is => (nomatch is)⟩
  rename_i answered
  refine Runs.host fun result => ?_
  split
  · exact Runs.pure within ⟨OnlyNatives.refl s, rfl, fun left seen is => (nomatch is)⟩
  refine Runs.modify (Runs.get ?_)
  split
  · rename_i permitted
    refine Runs.pure marked ⟨only, rfl, ?_⟩
    intro left seen is
    cases is
    refine ⟨found, fun index chosen => ⟨chosen, fun _ => ⟨r.player, rfl, ?_, permitted⟩⟩⟩
    obtain ⟨-, other⟩ := not_or.mp same
    by_contra apart
    exact other ⟨not_not.mp answered, by simpa using apart⟩
  · refine Runs.pure marked ⟨only, rfl, ?_⟩
    intro left seen is
    cases is
    exact ⟨found, fun index chosen => (nomatch chosen)⟩

/-- The record is gone, and its session has ended. -/
def Gone (slot : Int) (d : NativeDisplay) (s : State) : Prop :=
  s.nativeDisplays[slot]? = none ∧ .closed d.session ∈ s.journal

theorem gone_closeNative (s : State) (slot : Int) (d : NativeDisplay) (released : Bool) :
    Gone slot d (s.closeNative slot d released) := by
  refine ⟨?_, List.mem_append_right _ (List.mem_singleton_self _)⟩
  show (s.nativeDisplays.erase slot)[slot]? = none
  rw [Tables.getElem?_erase, if_pos rfl]

theorem releaseNative_runs (within : Within base s) {slot : Int} {d : NativeDisplay}
    (there : s.nativeDisplays[slot]? = some d) (idle : d.active = false)
    (closing : d.closing = true) :
    Runs I E base (releaseNative slot) s fun gone s' => OnlyNatives s s' ∧
      (gone = true → Gone slot d s') := by
  unfold releaseNative
  refine Runs.get (Runs.expected _ there ?_)
  dsimp only
  split
  · rename_i one
    refine Runs.modify (Runs.host fun result => ?_)
    have noted : Within base (s.note (.release d.service d.version
        (s.serviceUsers d.service d.version))) := by
      rw [one]
      exact within.act (.release d.service d.version one) rfl
    split
    · exact Runs.pure noted ⟨⟨_, _, _, rfl⟩, fun yes => (nomatch yes)⟩
    · refine Runs.modify (Runs.pure ?_ ⟨⟨_, _, _, rfl⟩, fun _ => gone_closeNative ..⟩)
      exact noted.act (.closeNative slot d _ there idle closing rfl)
        (calls_closeNative _ there idle)
  · refine Runs.modify (Runs.pure ?_ ⟨⟨_, _, _, rfl⟩, fun _ => gone_closeNative ..⟩)
    exact within.act (.closeNative slot d _ there idle closing rfl)
      (calls_closeNative _ there idle)

/-- Without a selection nobody else runs. -/
theorem finishNative_none (within : Within base s) {slot : Int} {d : NativeDisplay}
    (there : s.nativeDisplays[slot]? = some d) (idle : d.active = false)
    (closing : d.closing = true) :
    Runs I E base (finishNative slot d none) s fun gone s' => OnlyNatives s s' ∧
      (gone = true → Gone slot d s') := by
  unfold finishNative
  refine Runs.bind (clearNative_runs within there idle closing none) fun answer s' within' both => ?_
  cases answer with
  | none => exact Runs.pure within' ⟨both.1, fun yes => (nomatch yes)⟩
  | some pair =>
      obtain ⟨left, seen⟩ := pair
      have cleared := both.2.2 left seen rfl
      cases left with
      | some index => exact absurd (cleared.chosen index rfl).1 (by simp)
      | none =>
          refine (releaseNative_runs within' cleared.there idle closing).mono ?_
          exact fun gone s'' _ after => ⟨both.1.trans after.1, after.2⟩

theorem closeNativeDisplay_none (within : Within base s) (slot : Int) :
    Runs I E base (closeNativeDisplay slot none) s fun gone s' => OnlyNatives s s' ∧
      (gone = true → s'.nativeDisplays[slot]? = none ∧
        ∀ d, s.nativeDisplays[slot]? = some d → .closed d.session ∈ s'.journal) := by
  unfold closeNativeDisplay
  refine Runs.get ?_
  cases there : s.nativeDisplays[slot]? with
  | none => exact Runs.pure within ⟨OnlyNatives.refl s, fun _ => ⟨there, fun _ is => nomatch is⟩⟩
  | some d =>
      dsimp only
      split
      · exact Runs.pure within ⟨OnlyNatives.refl s, fun yes => (nomatch yes)⟩
      rename_i active
      have idle : d.active = false := by simpa using active
      refine Runs.modify ?_
      have marked : Within base (s.setNative slot { d with closing := true }) :=
        within.act (.markNative slot d _ there (.closing idle)) (calls_setNative there idle idle)
      refine (finishNative_none marked (getElem?_setNative s slot _) idle rfl).mono ?_
      intro gone s' _ after
      refine ⟨OnlyNatives.trans ⟨_, _, _, rfl⟩ after.1, fun yes => ⟨(after.2 yes).1, ?_⟩⟩
      intro e is
      rw [← Option.some.inj is]
      exact (after.2 yes).2

/-- A record whose screen is not the manager's to clear. -/
theorem abandonNative_runs (within : Within base s) {slot : Int} {d : NativeDisplay}
    (there : s.nativeDisplays[slot]? = some d) :
    Runs I E base (abandonNative slot d) s fun _ s' => OnlyNatives s s' := by
  have flags := within.reach.flagged slot d there
  unfold abandonNative closeNativeDisplay
  refine Runs.modify (Runs.get ?_)
  rw [getElem?_setNative]
  dsimp only
  split
  · -- the callback of the record runs: its screen was cleared before
    rename_i active
    have same : s.setNative slot { d with cleared := true } = s := by
      have record : { d with cleared := true } = d := by
        rw [← (flags.active active).1]
      rw [record]
      have table : s.nativeDisplays.insert slot d = s.nativeDisplays := by
        apply Std.ExtTreeMap.ext_getElem?
        intro other
        rw [Tables.getElem?_insert]
        split
        · rw [‹other = slot›, there]
        · rfl
      exact congrArg (fun natives => { s with nativeDisplays := natives }) table
    rw [same]
    exact Runs.pure within (OnlyNatives.refl s)
  · rename_i active
    have idle : d.active = false := by simpa using active
    refine Runs.modify ?_
    have twice : (s.setNative slot { d with cleared := true }).setNative slot
        { d with cleared := true, closing := true } =
        s.setNative slot { d with cleared := true, closing := true } := by
      have table : (s.nativeDisplays.insert slot { d with cleared := true }).insert slot
          { d with cleared := true, closing := true } =
          s.nativeDisplays.insert slot { d with cleared := true, closing := true } := by
        apply Std.ExtTreeMap.ext_getElem?
        intro other
        rw [Tables.getElem?_insert, Tables.getElem?_insert, Tables.getElem?_insert]
        split <;> rfl
      exact congrArg (fun natives => { s with nativeDisplays := natives }) table
    have marked : Within base (s.setNative slot { d with cleared := true, closing := true }) :=
      within.act (.markNative slot d _ there (.abandoned idle)) (calls_setNative there idle idle)
    rw [twice]
    refine (finishNative_none marked (getElem?_setNative s slot _) idle rfl).mono ?_
    exact fun gone s' _ after => OnlyNatives.trans ⟨_, _, _, rfl⟩ after.1

/-- With a selection, the callback of the record may run. -/
theorem selectNative_keeps (within : Within base s) {slot : Int} {d : NativeDisplay} (index : Nat)
    {current : Player} (there : s.nativeDisplays[slot]? = some d) (chosen : s.Chosen d index)
    (closing : d.closing = true)
    (cleared : d.cleared = true) (idle : d.active = false) (callback : d.callback = true)
    (same : current.sameConnection d.player = true)
    (permitted : s.permissions.allows current d.menu.permission = true) :
    Does base (selectNative slot d index (some current)) s fun _ s' => ∃ d' : NativeDisplay,
      s'.nativeDisplays[slot]? = some d' ∧ d'.active = false ∧ d'.closing = true := by
  have act : Act .quiet s (s.selectNative slot d index (some current)) :=
    .selectNative slot d index current there chosen closing cleared idle callback same permitted
  have reach := within.reach.act act
  unfold selectNative
  refine Runs.modify (wp_bind.mpr (wp_enter.mpr ⟨reach, fun r s' reach' later => ?_⟩))
  -- nobody touches the record while its callback runs
  have frozen := congrFun (congrArg Calls.selecting later.calls) slot
  have selecting : (s.selectNative slot d index (some current)).calls.selecting slot =
      some { d with callback := false, active := true } := by
    show ((s.nativeDisplays.insert slot { d with callback := false, active := true })[slot]?).filter
      NativeDisplay.active = _
    rw [Tables.getElem?_insert, if_pos rfl]
    rfl
  rw [selecting] at frozen
  obtain ⟨found, -⟩ := Option.filter_eq_some_iff.mp frozen
  refine Runs.get (Runs.expected _ found ?_)
  have back : Act .quiet s' (s'.setNative slot { d with callback := false, active := false }) :=
    .returnNative slot { d with callback := false, active := true } found rfl
  have calls : (s'.setNative slot { d with callback := false, active := false }).calls =
      s.calls := by
    have rest := later.calls
    refine calls_natives (fun other => ?_) ?_
    · have before := congrFun (congrArg Calls.selecting rest) other
      show ((s'.nativeDisplays.insert slot _)[other]?).filter _ = _
      rw [Tables.getElem?_insert]
      split
      · rw [‹other = slot›, there]
        simp [Option.filter_some, idle]
      · rename_i apart
        have same_other : (s.selectNative slot d index (some current)).calls.selecting other =
            s.calls.selecting other := by
          show ((s.nativeDisplays.insert slot _)[other]?).filter _ = _
          rw [Tables.getElem?_insert, if_neg apart]
          rfl
        exact before.trans same_other
    · simp only [State.calls, Calls.mk.injEq] at rest ⊢
      exact ⟨rest.1, rest.2.1, rest.2.2.1, rest.2.2.2.1, rest.2.2.2.2.1, rest.2.2.2.2.2.1,
        rest.2.2.2.2.2.2.1, trivial⟩
  refine Runs.modified ?_ ⟨_, getElem?_setNative s' slot _, rfl, closing⟩
  exact within.over act (reach'.act back) calls (later.onward.trans back.onward) fun managed =>
    (later.quietly managed).trans (back.quietly reach')

theorem finishNative_keeps (within : Within base s) {slot : Int} {d : NativeDisplay}
    (there : s.nativeDisplays[slot]? = some d) (idle : d.active = false)
    (closing : d.closing = true) {selected : Option Nat}
    (opened : ∀ index, selected = some index → d.cleared = false ∧ s.Chosen d index) :
    Keeps base (finishNative slot d selected) s := by
  unfold finishNative
  refine Runs.bind (clearNative_runs within there idle closing selected)
    fun answer s' within' both => ?_
  cases answer with
  | none => exact Runs.pure within' trivial
  | some pair =>
      obtain ⟨left, seen⟩ := pair
      have cleared := both.2.2 left seen rfl
      cases left with
      | none => exact (releaseNative_runs within' cleared.there idle closing).fine
      | some index =>
          obtain ⟨is, checked⟩ := cleared.chosen index rfl
          obtain ⟨uncleared, chosen⟩ := opened index is
          obtain ⟨player, rfl, same, permitted⟩ := checked uncleared
          have chosen : s'.Chosen { d with cleared := true } index := by
            refine ⟨chosen.1, ?_⟩
            rw [both.2.1]
            exact chosen.2
          dsimp only
          split
          · rename_i callback
            refine Runs.bind (selectNative_keeps within' index cleared.there chosen closing rfl
              idle callback same permitted) fun _ s'' within'' after => ?_
            obtain ⟨d', there', idle', closing'⟩ := after
            exact (releaseNative_runs within'' there' idle' closing').fine
          · exact (releaseNative_runs within' cleared.there idle closing).fine

theorem closeNativeDisplay_keeps (within : Within base s) (slot : Int) {selected : Option Nat}
    (opened : ∀ index, selected = some index →
      ∀ d, s.nativeDisplays[slot]? = some d → d.cleared = false ∧ s.Chosen d index) :
    Keeps base (closeNativeDisplay slot selected) s := by
  unfold closeNativeDisplay
  refine Runs.get ?_
  cases there : s.nativeDisplays[slot]? with
  | none => exact Runs.pure within trivial
  | some d =>
      dsimp only
      split
      · exact Runs.pure within trivial
      rename_i active
      have idle : d.active = false := by simpa using active
      refine Runs.modify ?_
      have marked : Within base (s.setNative slot { d with closing := true }) :=
        within.act (.markNative slot d _ there (.closing idle)) (calls_setNative there idle idle)
      exact finishNative_keeps marked (getElem?_setNative s slot _) idle rfl
        fun index is => opened index is d there

/-! ## Closing menus of scripts -/

/-- Menus were closed, with the handles of those that scripts showed. -/
structure Closes (s s' : State) : Prop where
  only : ∃ nativeDisplays leases journal displays handles,
    s' = { s with nativeDisplays, leases, journal, displays, handles }
  displays : ∀ (slot : Int) (d : Display), s'.displays[slot]? = some d → s.displays[slot]? = some d
  less : Less s.handles s'.handles
  kept : ∀ (id : HandleId) (b : Binding Resource), s.handles.look id = some b →
    (∀ (slot : Int) (d : Display), s.displays[slot]? = some d → d.menu ≠ id) →
    s'.handles.look id = some b

theorem Closes.refl (s : State) : Closes s s :=
  ⟨⟨_, _, _, _, _, rfl⟩, fun _ _ there => there, Less.refl _, fun _ _ found _ => found⟩

theorem Closes.trans {s s' s'' : State} (first : Closes s s') (second : Closes s' s'') :
    Closes s s'' where
  only := by
    obtain ⟨n, l, j, d, h, rfl⟩ := first.only
    obtain ⟨n', l', j', d', h', rfl⟩ := second.only
    exact ⟨n', l', j', d', h', rfl⟩
  displays := fun slot d there => first.displays slot d (second.displays slot d there)
  less := first.less.trans second.less
  kept := fun id b found hidden => second.kept id b (first.kept id b found hidden)
    fun slot d there => hidden slot d (first.displays slot d there)

theorem OnlyNatives.closes {s s' : State} (only : OnlyNatives s s') : Closes s s' := by
  obtain ⟨n, l, j, rfl⟩ := only
  exact ⟨⟨n, l, j, _, _, rfl⟩, fun _ _ there => there, Less.refl _, fun _ _ found _ => found⟩

theorem retireDisplay_runs (within : Within base s) {slot : Int} {d : Display}
    (there : s.displays[slot]? = some d) :
    Runs I E base (retireDisplay slot d) s fun _ s' => Closes s s' ∧
      s'.nativeDisplays = s.nativeDisplays ∧ s'.displays[slot]? = none := by
  obtain ⟨menu, found, -⟩ := within.reach.shown.menu slot d there
  obtain ⟨left, removed⟩ := remove_of_look found
  have after := (look_remove removed).2
  unfold retireDisplay
  refine Runs.get ?_
  rw [removed]
  refine Runs.modified (within.act (.closeMenu slot d _ left there removed) rfl) ⟨⟨?_, ?_, ?_, ?_⟩,
    rfl, ?_⟩
  · exact ⟨_, _, _, _, _, rfl⟩
  · intro other e at_other
    have found : (s.displays.erase slot)[other]? = some e := at_other
    rw [Tables.getElem?_erase] at found
    split at found
    · cases found
    · exact found
  · exact less_remove removed
  · intro id b live hidden
    show left.look id = some b
    rw [after, if_neg (hidden slot d there).symm]
    exact live
  · show (s.displays.erase slot)[slot]? = none
    rw [Tables.getElem?_erase, if_pos rfl]

theorem closeDisplay_runs (within : Within base s) (slot : Int) :
    Runs I E base (closeDisplay slot) s fun gone s' => Closes s s' ∧ (gone = true →
      s'.displays[slot]? = none ∧ s'.nativeDisplays[slot]? = none) := by
  unfold closeDisplay
  refine Runs.bind (closeNativeDisplay_none within slot) fun gone s' within' both => ?_
  have closes := both.1.closes
  split
  · exact Runs.pure within' ⟨closes, fun yes => (nomatch yes)⟩
  rename_i closed
  have dark : s'.nativeDisplays[slot]? = none := (both.2 (by simpa using closed)).1
  refine Runs.get ?_
  cases there : s'.displays[slot]? with
  | none => exact Runs.pure within' ⟨closes, fun _ => ⟨there, dark⟩⟩
  | some d =>
      dsimp only
      have retired : Runs I E base (do retireDisplay slot d; return true) s' fun gone s'' =>
          Closes s s'' ∧ (gone = true →
            s''.displays[slot]? = none ∧ s''.nativeDisplays[slot]? = none) := by
        refine Runs.bind (retireDisplay_runs within' there) fun _ s'' within'' after => ?_
        obtain ⟨closes', natives, empty⟩ := after
        exact Runs.pure within'' ⟨closes.trans closes', fun _ => ⟨empty, natives ▸ dark⟩⟩
      have failed : Runs I E base (pure false) s' fun gone s'' =>
          Closes s s'' ∧ (gone = true →
            s''.displays[slot]? = none ∧ s''.nativeDisplays[slot]? = none) :=
        Runs.pure within' ⟨closes, fun yes => (nomatch yes)⟩
      refine Runs.reply fun r => ?_
      split
      · exact retired
      split
      · exact failed
      refine Runs.host fun result => ?_
      split
      · exact failed
      · exact retired

/-- With no menu of an extension on the slot, the display goes or everything stays. -/
theorem closeDisplay_alone (within : Within base s) {slot : Int} {d : Display}
    (there : s.displays[slot]? = some d) (dark : s.nativeDisplays[slot]? = none) :
    Runs I E base (closeDisplay slot) s fun gone s' =>
      if gone then s'.displays[slot]? = none else s' = s := by
  have native : closeNativeDisplay slot none s = .done (.ok true) s := by
    unfold closeNativeDisplay
    refine (done_bind (rfl : get s = .done (.ok s) s)).trans ?_
    rw [dark]
    rfl
  have retired : Runs I E base (do retireDisplay slot d; return true) s fun gone s' =>
      if gone then s'.displays[slot]? = none else s' = s :=
    Runs.bind (retireDisplay_runs within there) fun _ s' within' after =>
      Runs.pure within' after.2.2
  unfold closeDisplay
  refine Runs.known native (Runs.get ?_)
  rw [there]
  refine Runs.reply fun r => Runs.ite (fun _ => retired) fun _ => ?_
  refine Runs.ite (fun _ => Runs.pure within rfl) fun _ => Runs.host fun result => ?_
  exact Runs.ite (fun _ => Runs.pure within rfl) fun _ => retired

theorem closeOwnedMenus_runs (within : Within base s) (a : Addr) :
    Runs I E base (closeOwnedMenus a) s fun _ s' => Closes s s' := by
  unfold closeOwnedMenus
  refine Runs.get ?_
  refine Runs.forM _ _ (fun slot _ s' within' closes => ?_) s within (Closes.refl s)
  refine Runs.bind (closeDisplay_runs within' slot) fun _ s'' within'' both => ?_
  exact Runs.pure within'' (closes.trans both.1)

theorem shownBy_isEmpty {a : Addr} : (s.shownBy a).isEmpty = true ↔
    ∀ (slot : Int) (d : Display), s.displays[slot]? = some d → d.script ≠ a := by
  unfold State.shownBy
  rw [List.isEmpty_iff, List.map_eq_nil_iff, List.filter_eq_nil_iff]
  constructor
  · intro none_ slot d there mine
    exact none_ (slot, d) (Tables.mem_toList.mpr there) (by simp [mine])
  · rintro none_ ⟨slot, d⟩ member mine
    exact none_ slot d (Tables.mem_toList.mp member) (by simpa using mine)

theorem clearMenus_runs (within : Within base s) (a : Addr) :
    Runs I E base (clearMenus a) s fun cleared s' => Closes s s' ∧ (cleared = true →
      ∀ (slot : Int) (d : Display), s'.displays[slot]? = some d → d.script ≠ a) := by
  unfold clearMenus
  refine Runs.bind (closeOwnedMenus_runs within a) fun _ s' within' closes => ?_
  refine Runs.get (Runs.pure within' ⟨closes, fun empty => shownBy_isEmpty.mp empty⟩)

/-! ## Menus of extensions -/

theorem renderNative_keeps (within : Within base s) {slot : Int} {d : NativeDisplay}
    (there : s.nativeDisplays[slot]? = some d) (session : Session) :
    Keeps base (renderNative slot session) s := by
  unfold renderNative
  refine Runs.host fun result => ?_
  split
  · refine Runs.get (Runs.expected _ there ?_)
    refine Runs.bind (abandonNative_runs within there) fun gone s' within' _ => ?_
    split
    · exact Runs.pure within' trivial
    · exact Runs.pure within' trivial
  · exact Runs.pure within trivial

theorem acquireProvider_runs (within : Within base s) {service : String} {version users : Nat}
    (is : users = s.serviceUsers service version) (unused : users = 0) :
    Runs I E base (acquireProvider service version users) s fun _ s' =>
      s' = s.note (.acquire service version 0) := by
  subst unused
  unfold acquireProvider
  refine Runs.modify (wp_bind.mpr fun r => ?_)
  exact Runs.pure (I := I) (E := E) (within.act (.acquire service version is.symm) rfl) rfl

theorem getElem?_openNative (s : State) (slot : Int) (d : NativeDisplay) (acquired : Bool) :
    (s.openNative slot d acquired).nativeDisplays[slot]? = some d := by
  show (s.nativeDisplays.insert slot d)[slot]? = some d
  rw [Tables.getElem?_insert, if_pos rfl]

theorem openNativeMenu_keeps (within : Within base s) (owner : PluginHandle) (generation : Nat)
    (spec : MenuSpec) : Keeps base (openNativeMenu owner generation spec) s := by
  unfold openNativeMenu
  refine Runs.ite (fun _ => Runs.pure within trivial) fun _ => ?_
  refine Runs.ite (fun _ => Runs.pure within trivial) fun valid => ?_
  refine Runs.reply fun r => Runs.ite (fun _ => Runs.pure within trivial) fun _ => ?_
  refine Runs.ite (fun _ => Runs.pure within trivial) fun _ => ?_
  refine Runs.get (Runs.ite (fun _ => Runs.pure within trivial) fun _ => ?_)
  refine Runs.get (Runs.ite (fun _ => Runs.pure within trivial) fun _ => ?_)
  refine Runs.ite (fun _ => Runs.pure within trivial) fun _ => ?_
  refine Runs.bind (closeDisplay_runs within r.player.slot) fun gone s' within' both => ?_
  refine Runs.ite (fun _ => Runs.pure within' trivial) fun closed => ?_
  obtain ⟨dark, free⟩ := both.2 (by simpa using closed)
  have filled : spec.items.map (fun item => { item with value := -1 }) ≠ [] := by
    intro empty
    have none_ : spec.items = [] := List.map_eq_nil_iff.mp empty
    have fails : spec.valid = false := by simp [MenuSpec.valid, none_]
    exact valid (Or.inr (Or.inr (by simp [fails])))
  refine Runs.get (Runs.ite (fun unused => ?_) fun used => ?_)
  · refine Runs.bind (acquireProvider_runs within' rfl unused) fun result _ noted is => ?_
    subst is
    refine Runs.ite (fun _ => ?_) fun _ => ?_
    · exact Runs.modify (Runs.pure (noted.act .skipSession rfl) trivial)
    · refine Runs.modify (renderNative_keeps (noted.act ?_ ?_) (getElem?_openNative ..) _)
      · exact .openNative r.player.slot _ _ free dark rfl rfl filled rfl ⟨rfl, rfl, rfl, rfl⟩ rfl
      · exact calls_openNative _ free rfl
  · refine Runs.modify (renderNative_keeps (within'.act ?_ ?_) (getElem?_openNative ..) _)
    · exact .openNative r.player.slot _ _ free dark rfl rfl filled rfl ⟨rfl, rfl, rfl, rfl⟩ rfl
    · exact calls_openNative _ free rfl

theorem closeNativeDisplay_quiet (within : Within base s) (slot : Int) :
    Keeps base (closeNativeDisplay slot none) s :=
  (closeNativeDisplay_none within slot).fine

theorem closeNativeMenu_keeps (within : Within base s) (owner : PluginHandle) (session : Session) :
    Keeps base (closeNativeMenu owner session) s := by
  unfold closeNativeMenu
  refine Runs.get ?_
  split
  · exact Runs.pure within trivial
  split
  · exact Runs.pure within trivial
  refine Keeps.bind (closeNativeDisplay_quiet within _) fun gone s' within' => ?_
  split
  · exact Runs.pure within' trivial
  · exact Runs.pure within' trivial

theorem nativeMenuInput_keeps (within : Within base s) (player : Player) (session : Session)
    (input : MenuInput) : Keeps base (nativeMenuInput player session input) s := by
  unfold nativeMenuInput
  refine Runs.get ?_
  cases there : s.nativeDisplays[player.slot]? with
  | none => exact Runs.pure within trivial
  | some d =>
      dsimp only
      split
      · exact Runs.pure within trivial
      rename_i usable
      simp only [not_or, Bool.not_eq_true] at usable
      obtain ⟨session_, -, idle, opened⟩ := usable
      have session_ : d.session = session := not_not.mp session_
      subst session_
      have uncleared : d.cleared = false := by
        by_contra cleared
        have closing := (within.reach.flagged _ d there).closing (by simpa using cleared)
        rw [opened] at closing
        cases closing
      refine Runs.reply fun r => ?_
      split
      · exact Runs.pure within trivial
      split
      · refine Keeps.bind (closeNativeDisplay_quiet within _) fun _ s' within' => ?_
        exact Runs.pure within' trivial
      rename_i timely
      simp only [not_or, not_le] at timely
      have used : Within base (s.setNative player.slot
          { d with expires := s.now + d.timeout, menu := (d.menu.input input).2 }) :=
        within.act (.markNative player.slot d _ there (.used input idle opened timely.2.1))
          (calls_setNative there idle idle)
      refine Runs.modify ?_
      cases action : (d.menu.input input).1 with
      | none => exact Runs.pure used trivial
      | cancelled => exact closeNativeDisplay_quiet used _
      | selected =>
          obtain ⟨item, at_row, enabled⟩ := Menu.input_enabled action
          have row : (d.menu.input input).2.items[(d.menu.input input).2.selected]? = some item := by
            rw [Menu.input_items]
            exact at_row
          have found := getElem?_setNative s player.slot
            { d with expires := s.now + d.timeout, menu := (d.menu.input input).2 }
          refine Runs.modify ?_
          have noted := used.act (.chose player.slot _ _ d.expires found timely.2.1 opened
            ⟨item, row, enabled⟩) rfl
          refine closeNativeDisplay_keeps noted player.slot fun index is e at_slot => ?_
          rw [← Option.some.inj (found.symm.trans at_slot), ← Option.some.inj is]
          exact ⟨uncleared, ⟨item, row, enabled⟩, d.expires, s.now,
            List.mem_append_right _ (List.mem_singleton_self _), timely.2.1⟩
      | changed =>
          refine Runs.host fun result => ?_
          split
          · exact Runs.pure used trivial
          refine Runs.get ?_
          split
          · refine Keeps.bind (closeNativeDisplay_quiet used _) fun _ s' within' => ?_
            exact Runs.pure within' trivial
          · exact Runs.pure used trivial

theorem tickNative_keeps (within : Within base s) (slot : Int) : Keeps base (tickNative slot) s := by
  have closed : Keeps base (do let _ ← closeNativeDisplay slot none) s :=
    Keeps.bind (closeNativeDisplay_quiet within slot) fun _ s' within' => Runs.pure within' trivial
  unfold tickNative
  refine Runs.get ?_
  cases there : s.nativeDisplays[slot]? with
  | none => exact Runs.pure within trivial
  | some d =>
      dsimp only
      split
      · exact Runs.pure within trivial
      split
      · exact closed
      refine Runs.reply fun r => ?_
      split
      · refine Runs.bind (abandonNative_runs within there) fun _ s' within' _ => ?_
        exact Runs.pure within' trivial
      split
      · exact Runs.pure within trivial
      split
      · exact closed
      refine Runs.host fun result => ?_
      split
      · exact closed
      · exact Runs.pure within trivial

theorem tickNativeMenus_keeps (within : Within base s) : Keeps base tickNativeMenus s := by
  unfold tickNativeMenus
  exact Runs.get (Keeps.forM _ _ (fun slot _ s' within' => tickNative_keeps within' slot) s within)

/-! ## Menus of scripts -/

theorem closeDisplay_keeps (within : Within base s) (slot : Int) :
    Keeps base (closeDisplay slot) s := (closeDisplay_runs within slot).fine

theorem expire_within (within : Within base s) {slot : Int} {d : Display}
    (there : s.displays[slot]? = some d) (expires : Int) :
    Within base (s.setDisplay slot { d with expires }) :=
  within.act (.expire slot d expires there) rfl

theorem getElem?_setDisplay (s : State) (slot : Int) (d : Display) :
    (s.setDisplay slot d).displays[slot]? = some d := by
  show (s.displays.insert slot d)[slot]? = some d
  rw [Tables.getElem?_insert, if_pos rfl]

/-- A menu is closed, and a function of its script called. -/
theorem closeAndInvoke_keeps (within : Within base s) (slot : Int) {a : Addr} (reason : Reason)
    (free : ∀ t : State, t.Entitled a reason) (running : s.state a = .running) :
    Keeps base (do
      if !(← closeDisplay slot) then return false
      return (← invoke a reason).1) s := by
  refine Runs.bind (closeDisplay_runs within slot) fun gone s' within' both => ?_
  split
  · exact Runs.pure within' trivial
  obtain ⟨n, l, j, d, h, rfl⟩ := both.1.only
  refine Keeps.bind (invoke_keeps within' reason running (free _)) fun _ s'' within'' => ?_
  exact Runs.pure within'' trivial

theorem menuAction_keeps (within : Within base s) (player : Player) (session : Session)
    {d : Display} {menu : ScriptMenu} (action : MenuAction) {left : Menu}
    (found : s.menu d.menu (s.owner d.script) = some menu)
    (inside : left.selected < left.items.length) (running : s.state d.script = .running)
    {shown : Display} (at_slot : s.displays[player.slot]? = some shown) :
    Keeps base (menuAction player session d menu action left) s := by
  have put := within.act (.putMenu d.script d.menu menu { menu with menu := left } found inside) rfl
  unfold menuAction
  refine Runs.modify ?_
  cases action with
  | none => exact Runs.pure put trivial
  | cancelled => exact closeDisplay_keeps put _
  | selected =>
      refine Runs.expected _ (List.getElem?_eq_getElem inside) ?_
      exact closeAndInvoke_keeps put player.slot .selection (fun _ => trivial) running
  | changed =>
      refine Runs.host fun result => Runs.ite (fun _ => Runs.pure put trivial) fun _ => ?_
      refine Runs.get (Runs.ite (fun _ => ?_) fun _ => Runs.pure put trivial)
      refine Runs.get (Runs.expected _ at_slot ?_)
      have expired := expire_within put at_slot s.now
      refine Runs.modify (Keeps.bind (closeDisplay_keeps expired _) fun _ s' within' => ?_)
      exact Runs.pure within' trivial

/-- The menu of a display is there, and it has rows. -/
theorem State.displayed (reach : Reach s) {slot : Int} {d : Display}
    (there : s.displays[slot]? = some d) : ∃ menu,
      s.menu d.menu (s.owner d.script) = some menu ∧
        menu.menu.selected < menu.menu.items.length := by
  obtain ⟨menu, look, rows⟩ := reach.shown.menu _ d there
  exact ⟨menu, State.menu_of_get (get_iff.mpr look), rows⟩

theorem scriptMenuInput_keeps (within : Within base s) (player : Player) (session : Session)
    (input : MenuInput) {d : Display} (there : s.displays[player.slot]? = some d) :
    Keeps base (scriptMenuInput player session input d) s := by
  have closed : Keeps base (do let _ ← closeDisplay player.slot; return false) s :=
    Keeps.bind (closeDisplay_keeps within _) fun _ s' within' => Runs.pure within' trivial
  unfold scriptMenuInput
  refine Runs.get (Runs.ite (fun _ => closed) fun up => ?_)
  obtain ⟨running, -⟩ := not_or.mp up
  have running : s.state d.script = .running := not_not.mp running
  obtain ⟨menu, found, rows⟩ := State.displayed within.reach there
  refine Runs.expected _ found (Looks.bind (allowed_looks within _ _ _) fun permitted _ => ?_)
  refine Runs.ite (fun _ => closed) fun _ => Runs.modify ?_
  have shown := expire_within within there (s.now + d.timeout)
  have at_slot := getElem?_setDisplay s player.slot { d with expires := s.now + d.timeout }
  split
  · refine Runs.modify ?_
    exact closeAndInvoke_keeps (expire_within shown at_slot s.now) player.slot .back
      (fun _ => trivial) running
  · have filled : menu.menu.items ≠ [] := by
      intro empty
      rw [empty] at rows
      exact absurd rows (Nat.not_lt_zero _)
    have inside : ∀ button : MenuInput,
        (menu.menu.input button).2.selected < (menu.menu.input button).2.items.length := by
      intro button
      rw [Menu.input_items]
      exact Menu.input_selected filled button
    exact menuAction_keeps shown player session _ found (inside _) running at_slot

theorem menuInput_keeps (within : Within base s) (player : Player) (session : Session)
    (input : MenuInput) : Keeps base (menuInput player session input) s := by
  unfold menuInput
  refine Runs.get ?_
  split
  · exact nativeMenuInput_keeps within player session input
  cases there : s.displays[player.slot]? with
  | none => exact Runs.pure within trivial
  | some d =>
      dsimp only
      split
      · exact Runs.pure within trivial
      · exact scriptMenuInput_keeps within player session input there

theorem pollMenuInput_keeps (within : Within base s) : Keeps base pollMenuInput s := by
  unfold pollMenuInput
  refine Runs.get (Keeps.forM _ _ (fun item _ s' within' => ?_) s within)
  unfold pollOne
  refine Runs.get ?_
  split
  · exact Runs.pure within' trivial
  refine Runs.reply fun r => ?_
  cases r.input with
  | none => exact Runs.pure within' trivial
  | some action =>
      refine Keeps.bind (menuInput_keeps within' _ _ _) fun _ s'' within'' => ?_
      exact Runs.pure within'' trivial

theorem tickDisplay_keeps (within : Within base s) (slot : Int) :
    Keeps base (tickDisplay slot) s := by
  have closed : ∀ {s' : State}, Within base s' →
      Keeps base (do let _ ← closeDisplay slot) s' := fun within' =>
    Keeps.bind (closeDisplay_keeps within' _) fun _ s'' within'' => Runs.pure within'' trivial
  unfold tickDisplay
  refine Runs.get ?_
  cases there : s.displays[slot]? with
  | none => exact Runs.pure within trivial
  | some d =>
      dsimp only
      split
      · exact closed within
      refine Runs.reply fun r => ?_
      split
      · refine Runs.bind (retireDisplay_runs within there) fun _ s' within' _ => ?_
        exact Runs.pure within' trivial
      split
      · exact Runs.pure within trivial
      obtain ⟨menu, found, -⟩ := State.displayed within.reach there
      refine Runs.expected _ found ?_
      split
      · exact Runs.modify (closed (expire_within within there s.now))
      refine Runs.host fun result => ?_
      split
      · exact Runs.modify (closed (expire_within within there s.now))
      · exact Runs.pure within trivial

theorem tickDisplays_keeps (within : Within base s) : Keeps base tickDisplays s := by
  unfold tickDisplays
  exact Runs.get (Keeps.forM _ _ (fun slot _ s' within' => tickDisplay_keeps within' slot) s within)

end Source2Root.Foundation
