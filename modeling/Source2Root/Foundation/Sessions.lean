import Source2Root.Foundation.Safety
import Source2Root.Chronicle

/-!
# The sessions of menus

What the journal says about the menus that were opened: every session has a number of
its own, a session of an extension ends once, and its callback runs at most once, for
the item that was chosen and the player it was opened for, before it ends.
-/

set_option autoImplicit false

namespace Source2Root.Foundation

open Reentrant Chronicle

/-! ## What the journal says -/

/-- What must be the case when the callback of a session is called. -/
structure Selecting (before : List Happening) (session : Session) (index : Nat)
    (d : NativeDisplay) (current : Option Player) (allowed : Bool) : Prop where
  opened : .opened session d.player true ∈ before
  unclosed : .closed session ∉ before
  first : ∀ index d current allowed, .selected session index d current allowed ∉ before
  enabled : ∃ item, d.menu.items[index]? = some item ∧ item.enabled = true
  chosen : ∃ expires now, .chose session index expires now ∈ before ∧ now < expires
  same : ∃ player, current = some player ∧ player.sameConnection d.player = true
  allowed : allowed = true

def SessionRule (before : List Happening) : Happening → Prop
  | .opened session _ _ => ∀ earlier player native, .opened earlier player native ∈ before →
      earlier < session
  | .closed session => (∃ player, .opened session player true ∈ before) ∧ .closed session ∉ before
  | .selected session index d current allowed =>
      Selecting before session index d current allowed
  | _ => True

/-- The event opens, closes or uses a session. -/
def OfSession : Happening → Prop
  | .opened .. => True
  | .closed _ => True
  | .selected .. => True
  | _ => False

structure Sessions (journal : List Happening) (displays : Displays)
    (nativeDisplays : NativeDisplays) (nextSession : Session) : Prop where
  rule : Obeys SessionRule journal
  below : ∀ session player native, .opened session player native ∈ journal → session < nextSession
  shown : ∀ (slot : Int) (d : Display), displays[slot]? = some d →
    .opened d.session d.player false ∈ journal
  native : ∀ (slot : Int) (d : NativeDisplay), nativeDisplays[slot]? = some d →
    .opened d.session d.player true ∈ journal ∧ .closed d.session ∉ journal
  unused : ∀ (slot : Int) (d : NativeDisplay), nativeDisplays[slot]? = some d →
    d.callback = true → ∀ index e current allowed,
      .selected d.session index e current allowed ∉ journal
  gone : ∀ session player, .opened session player true ∈ journal → .closed session ∈ journal ∨
    ∃ (slot : Int) (d : NativeDisplay), nativeDisplays[slot]? = some d ∧ d.session = session

def State.Sessioned (s : State) : Prop :=
  Sessions s.journal s.displays s.nativeDisplays s.nextSession

section Sessions

variable {journal events : List Happening} {displays left : Displays}
  {nativeDisplays : NativeDisplays} {nextSession : Session}

theorem not_mem_append {e : Happening} (old : e ∉ journal) (new : e ∉ events) :
    e ∉ journal ++ events := fun member => (List.mem_append.mp member).elim old new

theorem not_mem_note {e noted : Happening} (old : e ∉ journal) (apart : e ≠ noted) :
    e ∉ journal ++ [noted] :=
  not_mem_append old fun member => apart (List.mem_singleton.mp member)

theorem mem_note {e noted : Happening} (member : e ∈ journal ++ [noted]) :
    e ∈ journal ∨ e = noted :=
  (List.mem_append.mp member).imp_right List.mem_singleton.mp

/-- Other things happen, and displays of scripts go. -/
theorem Sessions.other (sessions : Sessions journal displays nativeDisplays nextSession)
    (free : ∀ e ∈ events, ¬ OfSession e)
    (old : ∀ (slot : Int) (d : Display), left[slot]? = some d → ∃ e : Display,
      displays[slot]? = some e ∧ e.session = d.session ∧ e.player = d.player) :
    Sessions (journal ++ events) left nativeDisplays nextSession := by
  have kept : ∀ e, OfSession e → e ∈ journal ++ events → e ∈ journal := fun e kind member =>
    (List.mem_append.mp member).resolve_right fun new => free e new kind
  have more : ∀ e, e ∈ journal → e ∈ journal ++ events := fun e => List.mem_append_left events
  refine ⟨sessions.rule.append fun e member before => ?_, fun session player native member =>
    sessions.below session player native (kept _ trivial member), fun slot d there => ?_,
    fun slot d there => ?_, fun slot d there callback index e current allowed member =>
      sessions.unused slot d there callback index e current allowed (kept _ trivial member),
    fun session player member => ?_⟩
  · have plain := free e member
    cases e with
    | opened => exact absurd trivial plain
    | closed => exact absurd trivial plain
    | selected => exact absurd trivial plain
    | _ => trivial
  · obtain ⟨e, was, session, player⟩ := old slot d there
    rw [← session, ← player]
    exact more _ (sessions.shown slot e was)
  · obtain ⟨opened, unclosed⟩ := sessions.native slot d there
    exact ⟨more _ opened, fun member => unclosed (kept _ trivial member)⟩
  · exact (sessions.gone session player (kept _ trivial member)).imp_left (more _)

theorem Sessions.note (sessions : Sessions journal displays nativeDisplays nextSession)
    {e : Happening} (plain : ¬ OfSession e) :
    Sessions (journal ++ [e]) displays nativeDisplays nextSession :=
  sessions.other (fun _ member => List.mem_singleton.mp member ▸ plain)
    fun _ d there => ⟨d, there, rfl, rfl⟩

theorem Sessions.hide (sessions : Sessions journal displays nativeDisplays nextSession)
    (old : ∀ (slot : Int) (d : Display), left[slot]? = some d → ∃ e : Display,
      displays[slot]? = some e ∧ e.session = d.session ∧ e.player = d.player) :
    Sessions journal left nativeDisplays nextSession := by
  have same := sessions.other (fun e (member : e ∈ []) => absurd member List.not_mem_nil) old
  rwa [List.append_nil] at same

/-- A record changes in place. -/
theorem Sessions.mark (sessions : Sessions journal displays nativeDisplays nextSession)
    {slot : Int} {d : NativeDisplay} (d' : NativeDisplay) (there : nativeDisplays[slot]? = some d)
    (session : d'.session = d.session) (player : d'.player = d.player)
    (callback : d'.callback = true → d.callback = true) :
    Sessions journal displays (nativeDisplays.insert slot d') nextSession where
  rule := sessions.rule
  below := sessions.below
  shown := sessions.shown
  native := by
    intro other e at_other
    rw [Tables.getElem?_insert] at at_other
    split at at_other
    · cases at_other
      rw [session, player]
      exact sessions.native slot d there
    · exact sessions.native other e at_other
  unused := by
    intro other e at_other up
    rw [Tables.getElem?_insert] at at_other
    split at at_other
    · cases at_other
      rw [session]
      exact sessions.unused slot d there (callback up)
    · exact sessions.unused other e at_other up
  gone := by
    intro number owner member
    rcases sessions.gone number owner member with closed | ⟨other, e, at_other, is⟩
    · exact Or.inl closed
    · refine Or.inr ?_
      by_cases here : other = slot
      · refine ⟨slot, d', by rw [Tables.getElem?_insert, if_pos rfl], ?_⟩
        rw [here, there] at at_other
        cases at_other
        rw [session, is]
      · exact ⟨other, e, by rw [Tables.getElem?_insert, if_neg here]; exact at_other, is⟩

/-- No event of a session that is still to come. -/
theorem Sessions.unheard (sessions : Sessions journal displays nativeDisplays nextSession) :
    .closed nextSession ∉ journal ∧ ∀ index d current allowed,
      .selected nextSession index d current allowed ∉ journal := by
  have unopened : ∀ player native, .opened nextSession player native ∉ journal :=
    fun player native member => lt_irrefl _ (sessions.below nextSession player native member)
  refine ⟨fun member => ?_, fun index d current allowed member => ?_⟩
  · obtain ⟨before, after, split, ⟨player, opened⟩, -⟩ := sessions.rule.of_mem member
    exact unopened player true (split ▸ List.mem_append_left _ opened)
  · obtain ⟨before, after, split, selecting⟩ := sessions.rule.of_mem member
    exact unopened d.player true (split ▸ List.mem_append_left _ selecting.opened)

/-- A session is opened with a number that was never used. -/
theorem Sessions.opened (sessions : Sessions journal displays nativeDisplays nextSession)
    {later : Displays} {natives : NativeDisplays} (player : Player) (native : Bool)
    (shown : ∀ (slot : Int) (d : Display), later[slot]? = some d → displays[slot]? = some d ∨
      (native = false ∧ d.session = nextSession ∧ d.player = player))
    (new : ∀ (slot : Int) (d : NativeDisplay), natives[slot]? = some d →
      nativeDisplays[slot]? = some d ∨
        (native = true ∧ d.session = nextSession ∧ d.player = player))
    (kept : ∀ (slot : Int) (d : NativeDisplay), nativeDisplays[slot]? = some d →
      natives[slot]? = some d)
    (there : native = true → ∃ (slot : Int) (d : NativeDisplay), natives[slot]? = some d ∧
      d.session = nextSession) :
    Sessions (journal ++ [.opened nextSession player native]) later natives (nextSession + 1) := by
  have more : ∀ e, e ∈ journal → e ∈ journal ++ [.opened nextSession player native] :=
    fun e => List.mem_append_left _
  have last : .opened nextSession player native ∈ journal ++ [.opened nextSession player native] :=
    List.mem_append_right _ (List.mem_singleton_self _)
  refine ⟨sessions.rule.snoc fun earlier who kind member => sessions.below _ _ _ member,
    fun session who kind member => ?_, fun slot d at_slot => ?_, fun slot d at_slot => ?_,
    fun slot d at_slot callback index e current allowed => ?_, fun session who member => ?_⟩
  · rcases mem_note member with old | is
    · exact Nat.lt_succ_of_lt (sessions.below _ _ _ old)
    · cases is
      exact Nat.lt_succ_self _
  · rcases shown slot d at_slot with old | ⟨rfl, session, rfl⟩
    · exact more _ (sessions.shown slot d old)
    · rw [session]
      exact last
  · rcases new slot d at_slot with old | ⟨rfl, session, rfl⟩
    · obtain ⟨opened, unclosed⟩ := sessions.native slot d old
      exact ⟨more _ opened, not_mem_note unclosed (by simp)⟩
    · rw [session]
      exact ⟨last, not_mem_note sessions.unheard.1 (by simp)⟩
  · rcases new slot d at_slot with old | ⟨rfl, session, rfl⟩
    · exact not_mem_note (sessions.unused slot d old callback index e current allowed) (by simp)
    · rw [session]
      exact not_mem_note (sessions.unheard.2 index e current allowed) (by simp)
  · rcases mem_note member with old | is
    · rcases sessions.gone session who old with closed | ⟨slot, d, at_slot, same⟩
      · exact Or.inl (more _ closed)
      · exact Or.inr ⟨slot, d, kept slot d at_slot, same⟩
    · cases is
      exact Or.inr (there rfl)

/-- The callback of a record runs, and the record has none any more. -/
theorem Sessions.select (sessions : Sessions journal displays nativeDisplays nextSession)
    (placing : Placing displays nativeDisplays nextSession) {slot : Int} {d : NativeDisplay}
    (d' : NativeDisplay) {index : Nat} {current : Option Player} {allowed : Bool}
    (there : nativeDisplays[slot]? = some d) (session : d'.session = d.session)
    (player : d'.player = d.player) (callback : d'.callback = false)
    (right : Selecting journal d.session index d current allowed) :
    Sessions (journal ++ [.selected d.session index d current allowed]) displays
      (nativeDisplays.insert slot d') nextSession := by
  have marked := sessions.mark d' there session player fun up =>
    absurd (callback.symm.trans up) (by simp)
  have more : ∀ e, e ∈ journal → e ∈ journal ++ [.selected d.session index d current allowed] :=
    fun e => List.mem_append_left _
  refine ⟨sessions.rule.snoc right, fun number who kind member => ?_, fun other e at_other =>
    more _ (marked.shown other e at_other), fun other e at_other => ?_,
    fun other e at_other up index' e' current' allowed' => ?_, fun number who member => ?_⟩
  · rcases mem_note member with old | is
    · exact sessions.below _ _ _ old
    · cases is
  · obtain ⟨opened, unclosed⟩ := marked.native other e at_other
    exact ⟨more _ opened, not_mem_note unclosed (by simp)⟩
  · refine not_mem_note (marked.unused other e at_other up _ _ _ _) fun is => ?_
    have same : e.session = d.session := by injection is
    rw [Tables.getElem?_insert] at at_other
    split at at_other
    · cases at_other
      rw [callback] at up
      cases up
    · exact absurd (placing.nativeOne other slot e d at_other there same) ‹other ≠ slot›
  · rcases mem_note member with old | is
    · exact (marked.gone number who old).imp_left (more _)
    · cases is

/-- A record goes, and its session ends. -/
theorem Sessions.close (sessions : Sessions journal displays nativeDisplays nextSession)
    (placing : Placing displays nativeDisplays nextSession) {slot : Int} {d : NativeDisplay}
    (there : nativeDisplays[slot]? = some d) :
    Sessions (journal ++ [.closed d.session]) displays (nativeDisplays.erase slot) nextSession := by
  have more : ∀ e, e ∈ journal → e ∈ journal ++ [.closed d.session] :=
    fun e => List.mem_append_left _
  have left : ∀ (other : Int) (e : NativeDisplay), (nativeDisplays.erase slot)[other]? = some e →
      other ≠ slot ∧ nativeDisplays[other]? = some e := by
    intro other e at_other
    rw [Tables.getElem?_erase] at at_other
    split at at_other
    · cases at_other
    · exact ⟨‹other ≠ slot›, at_other⟩
  obtain ⟨opened, unclosed⟩ := sessions.native slot d there
  refine ⟨sessions.rule.snoc ⟨⟨d.player, opened⟩, unclosed⟩, fun number who kind member => ?_,
    fun other e at_other => more _ (sessions.shown other e at_other), fun other e at_other => ?_,
    fun other e at_other up index e' current allowed => ?_, fun number who member => ?_⟩
  · rcases mem_note member with old | is
    · exact sessions.below _ _ _ old
    · cases is
  · obtain ⟨apart, was⟩ := left other e at_other
    obtain ⟨opened_e, unclosed_e⟩ := sessions.native other e was
    refine ⟨more _ opened_e, not_mem_note unclosed_e fun is => apart ?_⟩
    exact placing.nativeOne other slot e d was there (by injection is)
  · exact not_mem_note (sessions.unused other e (left other e at_other).2 up _ _ _ _) (by simp)
  · rcases mem_note member with old | is
    · rcases sessions.gone number who old with closed | ⟨other, e, at_other, same⟩
      · exact Or.inl (more _ closed)
      · by_cases here : other = slot
        · rw [here, there] at at_other
          cases at_other
          exact Or.inl (same ▸ List.mem_append_right _ (List.mem_singleton_self _))
        · refine Or.inr ⟨other, e, ?_, same⟩
          rw [Tables.getElem?_erase, if_neg here]
          exact at_other
    · cases is

end Sessions

/-! ## Every run -/

theorem Marked.callback {now : Int} {d d' : NativeDisplay} (marked : Marked now d d') :
    d'.callback = d.callback := by cases marked <;> rfl

variable {start s s' : State} {stack : Stack}

theorem Act.sessioned {k : Kind} (act : Act k s s') (screens : s.Screens)
    (sessions : s.Sessioned) : s'.Sessioned := by
  cases act with
  | skipSession =>
      exact { sessions with
        below := fun session player native member =>
          Nat.lt_succ_of_lt (sessions.below session player native member) }
  | openNative slot d acquired free dark session there filled top fresh first =>
      show Sessions (s.journal ++ [.opened d.session d.player true]) s.displays
        (s.nativeDisplays.insert slot d) (s.nextSession + 1)
      rw [session]
      refine sessions.opened d.player true (fun other e at_other => Or.inl at_other) ?_ ?_ ?_
      · intro other e at_other
        rw [Tables.getElem?_insert] at at_other
        split at at_other
        · cases at_other
          exact Or.inr ⟨rfl, session, rfl⟩
        · exact Or.inl at_other
      · intro other e at_other
        rw [Tables.getElem?_insert, if_neg]
        · exact at_other
        · rintro rfl
          rw [free] at at_other
          cases at_other
      · exact fun _ => ⟨slot, d, by rw [Tables.getElem?_insert, if_pos rfl], session⟩
  | markNative slot d d' there marked =>
      exact sessions.mark d' there marked.session.1 marked.session.2 fun up =>
        marked.callback.symm.trans up
  | selectNative slot d index current there chosen closing cleared idle callback same permitted =>
      obtain ⟨opened, unclosed⟩ := sessions.native slot d there
      obtain ⟨enabled, expires, now, chose, inTime⟩ := chosen
      have right : Selecting s.journal d.session index d (some current)
          ((some current).any fun player => s.permissions.allows player d.menu.permission) :=
        { opened, unclosed, enabled
          first := sessions.unused slot d there callback
          chosen := ⟨expires, now, chose, inTime⟩
          same := ⟨current, rfl, same⟩
          allowed := permitted }
      exact sessions.select screens { d with callback := false, active := true } there rfl rfl rfl
        right
  | returnNative slot d there active =>
      exact sessions.mark { d with active := false } there rfl rfl id
  | closeNative slot d released there idle closing last => exact sessions.close screens there
  | addDisplay a id handle player timeout menu running loaded free dark live filled unshown =>
      refine sessions.opened player false ?_ (fun other e at_other => Or.inl at_other)
        (fun other e at_other => at_other) (fun kind => nomatch kind)
      intro other e at_other
      simp only [State.addDisplay] at at_other
      rw [Tables.getElem?_insertIfNew free] at at_other
      split at at_other
      · cases at_other
        exact Or.inr ⟨rfl, rfl, rfl⟩
      · exact Or.inl at_other
  | expire slot d expires there =>
      refine sessions.hide fun other e at_other => ?_
      have found : (s.displays.insert slot { d with expires })[other]? = some e := at_other
      rw [Tables.getElem?_insert] at found
      split at found
      · cases found
        exact ⟨d, ‹other = slot› ▸ there, rfl, rfl⟩
      · exact ⟨e, found, rfl, rfl⟩
  | closeMenu slot d value handles there removed =>
      refine sessions.hide fun other e at_other => ?_
      have found : (s.displays.erase slot)[other]? = some e := at_other
      rw [Tables.getElem?_erase] at found
      split at found
      · cases found
      · exact ⟨e, found, rfl, rfl⟩
  | clearDisplays => exact sessions.hide fun other e at_other => absurd at_other (by simp)
  | dropCommand a name owners removed =>
      cases removed with
      | true => exact sessions.note id
      | false => exact sessions
  | dropEvent a name owners removed =>
      cases removed with
      | true => exact sessions.note id
      | false => exact sessions
  | dropConVar a name id_ v released =>
      cases released with
      | true => exact sessions.note id
      | false => exact sessions
  | dropCallbacks a still =>
      refine sessions.other (fun e member => ?_) fun _ d there => ⟨d, there, rfl, rfl⟩
      obtain ⟨token, -, rfl⟩ := List.mem_map.mp member
      exact id
  | _ => first | exact sessions | exact sessions.note id

theorem Reach.sessioned (reach : Reach s) : s.Sessioned := by
  induction reach with
  | boot first =>
      obtain ⟨now, publicTrigger, silentTrigger, rfl⟩ := first
      refine ⟨.nil, ?_, ?_, ?_, ?_, ?_⟩
      all_goals simp [State.boot]
  | act before change ih => exact change.sessioned before.screens ih

/-! ## Menus on screens -/

/-- The script behind a display is loaded. -/
theorem Reach.display_loaded (reach : Reach s) {slot : Int} {d : Display}
    (there : s.displays[slot]? = some d) : s.vm d.script = true := by
  obtain ⟨menu, live, -⟩ := reach.shown.menu slot d there
  by_contra unloaded
  exact reach.bared.handles d.script (by simpa using unloaded) d.menu _ live rfl

/-- At most one menu for each player slot, a number of its own for every session, and
behind every display a live menu of a script that is there. -/
theorem menus_placed (boot : Boot start) (reached : Reached start s stack) :
    (∀ slot, slot ∈ s.displays → slot ∉ s.nativeDisplays) ∧
    (∀ (slot : Int) (d : Display), s.displays[slot]? = some d → d.player.slot = slot) ∧
    (∀ (slot : Int) (d : NativeDisplay), s.nativeDisplays[slot]? = some d →
      d.player.slot = slot) ∧
    (∀ (slot other : Int) (d e : Display), s.displays[slot]? = some d →
      s.displays[other]? = some e → d.session = e.session ∨ d.menu = e.menu → slot = other) ∧
    (∀ (slot other : Int) (d e : NativeDisplay), s.nativeDisplays[slot]? = some d →
      s.nativeDisplays[other]? = some e → d.session = e.session → slot = other) ∧
    (∀ (slot other : Int) (d : Display) (e : NativeDisplay), s.displays[slot]? = some d →
      s.nativeDisplays[other]? = some e → d.session ≠ e.session) ∧
    (∀ before session player native after,
      s.journal = before ++ .opened session player native :: after →
        ∀ earlier who kind, .opened earlier who kind ∈ before → earlier < session) ∧
    (∀ (slot : Int) (d : Display), s.displays[slot]? = some d →
      s.vm d.script = true ∧ s.Alive d.script ∧ ∃ menu,
        s.handles.look d.menu = some (menuBinding (s.owner d.script) menu) ∧
          menu.menu.selected < menu.menu.items.length) ∧
    ∀ lookup ∈ [Lookup.menu, .item, .display, .nativeDisplay], lookup ∉ s.missed := by
  have reach := reached.reach boot
  have screens := reach.screens
  refine ⟨fun slot shown native => ?_, screens.slot, screens.nativeSlot,
    fun slot other d e at_slot at_other same => ?_, screens.nativeOne, screens.apart,
    fun before session player native after split => ?_, fun slot d there => ?_,
    fun lookup member missed => ?_⟩
  · obtain ⟨d, there⟩ := Tables.mem_iff.mp shown
    obtain ⟨e, at_slot⟩ := Tables.mem_iff.mp native
    rw [screens.dark slot d there] at at_slot
    cases at_slot
  · rcases same with session | menu
    · exact screens.one slot other d e at_slot at_other session
    · exact reach.shown.one slot other d e at_slot at_other menu
  · exact reach.sessioned.rule before _ after split
  · have loaded := reach.display_loaded there
    exact ⟨loaded, reach.alive loaded, reach.shown.menu slot d there⟩
  · cases reach.missed lookup missed
    simp at member

/-- A player opens the menu of a script with a command. -/
def showing : History :=
  starting ++ [.start (.native 1 (.registerCommand "sr_menu" "" 0 "")), .reply {},
    .start (.native 1 (.createMenu "Clans" "" 0 none)),
    .start (.native 1 (.addMenuItem 4097 "Join" 1 0)), .back { cell := 1 },
    .start (.report (.dispatch .publicChat 0 ['!', 'm', 'e', 'n', 'u'])),
    .reply { player := { slot := 0, connection := 1 } },
    .start (.native 1 (.showMenu 4097 4098 1000)),
    .reply { player := { slot := 0, connection := 1 } },
    .reply { player := { slot := 0, connection := 1 } }, .reply {}]

theorem menus_placed_showing : ∃ s stack, Reached (State.boot 0 ['!'] ['/']) s stack ∧
    ∃ d : Display, s.displays[(0 : Int)]? = some d ∧ 0 ∉ s.nativeDisplays ∧ s.Alive d.script := by
  obtain ⟨s, stack, reached, shown⟩ := @History.reached showing
    (fun s => s.displays.contains 0) (by decide +kernel)
  obtain ⟨d, there⟩ := Tables.mem_iff.mp shown
  have placed := menus_placed boot_boot reached
  have alive := (placed.2.2.2.2.2.2.2.1 0 d there).2.1
  exact ⟨s, stack, reached, d, there, placed.1 0 shown, alive⟩

/-! ## Sessions of extensions -/

/-- A session that `CloseNativeMenu` says is closed or not there has ended. -/
theorem closeNativeMenu_gone (reach : Reach s) (owner : PluginHandle) (session : Session)
    (opened : ∃ player, .opened session player true ∈ s.journal) :
    (closeNativeMenu owner session s).Wp Reach Later fun outcome s' =>
      outcome = .ok .ok ∨ outcome = .ok .notFound → .closed session ∈ s'.journal := by
  unfold closeNativeMenu
  refine get_wp ?_
  cases found : s.nativeDisplays.toList.find? (·.2.session == session) with
  | none =>
      intro _
      obtain ⟨player, opened⟩ := opened
      rcases reach.sessioned.gone session player opened with closed | ⟨slot, d, there, is⟩
      · exact closed
      · have other := List.find?_eq_none.mp found (slot, d) (Tables.mem_toList.mpr there)
        exact absurd is (by simpa using other)
  | some entry =>
      obtain ⟨slot, d⟩ := entry
      have there := Tables.mem_toList.mp (List.mem_of_find?_eq_some found)
      have is : d.session = session := by simpa using List.find?_some found
      refine wp_ite (fun _ refused => by simp at refused) fun _ => ?_
      refine bind_wp (closeNativeDisplay_none (E := False) (Within.start reach) slot) ?_ ?_
      · intro gone s' after
        cases gone with
        | true => exact fun _ => is ▸ ((after.2.1 true rfl).2 rfl).2 d there
        | false => exact fun refused => by simp at refused
      · exact fun x s' after => (after.2.2 x rfl).elim

/-- The callback of an opened session is called at most once, rightly, and not after the
session has ended; a session ends once, as its record goes with its share of the lease. -/
theorem sessions_kept (boot : Boot start) (reached : Reached start s stack) :
    (∀ before session index d current allowed after,
      s.journal = before ++ .selected session index d current allowed :: after →
        Selecting before session index d current allowed) ∧
    (∀ before session after, s.journal = before ++ .closed session :: after →
      (∃ player, .opened session player true ∈ before) ∧ .closed session ∉ before) ∧
    (∀ session player, .opened session player true ∈ s.journal →
      (.closed session ∈ s.journal ↔
        ∀ (slot : Int) (d : NativeDisplay), s.nativeDisplays[slot]? = some d →
          d.session ≠ session)) ∧
    (∀ (slot : Int) (d : NativeDisplay), s.nativeDisplays[slot]? = some d →
      (d.service, d.version) ∈ s.leases) ∧
    (∀ owner session, (∃ player, .opened session player true ∈ s.journal) →
      (closeNativeMenu owner session s).Wp Reach Later fun outcome s' =>
        outcome = .ok .ok ∨ outcome = .ok .notFound → .closed session ∈ s'.journal) ∧
    ∀ slot, (releaseNative slot s).Wp Reach Later fun outcome s' =>
      outcome ≠ .ok true → SameUsers s s' := by
  have reach := reached.reach boot
  have sessions := reach.sessioned
  refine ⟨fun before session index d current allowed after split => sessions.rule _ _ _ split,
    fun before session after split => sessions.rule _ _ _ split, fun session player opened => ?_,
    fun slot d there => reach.native_leased there,
    fun owner session => closeNativeMenu_gone reach owner session, releaseNative_refused⟩
  constructor
  · rintro closed slot d there rfl
    exact (sessions.native slot d there).2 closed
  · intro absent
    rcases sessions.gone session player opened with closed | ⟨slot, d, there, is⟩
    · exact closed
    · exact absurd is (absent slot d there)

/-- A player chooses in the menu of an extension. -/
def choosing : History :=
  [.start (.service (.openNativeMenu 5 1
      { title := "Clans", items := [{ text := "Join" }], service := "clans", version := 1,
        timeout := 1000 })),
    .reply { player := { slot := 0, connection := 1 } }, .reply {}, .reply {},
    .start (.report (.menuInput { slot := 0, connection := 1 } 1 .select)),
    .reply { player := { slot := 0, connection := 1 } },
    .reply { player := { slot := 0, connection := 1 } }, .reply {}]

def selects : Happening → Bool
  | .selected .. => true
  | _ => false

theorem sessions_kept_choosing : ∃ s stack, Reached (State.boot 0 ['!'] ['/']) s stack ∧
    ∃ before session index d current allowed,
      s.journal = before ++ [.selected session index d current allowed] ∧
        Selecting before session index d current allowed := by
  obtain ⟨s, stack, reached, selected⟩ := @History.reached choosing
    (fun s => s.journal.getLast?.any selects) (by decide +kernel)
  obtain ⟨e, last, kind⟩ := (Option.any_eq_true _ _).mp selected
  obtain ⟨before, split⟩ := List.getLast?_eq_some_iff.mp last
  cases e with
  | selected session index d current allowed =>
      exact ⟨s, stack, reached, before, session, index, d, current, allowed, split,
        (sessions_kept boot_boot reached).1 before session index d current allowed [] split⟩
  | _ => exact nomatch kind

end Source2Root.Foundation
