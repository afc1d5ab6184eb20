import Source2Root.Foundation.Consumers
import Source2Root.Foundation.Callbacks

/-!
# The life of a generation

The calls into one generation of a script come in three phases: while it is loading
only its start is called, then it is running, and in the end only its stop is called.
A generation whose code is gone leaves nothing behind.
-/

set_option autoImplicit false

namespace Source2Root.Foundation

open Handles Reentrant Chronicle

variable {start s s' : State} {stack : Stack} {a : Addr}

/-! ## The calls into a generation -/

/-- How far a generation is in its life. -/
def PluginState.phase : PluginState → Nat
  | .loading => 0
  | .running => 1
  | .paused => 1
  | _ => 2

/-- A call comes in its turn. -/
structure InTurn (owner : Nat) (before : List Happening) (a : Addr) (reason : Reason)
    (state : PluginState) : Prop where
  only : state = .running ∨ reason = .start ∧ state = .loading ∨ reason = .stop ∧ state = .retiring
  order : ∀ other earlier managing, .called a other earlier managing ∈ before →
    earlier.phase ≤ state.phase
  kept : state ≠ .retiring → .cleaning owner ∉ before ∧ .failed owner .retiring ∉ before

def CallRule (owner : Addr → Nat) (before : List Happening) : Happening → Prop
  | .called a reason state _ => InTurn (owner a) before a reason state
  | _ => True

/-- What the journal shows of the generations that it speaks of. -/
def State.Lived (s : State) : Happening → Prop
  | .called a _ state _ => a < s.fresh ∧ s.owner a ≠ 0 ∧
      (state = .running ∨ state = .loading ∨ state = .retiring) ∧
      (state = .running → s.state a ≠ .loading) ∧ (state = .retiring → ¬ s.Waits a)
  | .cleaning owner => owner = 0 ∨ s.Departed owner
  | .failed owner .retiring => s.Departed owner
  | _ => True

/-- Nobody comes back to loading. -/
theorem Act.unloading {k : Kind} (act : Act k s s') (slotted : Slotted s.slots s.preparing
    s.managing s.fresh) (born : a < s.fresh) (loading : s'.state a = .loading) :
    s.state a = .loading := by
  have other : ∀ {b : Addr} {later : PluginState}, later ≠ .loading →
      Function.update s.state b later a = .loading → s.state a = .loading := by
    intro b later apart is
    rw [Function.update_apply] at is
    split at is
    · exact absurd is apart
    · exact is
  cases act with
  | fault b active =>
      rcases State.fault_state s b with same | retired
      · exact same ▸ loading
      · exact other (by decide) (retired ▸ loading)
  | giveUp => exact other (by decide) loading
  | failCandidate => exact other (by decide) loading
  | retire => exact other (by decide) loading
  | disable => exact other (by decide) loading
  | retireCandidate => exact other (by decide) loading
  | rewriteRecord => exact other (by decide) loading
  | pause => exact other (by decide) loading
  | resume => exact other (by decide) loading
  | swap id slot b managing there =>
      refine other ?_ loading
      rcases slotted.resting id slot there with is | is <;> simp [is]
  | place b ready candidate inactive replaceable loaded kind =>
      cases ready with
      | true => exact other (by decide) loading
      | false => exact loading
  | prepare => exact (Function.update_of_ne (Nat.ne_of_lt born) ..).symm.trans loading
  | placeRecord => exact (Function.update_of_ne (Nat.ne_of_lt born) ..).symm.trans loading
  | _ => exact loading

theorem Act.lived {k : Kind} (act : Act k s s') (reach : Reach s) {e : Happening}
    (lived : s.Lived e) : s'.Lived e := by
  have lasting := act.lasting
  unfold State.Lived at lived ⊢
  split
  · obtain ⟨born, real, kinds, begun, over_⟩ := lived
    refine ⟨born.trans_le lasting.born, (lasting.owner _ born).symm ▸ real, kinds, ?_, ?_⟩
    · exact fun is loading => begun is (act.unloading reach.slotted born loading)
    · exact fun is waits => over_ is (lasting.waits _ born waits)
  · exact lived.imp_right (act.departed reach)
  · exact act.departed reach lived
  · trivial

theorem Reach.born (reach : Reach s) (loaded : s.vm a = true) : a < s.fresh := by
  by_contra later
  rw [reach.living.unborn a (Nat.le_of_not_lt later)] at loaded
  cases loaded

/-- A script that is not waiting has departed. -/
theorem Reach.departs (reach : Reach s) (real : s.owner a ≠ 0) (gone : ¬ s.Waits a) :
    s.Departed (s.owner a) := by
  refine ⟨real, reach.numbered.below a, fun b same => ?_⟩
  rw [reach.numbered.one b a same (same ▸ real)]
  exact gone

theorem Note.lived {k : Kind} {e : Happening} (note : Note s s' e) (act : Act k s s')
    (reach : Reach s) : s'.Lived e := by
  unfold State.Lived
  split
  · obtain ⟨rfl, rfl, -, loaded, kinds⟩ := note
    refine ⟨reach.born loaded, reach.real _ (Or.inl loaded), ?_, ?_, ?_⟩
    · rcases kinds with ⟨is, -⟩ | ⟨-, is⟩ | ⟨-, is⟩ <;> simp [is]
    · intro running loading
      exact nomatch running.symm.trans loading
    · rintro retiring (is | is | is) <;> exact nomatch retiring.symm.trans is
  · obtain ⟨b, loading, running, paused, rfl, rfl⟩ := note
    by_cases real : s.owner b = 0
    · exact Or.inl real
    · refine Or.inr (act.departed reach (reach.departs real ?_))
      rintro (is | is | is)
      · exact loading is
      · exact running is
      · exact paused is
  · obtain ⟨b, active, rfl, rfl, is⟩ := note
    have loaded : s.vm b = true := by
      by_contra unloaded
      exact active (reach.living.idle b (by simpa using unloaded))
    have after : Reach (s.fault b) := reach.act act
    refine after.departs (reach.real b (Or.inl loaded)) ?_
    rintro (at_ | at_ | at_) <;> exact nomatch is.trans at_
  · trivial

theorem Reach.lived (reach : Reach s) : ∀ e ∈ s.journal, s.Lived e := by
  induction reach with
  | boot first =>
      obtain ⟨now, publicTrigger, silentTrigger, rfl⟩ := first
      exact fun e member => nomatch member
  | act before change ih =>
      exact change.adds.shown (fun e member => change.lived before (ih e member))
        (fun e note => note.lived change before) fun _ => trivial

/-- A call that is made now is in its turn. -/
theorem Note.in_turn {e : Happening} (note : Note s s' e) (reach : Reach s) :
    CallRule s.owner s.journal e := by
  cases e with
  | called a reason state managing =>
      obtain ⟨rfl, rfl, -, loaded, kinds⟩ := note
      refine ⟨?_, fun other earlier managing member => ?_, fun up => ?_⟩
      · rcases kinds with ⟨is, -⟩ | rest
        · exact Or.inl is
        · exact Or.inr rest
      · obtain ⟨-, -, known, begun, over_⟩ := reach.lived _ member
        rcases known with rfl | rfl | rfl
        · rcases kinds with ⟨is, -⟩ | ⟨-, is⟩ | ⟨-, is⟩
          · simp [is]
          · exact absurd is (begun rfl)
          · simp [is, PluginState.phase]
        · exact Nat.zero_le _
        · rcases kinds with ⟨is, -⟩ | ⟨-, is⟩ | ⟨-, is⟩
          · exact absurd (Or.inr (Or.inl is)) (over_ rfl)
          · exact absurd (Or.inl is) (over_ rfl)
          · simp [is]
      · have waits : s.Waits a := by
          rcases kinds with ⟨is, -⟩ | ⟨-, is⟩ | ⟨-, is⟩
          · exact Or.inr (Or.inl is)
          · exact Or.inl is
          · exact absurd is up
        refine ⟨fun member => ?_, fun member => ?_⟩
        · rcases reach.lived _ member with none_ | departed
          · exact reach.real a (Or.inl loaded) none_
          · exact departed.gone a rfl waits
        · have departed : s.Departed (s.owner a) := reach.lived _ member
          exact departed.gone a rfl waits
  | _ => trivial

/-- The scripts that the journal says were called were born when the last change came. -/
theorem called_born {k : Kind} (act : Act k s s') (reach : Reach s) :
    ∀ e ∈ s'.journal, ∀ a reason state managing, e = .called a reason state managing →
      a < s.fresh := by
  refine act.adds.shown ?_ ?_ ?_
  · rintro e member a reason state managing rfl
    exact (reach.lived _ member).1
  · rintro e note a reason state managing rfl
    obtain ⟨-, -, -, loaded, -⟩ := note
    exact reach.born loaded
  · exact fun token a reason state managing is => nomatch is

theorem Reach.in_turn (reach : Reach s) : Obeys (CallRule s.owner) s.journal := by
  induction reach with
  | boot first =>
      obtain ⟨now, publicTrigger, silentTrigger, rfl⟩ := first
      exact .nil
  | act before change ih =>
      have same := change.adds.obeys ih (fun e note => note.in_turn before) fun _ _ => trivial
      refine same.mono fun earlier e member holds => ?_
      cases e with
      | called a reason state managing =>
          have born := called_born change before _ member a reason state managing rfl
          have number := change.lasting.owner a born
          simp only [CallRule] at holds ⊢
          rw [number]
          exact holds
      | _ => trivial

/-- In every run the calls into a generation come in turn: first its start, while it is
loading, then those of the running script, then its stop, once it is retiring.  After its
cleanup began, or after the fault that retired it, only its stop is called. -/
theorem calls_in_turn (boot : Boot start) (reached : Reached start s stack) (before after)
    (a : Addr) (reason : Reason) (state : PluginState) (managing : Bool)
    (split : s.journal = before ++ .called a reason state managing :: after) :
    InTurn (s.owner a) before a reason state :=
  (reached.reach boot).in_turn before _ after split

/-- A script starts, and gets an event that it came to listen to. -/
def started : History :=
  starting ++ [.start (.native 1 (.listenEvent "round_start" 0)), .reply {}, .back { cell := 1 },
    .start (.report (.event "round_start"))]

theorem calls_in_turn_started : ∃ s stack, Reached (State.boot 0 ['!'] ['/']) s stack ∧
    ∃ before, s.journal = before ++ [.called 1 (.event "round_start") .running false] ∧
      .called 1 .start .loading true ∈ before ∧
      InTurn (s.owner 1) before 1 (.event "round_start") .running := by
  obtain ⟨s, stack, reached, seen⟩ := @History.reached started
    (fun s => decide (s.journal.getLast? = some (.called 1 (.event "round_start") .running false) ∧
      .called 1 .start .loading true ∈ s.journal)) (by decide +kernel)
  obtain ⟨last, there⟩ := of_decide_eq_true seen
  obtain ⟨before, split⟩ := List.getLast?_eq_some_iff.mp last
  refine ⟨s, stack, reached, before, split, ?_, calls_in_turn boot_boot reached before [] 1 _
    .running false split⟩
  exact (mem_note (split ▸ there)).resolve_right (by simp)

/-! ## What a generation leaves behind -/

/-- Every owner number that was given out is the number of a script. -/
theorem Act.numbered_scripts {k : Kind} (act : Act k s s') (reach : Reach s)
    (used : ∀ n, n ≠ 0 → n < s.nextOwner → ∃ a, s.owner a = n) :
    ∀ n, n ≠ 0 → n < s'.nextOwner → ∃ a, s'.owner a = n := by
  have unborn := reach.numbered.unborn s.fresh (le_refl _)
  cases act with
  | prepare =>
      intro n real below
      rcases Nat.lt_succ_iff_lt_or_eq.mp below with older | rfl
      · obtain ⟨a, is⟩ := used n real older
        refine ⟨a, (Function.update_of_ne ?_ ..).trans is⟩
        rintro rfl
        exact real (is.symm.trans unborn)
      · exact ⟨s.fresh, Function.update_self ..⟩
  | placeRecord =>
      intro n real below
      obtain ⟨a, is⟩ := used n real below
      refine ⟨a, (Function.update_of_ne ?_ ..).trans is⟩
      rintro rfl
      exact real (is.symm.trans unborn)
  | _ => exact used

theorem Reach.numbered_scripts (reach : Reach s) :
    ∀ n, n ≠ 0 → n < s.nextOwner → ∃ a, s.owner a = n := by
  induction reach with
  | boot first =>
      obtain ⟨now, publicTrigger, silentTrigger, rfl⟩ := first
      exact fun n real below => absurd (Nat.lt_one_iff.mp below) real
  | act before change ih => exact change.numbered_scripts before ih

/-- Nothing is the script's, in any table. -/
structure State.Gone (s : State) (a : Addr) : Prop where
  quiet : s.active a = 0 ∧ ∀ r, (a, r) ∉ s.invocations
  state : s.state a ≠ .running ∧ s.state a ≠ .paused
  commands : s.commandsOf a = ∅ ∧
    ∀ (name : String) (owners : Finset Addr), s.commands[name]? = some owners → a ∉ owners
  events : s.eventsOf a = ∅ ∧
    ∀ (name : String) (owners : Finset Addr), s.events[name]? = some owners → a ∉ owners
  convars : s.convarsOf a = ∅ ∧
    ∀ (name : String) (v : Variable), s.convars[name]? = some v → a ∉ v.owners
  providers : s.providersOf a = ∅
  callbacks : s.callbacksOf a = ∅ ∧
    ∀ (token : Token) (callback : ExtensionCallback),
      s.callbacks[token]? = some callback → callback.script ≠ a
  gags : s.gagsOf a = ∅
  displays : ∀ (slot : Int) (d : Display), s.displays[slot]? = some d → d.script ≠ a
  handles : ∀ id b, s.handles.look id = some b → b.owner ≠ s.owner a

theorem Reach.gone (reach : Reach s) (unloaded : s.vm a = false) : s.Gone a := by
  have bared := reach.bared
  have idle := reach.living.idle a unloaded
  obtain ⟨commands, events⟩ := reach.unregistered unloaded
  have down : s.state a ≠ .running ∧ s.state a ≠ .paused := by
    refine ⟨fun is => ?_, fun is => ?_⟩
    · exact nomatch unloaded.symm.trans (reach.living.home a (Or.inl is)).1
    · exact nomatch unloaded.symm.trans (reach.living.home a (Or.inr is)).1
  refine ⟨⟨idle, fun r member => (reach.binds.inside a r member).1 idle⟩, down,
    ⟨bared.commands a unloaded, commands⟩, ⟨bared.events a unloaded, events⟩,
    ⟨bared.convars a unloaded, fun name v there member => ?_⟩, bared.providers a unloaded,
    ⟨bared.callbacks a unloaded, fun token callback there is => ?_⟩, bared.gags a unloaded,
    fun slot d there is => ?_, bared.handles a unloaded⟩
  · have mine := (reach.declares.1.ledger.owned name a).mpr ⟨v, there, member⟩
    rw [bared.convars a unloaded] at mine
    exact Std.ExtTreeMap.not_mem_empty mine
  · have mine := (reach.captures.mine token a).mpr ⟨callback, there, is⟩
    rw [bared.callbacks a unloaded] at mine
    exact Finset.notMem_empty token mine
  · rw [← is, reach.display_loaded there] at unloaded
    cases unloaded

/-- Whatever exists belongs to one script that is loaded and has a place in the manager:
a script whose code is gone leaves nothing behind, in any table. -/
theorem nothing_orphaned (boot : Boot start) (reached : Reached start s stack) :
    (∀ a, s.vm a = false → s.Gone a) ∧ (∀ a, s.vm a = true → s.Alive a) ∧
    ∀ id b, s.handles.look id = some b → ∃ a, s.owner a = b.owner ∧ s.vm a = true ∧
      ∀ other, s.owner other = b.owner → other = a := by
  have reach := reached.reach boot
  refine ⟨fun a => reach.gone, fun a => reach.alive, fun id b found => ?_⟩
  have unborn := reach.numbered.unborn s.fresh (le_refl _)
  have real : b.owner ≠ 0 :=
    unborn ▸ reach.bared.handles s.fresh (reach.living.unborn _ (le_refl _)) id b found
  obtain ⟨a, is⟩ := reach.numbered_scripts b.owner real (reach.held.below id b found)
  refine ⟨a, is, ?_, fun other same => ?_⟩
  · by_contra unloaded
    exact reach.bared.handles a (by simpa using unloaded) id b found is.symm
  · exact reach.numbered.one other a (same.trans is.symm) (same ▸ real)

/-- A running script with a command, a listener and a menu. -/
def holding : History :=
  registering ++ [.start (.native 1 (.listenEvent "round_start" 0)), .reply {},
    .start (.native 1 (.createMenu "Clans" "" 0 none)), .back { cell := 1 }]

/-- The script is unloaded: it is stopped, and the host takes its command and its listener. -/
def leaving : History :=
  holding ++ [.start (.report (.unload "a")), .reply {}, .back {}, .reply {}, .reply {}, .reply {}]

theorem nothing_orphaned_leaving :
    (∃ s stack, Reached (State.boot 0 ['!'] ['/']) s stack ∧ s.Alive 1 ∧
      ((s.commandsOf 1).size = 1 ∧ (s.eventsOf 1).size = 1 ∧
        (s.handles.owned (s.owner 1) 0).length = 1)) ∧
    ∃ s stack, Reached (State.boot 0 ['!'] ['/']) s stack ∧ s.owner 1 = 1 ∧ s.Gone 1 := by
  constructor
  · obtain ⟨s, stack, reached, seen⟩ := @History.reached holding
      (fun s => decide (s.vm 1 = true ∧ (s.commandsOf 1).size = 1 ∧ (s.eventsOf 1).size = 1 ∧
        (s.handles.owned (s.owner 1) 0).length = 1)) (by decide +kernel)
    obtain ⟨loaded, tables⟩ := of_decide_eq_true seen
    exact ⟨s, stack, reached, (nothing_orphaned boot_boot reached).2.1 1 loaded, tables⟩
  · obtain ⟨s, stack, reached, seen⟩ := @History.reached leaving
      (fun s => decide (s.owner 1 = 1 ∧ s.vm 1 = false)) (by decide +kernel)
    obtain ⟨number, unloaded⟩ := of_decide_eq_true seen
    exact ⟨s, stack, reached, number, (nothing_orphaned boot_boot reached).1 1 unloaded⟩

end Source2Root.Foundation
