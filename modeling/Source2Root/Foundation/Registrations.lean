import Source2Root.Foundation.Holdings
import Source2Root.Ownership

/-!
# What scripts have registered

The tables of commands, events, ConVars and providers agree with what each
script keeps, and with what the host was told.
-/

set_option autoImplicit false

namespace Source2Root.Foundation

open Handles Ownership

/-! ## Commands, events -/

structure Registered (commandTable : Std.ExtTreeMap String (Finset Addr))
    (commandsOf : Addr → Std.ExtTreeMap String Command) (toldCommands : Finset String)
    (eventTable : Std.ExtTreeMap String (Finset Addr))
    (eventsOf : Addr → Std.ExtTreeMap String Function) (toldEvents : Finset String)
    (manifest : Addr → Manifest) : Prop where
  commands : Ledger id commandTable commandsOf
  events : Ledger id eventTable eventsOf
  hostCommands : Announced toldCommands commandTable
  hostEvents : Announced toldEvents eventTable
  plugin : ∀ (name : String) (owners : Finset Addr), commandTable[name]? = some owners →
    ∀ a ∈ owners, ∀ b ∈ owners, (manifest a).id = (manifest b).id

def State.Registers (s : State) : Prop :=
  Registered s.commands s.commandsOf s.hostCommands s.events s.eventsOf s.hostEvents s.manifest

/-- The owners of a name after another one joined. -/
theorem joined_owners {table : Std.ExtTreeMap String (Finset Addr)} {name : String} {a : Addr}
    (b : Addr) : b ∈ id (insert a (table[name]?.getD ∅)) ↔
      b = a ∨ ∃ w, table[name]? = some w ∧ b ∈ id w := by
  cases table[name]? with
  | none => simp
  | some w => simp

/-- Only loaded scripts own commands. -/
theorem State.Registers.command_loaded {s : State} (registers : s.Registers) (bared : s.Bares)
    {name : String} {owners : Finset Addr} (there : s.commands[name]? = some owners) {a : Addr}
    (member : a ∈ owners) : s.vm a = true := by
  have mine := (registers.commands.owned name a).mpr ⟨owners, there, member⟩
  exact bared.commands.loaded fun empty =>
    absurd mine (by rw [empty]; exact Std.ExtTreeMap.not_mem_empty)

theorem State.Registers.command {s : State} (registers : s.Registers) {name : String}
    {owners : Finset Addr} (there : s.commands[name]? = some owners) {a : Addr}
    (member : a ∈ owners) : ∃ command, (s.commandsOf a)[name]? = some command :=
  Tables.mem_iff.mp ((registers.commands.owned name a).mpr ⟨owners, there, member⟩)

/-- The manifest of a script that owns no command may change. -/
theorem State.Registers.plugin_update {s : State} (registers : s.Registers) (bared : s.Bares)
    {a : Addr} (unloaded : s.vm a = false) (m : Manifest) {name : String}
    {owners : Finset Addr} (there : s.commands[name]? = some owners) :
    ∀ b ∈ owners, ∀ c ∈ owners,
      (Function.update s.manifest a m b).id = (Function.update s.manifest a m c).id := by
  have other : ∀ b ∈ owners, b ≠ a := by
    rintro b member rfl
    rw [registers.command_loaded bared there member] at unloaded
    exact nomatch unloaded
  intro b member_b c member_c
  rw [Function.update_of_ne (other b member_b), Function.update_of_ne (other c member_c)]
  exact registers.plugin name owners there b member_b c member_c

theorem Act.registers {s s' : State} {k : Kind} (act : Act k s s') (living : s.Lives)
    (bared : s.Bares) (registers : s.Registers) : s'.Registers := by
  have unborn : s.vm s.fresh = false := living.unborn s.fresh (le_refl _)
  cases act with
  | addCommand a name command registered making loaded unowned ours first =>
      refine { registers with
        commands := registers.commands.join command joined_owners
        hostCommands := registers.hostCommands.join name _ first
        plugin := ?_ }
      intro other owners there
      have found : (s.commands.insert name (insert a (s.commands[name]?.getD ∅)))[other]? =
        some owners := there
      rw [Tables.getElem?_insert] at found
      split at found
      · cases found
        have same : ∀ b ∈ insert a (s.commands[name]?.getD ∅),
            (s.manifest b).id = (s.manifest a).id := by
          intro b member
          rcases (joined_owners b).mp member with rfl | ⟨w, at_name, old⟩
          · rfl
          · exact ours w at_name b old
        exact fun b member_b c member_c => (same b member_b).trans (same c member_c).symm
      · exact registers.plugin other owners found
  | putCommand a name command active owned =>
      exact { registers with commands := registers.commands.put command owned }
  | dropCommand a name owners removed still owned there last =>
      obtain ⟨v, at_name, member⟩ := registers.commands.mem owned
      rw [there] at at_name
      cases at_name
      refine { registers with
        commands := registers.commands.part there rfl
        hostCommands := registers.hostCommands.part there member rfl last
        plugin := ?_ }
      intro other left found
      have after : (State.dropOwner s.commands name owners a)[other]? = some left := found
      have less : ∃ old, s.commands[other]? = some old ∧ left ⊆ old := by
        unfold State.dropOwner at after
        simp only at after
        split at after
        · rw [Tables.getElem?_erase] at after
          split at after
          · cases after
          · exact ⟨left, after, fun _ x => x⟩
        · rw [Tables.getElem?_insert] at after
          split at after
          · cases after
            exact ⟨owners, ‹other = name› ▸ there, Finset.erase_subset a owners⟩
          · exact ⟨left, after, fun _ x => x⟩
      obtain ⟨old, at_other, subset⟩ := less
      exact fun b member_b c member_c =>
        registers.plugin other old at_other b (subset member_b) c (subset member_c)
  | addEvent a name callback registered making loaded unowned first =>
      exact { registers with
        events := registers.events.join callback joined_owners
        hostEvents := registers.hostEvents.join name _ first }
  | dropEvent a name owners removed still owned there last =>
      obtain ⟨v, at_name, member⟩ := registers.events.mem owned
      rw [there] at at_name
      cases at_name
      exact { registers with
        events := registers.events.part there rfl
        hostEvents := registers.hostEvents.part there member rfl last }
  | prepare m path managing settled owners accepted =>
      exact ⟨registers.commands.forget (bared.commands _ unborn),
        registers.events.forget (bared.events _ unborn), registers.hostCommands,
        registers.hostEvents, fun name owners there =>
          registers.plugin_update bared unborn m there⟩
  | placeRecord id m path state =>
      exact ⟨registers.commands.forget (bared.commands _ unborn),
        registers.events.forget (bared.events _ unborn), registers.hostCommands,
        registers.hostEvents, fun name owners there =>
          registers.plugin_update bared unborn m there⟩
  | rewriteRecord id slot m path managing there named unloaded single =>
      exact { registers with
        plugin := fun name owners there => registers.plugin_update bared unloaded m there }
  | _ => exact registers

theorem Reach.registers {s : State} (reach : Reach s) : s.Registers := by
  induction reach with
  | boot first =>
      obtain ⟨now, publicTrigger, silentTrigger, rfl⟩ := first
      refine ⟨⟨?_, ?_⟩, ⟨?_, ?_⟩, ?_, ?_, ?_⟩
      all_goals simp [State.boot, Announced]
  | act before change ih => exact change.registers before.living before.bared ih

/-! ## Providers -/

/-- The scripts that use a provider. -/
def usersOf (providersOf : Addr → Finset Registration) (fresh : Addr) (r : Registration) :
    Finset Addr :=
  (Finset.range fresh).filter fun a => r ∈ providersOf a

structure Bound (providers : Std.ExtTreeMap Registration Provider) (nextProvider : Registration)
    (providersOf : Addr → Finset Registration) (fresh : Addr)
    (providerActive : Registration → Nat) (invocations : List (Addr × Registration))
    (active : Addr → Nat) : Prop where
  known : ∀ (a : Addr) (r : Registration), r ∈ providersOf a → ∃ p, providers[r]? = some p
  users : ∀ (r : Registration) (p : Provider), providers[r]? = some p →
    p.users = (usersOf providersOf fresh r).card
  number : ∀ (r : Registration) (p : Provider), providers[r]? = some p → r < nextProvider
  calls : ∀ r : Registration, providerActive r = (invocations.map Prod.snd).count r
  inside : ∀ (a : Addr) (r : Registration), (a, r) ∈ invocations → active a ≠ 0 ∧ r ∈ providersOf a

def State.Binds (s : State) : Prop :=
  Bound s.providers s.nextProvider s.providersOf s.fresh s.providerActive s.invocations s.active

section Bound

variable {providers : Std.ExtTreeMap Registration Provider} {nextProvider : Registration}
  {providersOf : Addr → Finset Registration} {fresh : Addr}
  {providerActive : Registration → Nat} {invocations : List (Addr × Registration)}
  {active : Addr → Nat}

/-- Nobody uses a provider that counts no users. -/
theorem Bound.unused (bound : Bound providers nextProvider providersOf fresh providerActive
    invocations active) {r : Registration} {p : Provider} (there : providers[r]? = some p)
    (none_ : p.users = 0) {a : Addr} (born : a < fresh) : r ∉ providersOf a := by
  intro member
  have empty := Finset.card_eq_zero.mp ((bound.users r p there).symm.trans none_)
  have user : a ∈ usersOf providersOf fresh r :=
    Finset.mem_filter.mpr ⟨Finset.mem_range.mpr born, member⟩
  rw [empty] at user
  exact absurd user (Finset.notMem_empty a)

theorem Bound.not_inside (bound : Bound providers nextProvider providersOf fresh providerActive
    invocations active) {r : Registration} (idle : providerActive r = 0) (a : Addr) :
    (a, r) ∉ invocations := by
  intro member
  have none_ : (invocations.map Prod.snd).count r = 0 := (bound.calls r).symm.trans idle
  exact List.count_eq_zero.mp none_ (List.mem_map.mpr ⟨(a, r), member, rfl⟩)

theorem Bound.born (bound : Bound providers nextProvider providersOf fresh providerActive
    invocations active) (empty : providersOf fresh = ∅) :
    Bound providers nextProvider (Function.update providersOf fresh ∅) (fresh + 1) providerActive
      invocations (Function.update active fresh 0) := by
  have same : Function.update providersOf fresh ∅ = providersOf := by
    rw [← empty, Function.update_eq_self]
  rw [same]
  refine ⟨bound.known, ?_, bound.number, bound.calls, ?_⟩
  · intro r p there
    rw [bound.users r p there]
    unfold usersOf
    rw [Finset.range_add_one, Finset.filter_insert, if_neg (by rw [empty]; simp)]
  · intro a r member
    obtain ⟨up, mine⟩ := bound.inside a r member
    have other : a ≠ fresh := by
      rintro rfl
      rw [empty] at mine
      exact absurd mine (Finset.notMem_empty r)
    rw [Function.update_of_ne other]
    exact ⟨up, mine⟩

end Bound

theorem usersOf_insert {providersOf : Addr → Finset Registration} {fresh a : Addr}
    {r : Registration} (born : a < fresh) :
    usersOf (Function.update providersOf a (insert r (providersOf a))) fresh r =
      insert a (usersOf providersOf fresh r) := by
  ext b
  simp only [usersOf, Finset.mem_filter, Finset.mem_insert, Finset.mem_range,
    Function.update_apply]
  by_cases same : b = a
  · simp [same, born]
  · simp [same]

theorem usersOf_erase {providersOf : Addr → Finset Registration} {fresh a : Addr}
    {r : Registration} :
    usersOf (Function.update providersOf a ((providersOf a).erase r)) fresh r =
      (usersOf providersOf fresh r).erase a := by
  ext b
  simp only [usersOf, Finset.mem_filter, Finset.mem_erase, Finset.mem_range,
    Function.update_apply]
  by_cases same : b = a
  · simp [same]
  · simp [same]

theorem usersOf_other {providersOf : Addr → Finset Registration} {fresh a : Addr}
    {other : Registration} {later : Finset Registration}
    (same : other ∈ later ↔ other ∈ providersOf a) :
    usersOf (Function.update providersOf a later) fresh other =
      usersOf providersOf fresh other := by
  ext b
  simp only [usersOf, Finset.mem_filter, Finset.mem_range, Function.update_apply]
  by_cases here : b = a
  · simp [here, same]
  · simp [here]

theorem Act.binds {s s' : State} {k : Kind} (act : Act k s s')
    (slotted : Slotted s.slots s.preparing s.managing s.fresh) (living : s.Lives)
    (bared : s.Bares) (bound : s.Binds) : s'.Binds := by
  have born : ∀ {a : Addr} {r : Registration}, r ∈ s.providersOf a → a < s.fresh := by
    intro a r member
    by_contra later
    have unloaded := living.unborn a (Nat.le_of_not_lt later)
    rw [bared.providers a unloaded] at member
    exact absurd member (Finset.notMem_empty r)
  have unborn : s.providersOf s.fresh = ∅ :=
    bared.providers _ (living.unborn s.fresh (le_refl _))
  have entered : ∀ a : Addr, Bound s.providers s.nextProvider s.providersOf s.fresh
      s.providerActive s.invocations (Function.update s.active a (s.active a + 1)) := by
    refine fun a => { bound with inside := fun b r member => ?_ }
    obtain ⟨up, mine⟩ := bound.inside b r member
    refine ⟨?_, mine⟩
    rw [Function.update_apply]
    split
    · exact Nat.succ_ne_zero _
    · exact up
  cases act with
  | enter a => exact entered a
  | enterStart a => exact entered a
  | enterStop a => exact entered a
  | leave a inside outside =>
      refine { bound with inside := fun b r member => ?_ }
      obtain ⟨up, mine⟩ := bound.inside b r member
      refine ⟨?_, mine⟩
      show Function.update s.active a (s.active a - 1) b ≠ 0
      rw [Function.update_apply]
      split
      · intro gone
        have last : s.active a = 1 := by omega
        exact outside last r (‹b = a› ▸ member)
      · exact up
  | extEnter a r inside mine =>
      refine { bound with calls := fun other => ?_, inside := fun b other member => ?_ }
      · show Function.update s.providerActive r (s.providerActive r + 1) other =
          (((a, r) :: s.invocations).map Prod.snd).count other
        rw [List.map_cons, List.count_cons, ← bound.calls, Function.update_apply]
        by_cases same : other = r
        · simp [same]
        · simp [same, Ne.symm same]
      · rcases List.mem_cons.mp member with same | old
        · cases same
          exact ⟨inside, mine⟩
        · exact bound.inside b other old
  | extLeave a r rest top running =>
      refine { bound with calls := fun other => ?_, inside := fun b other member => ?_ }
      · have before := bound.calls other
        have here := bound.calls r
        rw [top, List.map_cons, List.count_cons] at before here
        show Function.update s.providerActive r (s.providerActive r - 1) other =
          (s.invocations.tail.map Prod.snd).count other
        rw [top, List.tail_cons, Function.update_apply]
        by_cases same : other = r
        · simp only [beq_self_eq_true, if_true] at here
          rw [if_pos same, same]
          omega
        · rw [if_neg same]
          simpa [Ne.symm same] using before
      · exact bound.inside b other (List.mem_of_mem_tail member)
  | addProvider p unused number =>
      have none_ : ∀ a, s.nextProvider ∉ s.providersOf a := by
        intro a member
        obtain ⟨q, there⟩ := bound.known a _ member
        exact lt_irrefl _ (bound.number _ q there)
      refine { bound with known := ?_, users := ?_, number := ?_ }
      · intro a r member
        show ∃ q, (s.providers.insert s.nextProvider p)[r]? = some q
        rw [Tables.getElem?_insert]
        split
        · exact ⟨p, rfl⟩
        · exact bound.known a r member
      · intro r q there
        have found : (s.providers.insert s.nextProvider p)[r]? = some q := there
        rw [Tables.getElem?_insert] at found
        split at found
        · cases found
          rw [unused, ‹r = s.nextProvider›]
          refine (Finset.card_eq_zero.mpr (Finset.filter_eq_empty_iff.mpr ?_)).symm
          exact fun a _ => none_ a
        · exact bound.users r q found
      · intro r q there
        have found : (s.providers.insert s.nextProvider p)[r]? = some q := there
        rw [Tables.getElem?_insert] at found
        split at found
        · exact ‹r = s.nextProvider› ▸ Nat.lt_succ_self _
        · exact Nat.lt_succ_of_lt (bound.number r q found)
  | eraseProvider r p there unused inactive =>
      refine { bound with known := ?_, users := ?_, number := ?_ }
      · intro a other member
        have apart : other ≠ r := by
          rintro rfl
          exact bound.unused there unused (born member) member
        show ∃ q, (s.providers.erase r)[other]? = some q
        rw [Tables.getElem?_erase, if_neg apart]
        exact bound.known a other member
      · intro other q at_other
        have found : (s.providers.erase r)[other]? = some q := at_other
        rw [Tables.getElem?_erase] at found
        split at found
        · cases found
        · exact bound.users other q found
      · intro other q at_other
        have found : (s.providers.erase r)[other]? = some q := at_other
        rw [Tables.getElem?_erase] at found
        split at found
        · cases found
        · exact bound.number other q found
  | bindProvider a r p acquired candidate loading loaded there unbound first =>
      have a_born := (slotted.candidate a candidate).2.1
      refine { bound with known := ?_, users := ?_, number := ?_, inside := ?_ }
      · intro b other member
        show ∃ q, (s.providers.insert r { p with users := p.users + 1 })[other]? = some q
        rw [Tables.getElem?_insert]
        split
        · exact ⟨_, rfl⟩
        · rename_i apart
          have was : other ∈ Function.update s.providersOf a (insert r (s.providersOf a)) b :=
            member
          rw [Function.update_apply] at was
          split at was
          · rcases Finset.mem_insert.mp was with same | old
            · exact absurd same apart
            · exact bound.known a other old
          · exact bound.known b other was
      · intro other q at_other
        have found : (s.providers.insert r { p with users := p.users + 1 })[other]? = some q :=
          at_other
        show q.users = (usersOf (Function.update s.providersOf a (insert r (s.providersOf a)))
          s.fresh other).card
        rw [Tables.getElem?_insert] at found
        split at found
        · cases found
          rw [‹other = r›, usersOf_insert a_born, Finset.card_insert_of_notMem, bound.users r p there]
          exact fun member => unbound (Finset.mem_filter.mp member).2
        · rename_i apart
          rw [usersOf_other (by simp [apart])]
          exact bound.users other q found
      · intro other q at_other
        have found : (s.providers.insert r { p with users := p.users + 1 })[other]? = some q :=
          at_other
        rw [Tables.getElem?_insert] at found
        split at found
        · exact ‹other = r› ▸ bound.number r p there
        · exact bound.number other q found
      · intro b other member
        obtain ⟨up, mine⟩ := bound.inside b other member
        refine ⟨up, ?_⟩
        show other ∈ Function.update s.providersOf a (insert r (s.providersOf a)) b
        rw [Function.update_apply]
        split
        · exact Finset.mem_insert_of_mem (‹b = a› ▸ mine)
        · exact mine
  | freeProvider a r p released still there mine inactive last =>
      have user : a ∈ usersOf s.providersOf s.fresh r :=
        Finset.mem_filter.mpr ⟨Finset.mem_range.mpr (born mine), mine⟩
      refine { bound with known := ?_, users := ?_, number := ?_, inside := ?_ }
      · intro b other member
        show ∃ q, (s.providers.insert r { p with users := p.users - 1 })[other]? = some q
        rw [Tables.getElem?_insert]
        split
        · exact ⟨_, rfl⟩
        · have was : other ∈ Function.update s.providersOf a ((s.providersOf a).erase r) b :=
            member
          rw [Function.update_apply] at was
          split at was
          · exact bound.known a other (Finset.mem_of_mem_erase was)
          · exact bound.known b other was
      · intro other q at_other
        have found : (s.providers.insert r { p with users := p.users - 1 })[other]? = some q :=
          at_other
        show q.users = (usersOf (Function.update s.providersOf a ((s.providersOf a).erase r))
          s.fresh other).card
        rw [Tables.getElem?_insert] at found
        split at found
        · cases found
          rw [‹other = r›, usersOf_erase, Finset.card_erase_of_mem user, bound.users r p there]
        · rename_i apart
          rw [usersOf_other (by simp [apart])]
          exact bound.users other q found
      · intro other q at_other
        have found : (s.providers.insert r { p with users := p.users - 1 })[other]? = some q :=
          at_other
        rw [Tables.getElem?_insert] at found
        split at found
        · exact ‹other = r› ▸ bound.number r p there
        · exact bound.number other q found
      · intro b other member
        obtain ⟨up, was⟩ := bound.inside b other member
        refine ⟨up, ?_⟩
        have apart : other ≠ r := by
          rintro rfl
          exact bound.not_inside inactive b member
        show other ∈ Function.update s.providersOf a ((s.providersOf a).erase r) b
        rw [Function.update_apply]
        split
        · exact Finset.mem_erase.mpr ⟨apart, ‹b = a› ▸ was⟩
        · exact was
  | prepare => exact bound.born unborn
  | placeRecord => exact bound.born unborn
  | _ => exact bound

theorem Reach.binds {s : State} (reach : Reach s) : s.Binds := by
  induction reach with
  | boot first =>
      obtain ⟨now, publicTrigger, silentTrigger, rfl⟩ := first
      refine ⟨?_, ?_, ?_, ?_, ?_⟩
      all_goals simp [State.boot]
  | act before change ih => exact change.binds before.slotted before.living before.bared ih

end Source2Root.Foundation
