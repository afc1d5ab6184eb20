import Source2Root.Foundation.Life

/-!
# What state a script is in

Where a script is, whether its bytecode is loaded and whether a function of it
may run say what its lifecycle state can be, and the other way round.
-/

set_option autoImplicit false

namespace Source2Root.Foundation

def CurrentIn (slots : Slots) (a : Addr) : Prop :=
  ∃ id : String, ∃ slot : Slot, slots[id]? = some slot ∧ a = slot.current

def StagedIn (slots : Slots) (b : Addr) : Prop :=
  ∃ id : String, ∃ slot : Slot, slots[id]? = some slot ∧ slot.replacement = some b

theorem Slot.mem_scripts {slot : Slot} {a : Addr} :
    a ∈ slot.scripts ↔ a = slot.current ∨ slot.replacement = some a := by
  unfold Slot.scripts
  rw [List.mem_cons, Option.mem_toList]

theorem CurrentIn.mem {slots : Slots} {a : Addr} (current : CurrentIn slots a) :
    ∃ id, a ∈ scriptsAt slots id := by
  obtain ⟨id, slot, there, same⟩ := current
  exact ⟨id, mem_scriptsAt.mpr ⟨slot, there, Slot.mem_scripts.mpr (Or.inl same)⟩⟩

theorem StagedIn.mem {slots : Slots} {b : Addr} (staged : StagedIn slots b) :
    ∃ id, b ∈ scriptsAt slots id := by
  obtain ⟨id, slot, there, same⟩ := staged
  exact ⟨id, mem_scriptsAt.mpr ⟨slot, there, Slot.mem_scripts.mpr (Or.inr same)⟩⟩

/-- The script of a slot that was put into the table, or one of another slot. -/
theorem CurrentIn.insert {slots : Slots} {id : String} {slot : Slot} {a : Addr}
    (current : CurrentIn (slots.insert id slot) a) :
    a = slot.current ∨ ∃ other : String, ∃ found : Slot,
      other ≠ id ∧ slots[other]? = some found ∧ a = found.current := by
  obtain ⟨other, found, there, same⟩ := current
  rw [Tables.getElem?_insert] at there
  by_cases here : other = id
  · rw [if_pos here] at there
    cases there
    exact Or.inl same
  · rw [if_neg here] at there
    exact Or.inr ⟨other, found, here, there, same⟩

theorem StagedIn.insert {slots : Slots} {id : String} {slot : Slot} {b : Addr}
    (staged : StagedIn (slots.insert id slot) b) :
    slot.replacement = some b ∨ ∃ other : String, ∃ found : Slot,
      other ≠ id ∧ slots[other]? = some found ∧ found.replacement = some b := by
  obtain ⟨other, found, there, same⟩ := staged
  rw [Tables.getElem?_insert] at there
  by_cases here : other = id
  · rw [if_pos here] at there
    cases there
    exact Or.inl same
  · rw [if_neg here] at there
    exact Or.inr ⟨other, found, here, there, same⟩

theorem currentIn_insert_self (slots : Slots) (id : String) (slot : Slot) :
    CurrentIn (slots.insert id slot) slot.current :=
  ⟨id, slot, by rw [Tables.getElem?_insert, if_pos rfl], rfl⟩

/-- Another script that is current stays so. -/
theorem CurrentIn.kept {slots : Slots} {id : String} {slot : Slot} {a : Addr}
    (current : CurrentIn slots a)
    (same : ∀ found : Slot, slots[id]? = some found → a = found.current → a = slot.current) :
    CurrentIn (slots.insert id slot) a := by
  obtain ⟨other, found, there, is⟩ := current
  by_cases here : other = id
  · rw [same found (here ▸ there) is]
    exact currentIn_insert_self slots id slot
  · exact ⟨other, found, by rw [Tables.getElem?_insert, if_neg here]; exact there, is⟩

structure Living (slots : Slots) (preparing : Option Addr) (fresh : Addr)
    (state : Addr → PluginState) (vm : Addr → Bool) (active : Addr → Nat) : Prop where
  unborn : ∀ a, fresh ≤ a → vm a = false
  idle : ∀ a, vm a = false → active a = 0
  called : ∀ a, active a ≠ 0 → state a = .loading ∨ state a = .running ∨ state a = .retiring
  dead : ∀ a, state a = .disabled ∨ state a = .failed → vm a = false
  home : ∀ a, state a = .running ∨ state a = .paused → vm a = true ∧ CurrentIn slots a
  current : ∀ a, CurrentIn slots a → state a ≠ .loading
  staged : ∀ b, StagedIn slots b →
    (state b = .loading ∨ state b = .retiring ∨ state b = .failed) ∧
      (state b = .loading → vm b = true ∧ active b = 0)
  candidate : ∀ a, preparing = some a →
    state a = .loading ∨ state a = .retiring ∨ state a = .failed
  placed : ∀ a, vm a = true → (∃ id, a ∈ scriptsAt slots id) ∨ preparing = some a

section Living

variable {slots : Slots} {preparing : Option Addr} {fresh : Addr} {state : Addr → PluginState}
  {vm : Addr → Bool} {active : Addr → Nat}

/-- A script goes to another state. -/
theorem Living.become (living : Living slots preparing fresh state vm active) {a : Addr}
    {later : PluginState}
    (called : active a ≠ 0 → later = .loading ∨ later = .running ∨ later = .retiring)
    (dead : later = .disabled ∨ later = .failed → vm a = false)
    (home : later = .running ∨ later = .paused → vm a = true ∧ CurrentIn slots a)
    (current : CurrentIn slots a → later ≠ .loading)
    (waiting : StagedIn slots a ∨ preparing = some a →
      later = .retiring ∨ later = .failed) :
    Living slots preparing fresh (Function.update state a later) vm active where
  unborn := living.unborn
  idle := living.idle
  called := by
    intro b active_b
    rw [Function.update_apply]
    split
    · exact called (‹b = a› ▸ active_b)
    · exact living.called b active_b
  dead := by
    intro b
    rw [Function.update_apply]
    split
    · exact fun gone => ‹b = a› ▸ dead gone
    · exact living.dead b
  home := by
    intro b
    rw [Function.update_apply]
    split
    · exact fun up => ‹b = a› ▸ home up
    · exact living.home b
  current := by
    intro b current_b
    rw [Function.update_apply]
    split
    · exact current (‹b = a› ▸ current_b)
    · exact living.current b current_b
  staged := by
    intro b staged_b
    rw [Function.update_apply]
    split
    · have waits := waiting (Or.inl (‹b = a› ▸ staged_b))
      refine ⟨Or.inr waits, ?_⟩
      rintro rfl
      exact absurd waits (by simp)
    · exact living.staged b staged_b
  candidate := by
    intro b candidate_b
    rw [Function.update_apply]
    split
    · exact Or.inr (waiting (Or.inr (‹b = a› ▸ candidate_b)))
    · exact living.candidate b candidate_b
  placed := living.placed

/-- A script is given up. -/
theorem Living.retire (living : Living slots preparing fresh state vm active) (a : Addr) :
    Living slots preparing fresh (Function.update state a .retiring) vm active :=
  living.become (fun _ => Or.inr (Or.inr rfl)) (by simp) (by simp) (fun _ => by simp)
    (fun _ => Or.inl rfl)

/-- A current script that is neither a candidate nor staged. -/
theorem Living.not_waiting (living : Living slots preparing fresh state vm active) {a : Addr}
    (up : state a = .running ∨ state a = .paused) : ¬ (StagedIn slots a ∨ preparing = some a) := by
  rintro (staged | candidate)
  · obtain ⟨waits, -⟩ := living.staged a staged
    rcases up with up | up <;> simp [up] at waits
  · have waits := living.candidate a candidate
    rcases up with up | up <;> simp [up] at waits

theorem Living.loaded (living : Living slots preparing fresh state vm active) {a : Addr}
    (running : active a ≠ 0) : vm a = true := by
  by_contra unloaded
  exact running (living.idle a (by simpa using unloaded))

/-- A new script, which nothing runs and which is not loaded. -/
theorem Living.born (living : Living slots preparing fresh state vm active)
    (slotted : ∀ id b, b ∈ scriptsAt slots id → b < fresh)
    (candidate : ∀ b, preparing = some b → b < fresh) (first : PluginState)
    (away : first ≠ .running ∧ first ≠ .paused) :
    Living slots preparing (fresh + 1) (Function.update state fresh first)
      (Function.update vm fresh false) (Function.update active fresh 0) := by
  have old : ∀ {b : Addr}, b < fresh → b ≠ fresh := fun below => Nat.ne_of_lt below
  refine ⟨?_, ?_, ?_, ?_, ?_, ?_, ?_, ?_, ?_⟩
  · intro b later
    rw [Function.update_of_ne (Nat.ne_of_gt later)]
    exact living.unborn b (Nat.le_of_succ_le later)
  · intro b
    rw [Function.update_apply, Function.update_apply]
    split
    · exact fun _ => rfl
    · exact living.idle b
  · intro b
    rw [Function.update_apply, Function.update_apply]
    split
    · exact fun real => absurd rfl real
    · exact living.called b
  · intro b
    rw [Function.update_apply, Function.update_apply]
    split
    · exact fun _ => rfl
    · exact living.dead b
  · intro b
    rw [Function.update_apply, Function.update_apply]
    split
    · rintro (up | up)
      · exact absurd up away.1
      · exact absurd up away.2
    · exact living.home b
  · intro b current
    obtain ⟨id, member⟩ := current.mem
    rw [Function.update_of_ne (old (slotted id b member))]
    exact living.current b current
  · intro b staged
    obtain ⟨id, member⟩ := staged.mem
    rw [Function.update_of_ne (old (slotted id b member)),
      Function.update_of_ne (old (slotted id b member)),
      Function.update_of_ne (old (slotted id b member))]
    exact living.staged b staged
  · intro b is
    rw [Function.update_of_ne (old (candidate b is))]
    exact living.candidate b is
  · intro b
    rw [Function.update_apply]
    split
    · exact fun loaded => (nomatch loaded)
    · exact living.placed b

/-- A slot keeps its current script and gets another replacement, or none. -/
theorem Living.put (living : Living slots preparing fresh state vm active) {id : String}
    {found slot : Slot} {later : Option Addr} (there : slots[id]? = some found)
    (current : slot.current = found.current)
    (replacement : ∀ b, slot.replacement = some b →
      (state b = .loading ∨ state b = .retiring ∨ state b = .failed) ∧
        (state b = .loading → vm b = true ∧ active b = 0))
    (kept : ∀ b, vm b = true → found.replacement = some b ∨ preparing = some b →
      slot.replacement = some b ∨ later = some b)
    (candidate : ∀ b, later = some b → preparing = some b) :
    Living (slots.insert id slot) later fresh state vm active where
  unborn := living.unborn
  idle := living.idle
  called := living.called
  dead := living.dead
  home := by
    intro b up
    obtain ⟨loaded, current_b⟩ := living.home b up
    refine ⟨loaded, current_b.kept ?_⟩
    intro other at_id is
    rw [there] at at_id
    cases at_id
    exact is.trans current.symm
  current := by
    intro b current_b
    rcases current_b.insert with rfl | ⟨other, at_other, -, in_other, is⟩
    · exact living.current _ ⟨id, found, there, current⟩
    · exact living.current b ⟨other, at_other, in_other, is⟩
  staged := by
    intro b staged_b
    rcases staged_b.insert with is | ⟨other, at_other, -, in_other, is⟩
    · exact replacement b is
    · exact living.staged b ⟨other, at_other, in_other, is⟩
  candidate := fun b is => living.candidate b (candidate b is)
  placed := by
    intro b loaded
    have here : slot.replacement = some b ∨ later = some b →
        (∃ other, b ∈ scriptsAt (slots.insert id slot) other) ∨ later = some b := by
      rintro (is | is)
      · exact Or.inl ⟨id, by rw [scriptsAt_insert, if_pos rfl]; exact Slot.staged_mem is⟩
      · exact Or.inr is
    rcases living.placed b loaded with ⟨other, member⟩ | is
    · by_cases same : other = id
      · rw [same, scriptsAt_of there, Slot.mem_scripts] at member
        rcases member with is | is
        · exact Or.inl ⟨id, by
            rw [scriptsAt_insert, if_pos rfl, is, ← current]
            exact List.mem_cons_self ..⟩
        · exact here (kept b loaded (Or.inl is))
      · exact Or.inl ⟨other, by rw [scriptsAt_insert, if_neg same]; exact member⟩
    · exact here (kept b loaded (Or.inr is))

/-- A script that waited becomes the current one of a slot. -/
theorem Living.install (living : Living slots preparing fresh state vm active) {id : String}
    {slot : Slot} {later : Option Addr} {first : PluginState}
    (called : active slot.current ≠ 0 →
      first = .loading ∨ first = .running ∨ first = .retiring)
    (dead : first = .disabled ∨ first = .failed → vm slot.current = false)
    (ready : first = .running ∨ first = .paused → vm slot.current = true)
    (settled : first ≠ .loading)
    (old : ∀ found : Slot, slots[id]? = some found → vm found.current = false)
    (replacement : ∀ b, slot.replacement = some b → b ≠ slot.current ∧ StagedIn slots b)
    (kept : ∀ (found : Slot) (b : Addr), slots[id]? = some found → found.replacement = some b →
      b = slot.current ∨ slot.replacement = some b)
    (elsewhere : ∀ other, slot.current ∈ scriptsAt slots other → other = id)
    (candidate : ∀ b, later = some b → preparing = some b ∧ b ≠ slot.current)
    (waited : ∀ b, preparing = some b → b = slot.current ∨ later = some b) :
    Living (slots.insert id slot) later fresh (Function.update state slot.current first) vm
      active := by
  have away : ∀ {b : Addr} {other : String} {found : Slot}, other ≠ id →
      slots[other]? = some found → b ∈ found.scripts → b ≠ slot.current := by
    rintro b other found apart there member rfl
    exact apart (elsewhere other (mem_scriptsAt.mpr ⟨found, there, member⟩))
  refine ⟨living.unborn, living.idle, ?_, ?_, ?_, ?_, ?_, ?_, ?_⟩
  · intro b active_b
    rw [Function.update_apply]
    split
    · exact called (‹b = slot.current› ▸ active_b)
    · exact living.called b active_b
  · intro b
    rw [Function.update_apply]
    split
    · exact fun gone => ‹b = slot.current› ▸ dead gone
    · exact living.dead b
  · intro b
    rw [Function.update_apply]
    split
    · intro up
      rw [‹b = slot.current›]
      exact ⟨ready up, currentIn_insert_self slots id slot⟩
    · intro up
      obtain ⟨loaded, current⟩ := living.home b up
      refine ⟨loaded, current.kept ?_⟩
      intro found at_id is
      rw [is, old found at_id] at loaded
      exact nomatch loaded
  · intro b current
    rcases current.insert with rfl | ⟨other, found, apart, there, is⟩
    · rw [Function.update_self]
      exact settled
    · rw [Function.update_of_ne (away apart there (Slot.mem_scripts.mpr (Or.inl is)))]
      exact living.current b ⟨other, found, there, is⟩
  · intro b staged
    rcases staged.insert with is | ⟨other, found, apart, there, is⟩
    · obtain ⟨different, was⟩ := replacement b is
      rw [Function.update_of_ne different]
      exact living.staged b was
    · rw [Function.update_of_ne (away apart there (Slot.staged_mem is))]
      exact living.staged b ⟨other, found, there, is⟩
  · intro b is
    obtain ⟨was, different⟩ := candidate b is
    rw [Function.update_of_ne different]
    exact living.candidate b was
  · intro b loaded
    have here : b ∈ slot.scripts → ∃ other, b ∈ scriptsAt (slots.insert id slot) other := by
      intro member
      exact ⟨id, by rw [scriptsAt_insert, if_pos rfl]; exact member⟩
    rcases living.placed b loaded with ⟨other, member⟩ | is
    · by_cases same : other = id
      · rw [same, mem_scriptsAt] at member
        obtain ⟨found, there, member⟩ := member
        rcases Slot.mem_scripts.mp member with is | is
        · rw [is, old found there] at loaded
          exact nomatch loaded
        · exact Or.inl (here (Slot.mem_scripts.mpr (kept found b there is)))
      · exact Or.inl ⟨other, by rw [scriptsAt_insert, if_neg same]; exact member⟩
    · rcases waited b is with is | is
      · exact Or.inl (here (is ▸ List.mem_cons_self ..))
      · exact Or.inr is

end Living

/-! ## Every state -/

def State.Lives (s : State) : Prop :=
  Living s.slots s.preparing s.fresh s.state s.vm s.active

/-- Only a script that is loaded is entered. -/
theorem Living.enter {slots : Slots} {preparing : Option Addr} {fresh : Addr}
    {state : Addr → PluginState} {vm : Addr → Bool} {active : Addr → Nat}
    (living : Living slots preparing fresh state vm active) {a : Addr} (loaded : vm a = true)
    (up : state a = .loading ∨ state a = .running ∨ state a = .retiring)
    (unstaged : state a = .loading → ¬ StagedIn slots a) :
    Living slots preparing fresh state vm (Function.update active a (active a + 1)) := by
  refine { living with idle := ?_, called := ?_, staged := ?_ }
  · intro b unloaded
    have other : b ≠ a := by
      rintro rfl
      exact absurd loaded (by simp [unloaded])
    rw [Function.update_of_ne other]
    exact living.idle b unloaded
  · intro b
    rw [Function.update_apply]
    split
    · exact fun _ => ‹b = a› ▸ up
    · exact living.called b
  · intro b staged
    refine ⟨(living.staged b staged).1, fun loading => ?_⟩
    have other : b ≠ a := by
      rintro rfl
      exact unstaged loading staged
    rw [Function.update_of_ne other]
    exact (living.staged b staged).2 loading

theorem Living.leave {slots : Slots} {preparing : Option Addr} {fresh : Addr}
    {state : Addr → PluginState} {vm : Addr → Bool} {active : Addr → Nat}
    (living : Living slots preparing fresh state vm active) {a : Addr} (inside : active a ≠ 0) :
    Living slots preparing fresh state vm (Function.update active a (active a - 1)) := by
  refine { living with idle := ?_, called := ?_, staged := ?_ }
  · intro b unloaded
    rw [Function.update_apply]
    split
    · have idle := living.idle b unloaded
      rw [← ‹b = a›, idle]
    · exact living.idle b unloaded
  · intro b
    rw [Function.update_apply]
    split
    · exact fun _ => ‹b = a› ▸ living.called a inside
    · exact living.called b
  · intro b staged
    refine ⟨(living.staged b staged).1, fun loading => ?_⟩
    obtain ⟨loaded, idle⟩ := (living.staged b staged).2 loading
    have other : b ≠ a := by
      rintro rfl
      exact inside idle
    rw [Function.update_of_ne other]
    exact ⟨loaded, idle⟩

/-- The fault of a script retires it, or leaves its state. -/
theorem State.fault_state (s : State) (a : Addr) :
    (s.fault a).state = s.state ∨ (s.fault a).state = Function.update s.state a .retiring := by
  by_cases third : s.faults a + 1 ≥ 3
  · exact Or.inr (if_pos third)
  · exact Or.inl (if_neg third)

theorem State.place_state (s : State) (a : Addr) (ready : Bool) :
    (s.place a ready).state =
      Function.update s.state a (if ready then .running else s.state a) := by
  cases ready with
  | true => rfl
  | false => exact (Function.update_eq_self a s.state).symm

theorem Slotted.staged_not_current {slots : Slots} {preparing : Option Addr} {managing : Bool}
    {fresh : Addr} (slotted : Slotted slots preparing managing fresh) {a : Addr}
    (staged : StagedIn slots a) : ¬ CurrentIn slots a := by
  rintro ⟨id, slot, there, is⟩
  obtain ⟨other, found, at_other, staged⟩ := staged
  have same : other = id := slotted.one other id a
    (mem_scriptsAt.mpr ⟨found, at_other, Slot.staged_mem staged⟩)
    (mem_scriptsAt.mpr ⟨slot, there, Slot.mem_scripts.mpr (Or.inl is)⟩)
  rw [same, there] at at_other
  cases at_other
  have apart := slotted.pair id
  rw [scriptsAt_of there, Slot.scripts_nodup] at apart
  exact apart a staged is

theorem Act.living {s s' : State} {k : Kind} (act : Act k s s')
    (slotted : Slotted s.slots s.preparing s.managing s.fresh) (living : s.Lives) : s'.Lives := by
  have below : ∀ id b, b ∈ scriptsAt s.slots id → b < s.fresh := slotted.born
  have waiting_below : ∀ b, s.preparing = some b → b < s.fresh :=
    fun b is => (slotted.candidate b is).2.1
  cases act with
  | enter a reason running loaded =>
      exact living.enter loaded (Or.inr (Or.inl running)) (by simp [running])
  | enterStart a candidate loading loaded =>
      exact living.enter loaded (Or.inl loading) fun _ staged =>
        staged.mem.elim fun id member => (slotted.candidate a candidate).2.2 id member
  | enterStop a still retiring loaded =>
      exact living.enter loaded (Or.inr (Or.inr retiring)) (by simp [retiring])
  | leave a inside => exact Living.leave living inside
  | fault a inside =>
      have later : Living s.slots s.preparing s.fresh (s.fault a).state s.vm s.active := by
        rcases s.fault_state a with same | retired
        · exact same ▸ living
        · exact retired ▸ living.retire a
      exact later
  | resetVm a still bare =>
      refine { living with unborn := ?_, idle := ?_, dead := ?_, home := ?_, staged := ?_,
                           placed := ?_ }
      · intro b later
        show Function.update s.vm a false b = false
        rw [Function.update_apply]
        split
        · rfl
        · exact living.unborn b later
      · intro b
        show Function.update s.vm a false b = false → _
        rw [Function.update_apply]
        split
        · exact fun _ => ‹b = a› ▸ still.inactive
        · exact living.idle b
      · intro b gone
        show Function.update s.vm a false b = false
        rw [Function.update_apply]
        split
        · rfl
        · exact living.dead b gone
      · intro b up
        have other : b ≠ a := by
          rintro rfl
          exact up.elim still.running still.paused
        show Function.update s.vm a false b = true ∧ _
        rw [Function.update_of_ne other]
        exact living.home b up
      · intro b staged
        refine ⟨(living.staged b staged).1, fun loading => ?_⟩
        have other : b ≠ a := by
          rintro rfl
          exact still.loading loading
        show Function.update s.vm a false b = true ∧ _
        rw [Function.update_of_ne other]
        exact (living.staged b staged).2 loading
      · intro b
        show Function.update s.vm a false b = true → _
        rw [Function.update_apply]
        split
        · exact fun loaded => (by cases loaded)
        · exact living.placed b
  | prepare m path managing settled owners =>
      have born := living.born below waiting_below .loading (by simp)
      refine { born with candidate := ?_, placed := ?_ }
      · intro b is
        cases is
        exact Or.inl (Function.update_self ..)
      · intro b loaded
        rcases born.placed b loaded with placed | is
        · exact Or.inl placed
        · exact absurd is (by simp [settled])
  | loadVm a candidate loading unloaded =>
      refine { living with unborn := ?_, idle := ?_, dead := ?_, home := ?_, staged := ?_,
                           placed := ?_ }
      · intro b later
        have other : b ≠ a := Nat.ne_of_gt (lt_of_lt_of_le (waiting_below a candidate) later)
        show Function.update s.vm a true b = false
        rw [Function.update_of_ne other]
        exact living.unborn b later
      · intro b
        show Function.update s.vm a true b = false → _
        rw [Function.update_apply]
        split
        · exact fun loaded => (by cases loaded)
        · exact living.idle b
      · intro b gone
        have other : b ≠ a := by
          rintro rfl
          have was : s.state b = .disabled ∨ s.state b = .failed := gone
          simp [loading] at was
        show Function.update s.vm a true b = false
        rw [Function.update_of_ne other]
        exact living.dead b gone
      · intro b up
        obtain ⟨loaded, current⟩ := living.home b up
        refine ⟨?_, current⟩
        show Function.update s.vm a true b = true
        rw [Function.update_apply]
        split
        · rfl
        · exact loaded
      · intro b staged
        obtain ⟨waits, loaded⟩ := living.staged b staged
        refine ⟨waits, fun is => ⟨?_, (loaded is).2⟩⟩
        show Function.update s.vm a true b = true
        rw [Function.update_apply]
        split
        · rfl
        · exact (loaded is).1
      · intro b
        show Function.update s.vm a true b = true → _
        rw [Function.update_apply]
        split
        · exact fun _ => Or.inr (‹b = a› ▸ candidate)
        · exact living.placed b
  | giveUp a candidate => exact living.retire a
  | failCandidate a candidate unloaded =>
      exact living.become (fun inside => absurd (living.idle a unloaded) inside)
        (fun _ => unloaded) (by simp) (fun _ => by simp) (fun _ => Or.inr rfl)
  | dropCandidate a candidate unloaded settled =>
      refine { living with candidate := fun b is => (by cases is), placed := ?_ }
      intro b loaded
      rcases living.placed b loaded with placed | is
      · exact Or.inl placed
      · rw [candidate] at is
        cases is
        rw [unloaded] at loaded
        cases loaded
  | place a ready candidate inactive replaceable loaded kind =>
      have nowhere := (slotted.candidate a candidate).2.2
      have installs : ∀ slot : Slot, slot.current = a →
          slot.replacement = (s.slots[(s.manifest a).id]?).bind Slot.replacement →
          Living (s.slots.insert (s.manifest a).id slot) none s.fresh (s.place a ready).state s.vm
            s.active := by
        rintro slot rfl replacement
        rw [s.place_state]
        refine living.install (fun inside => absurd inactive inside) ?_ ?_ ?_ ?_ ?_ ?_ ?_ ?_ ?_
        · rintro gone
          cases ready with
          | true => simp at gone
          | false => exact living.dead _ gone
        · intro up
          cases ready with
          | true => exact loaded rfl
          | false => exact (living.home _ up).1
        · cases ready with
          | true => simp
          | false => exact of_decide_eq_false kind.symm
        · intro found there
          have gone : s.state found.current = .disabled ∨ s.state found.current = .failed := by
            simpa [State.replaceable, there] using replaceable
          exact living.dead _ gone
        · intro b is
          rw [replacement] at is
          obtain ⟨found, there, staged⟩ := Option.bind_eq_some_iff.mp is
          refine ⟨?_, ⟨_, found, there, staged⟩⟩
          rintro rfl
          exact nowhere _ (mem_scriptsAt.mpr ⟨found, there, Slot.staged_mem staged⟩)
        · intro found b there staged
          right
          rw [replacement, there]
          exact staged
        · intro other member
          exact absurd member (nowhere other)
        · exact fun b is => (by cases is)
        · intro b is
          rw [candidate] at is
          exact Or.inl (Option.some.inj is).symm
      cases there : s.slots[(s.manifest a).id]? with
      | none =>
          have placed := installs { current := a } rfl (by simp [there])
          simpa [State.Lives, State.place, there] using placed
      | some slot =>
          have placed := installs { slot with current := a } rfl (by simp [there])
          simpa [State.Lives, State.place, there] using placed
  | placeRecord id m path state managing named free unloaded =>
      have away : state ≠ .running ∧ state ≠ .paused := by
        rcases unloaded with rfl | rfl <;> simp
      have born := living.born below waiting_below state away
      have placed : Living (s.slots.insert id { current := s.fresh }) s.preparing (s.fresh + 1)
          (Function.update (Function.update s.state s.fresh state) s.fresh state) _ _ :=
        born.install (fun inside => absurd (Function.update_self ..) inside)
        (fun _ => Function.update_self ..)
        (fun up => absurd up (by simp [away])) (by rcases unloaded with rfl | rfl <;> simp)
        (fun found there => absurd (free.symm.trans there) (by simp))
        (fun b is => (by cases is))
        (fun found b there => absurd (free.symm.trans there) (by simp))
        (fun other member => absurd (slotted.born other _ member) (lt_irrefl _))
        (fun b is => ⟨is, Nat.ne_of_lt (waiting_below b is)⟩)
        (fun b is => Or.inr is)
      rw [Function.update_idem] at placed
      exact placed
  | rewriteRecord id slot m path managing there named unloaded single =>
      exact living.become (fun inside => absurd (living.idle _ unloaded) inside)
        (fun _ => unloaded) (by simp) (fun _ => by simp) (fun _ => Or.inr rfl)
  | retire a => exact living.retire a
  | disable a managing current unloaded =>
      refine living.become (fun inside => absurd (living.idle _ unloaded) inside)
        (fun _ => unloaded) (by simp) (fun _ => by simp) ?_
      rintro (staged | candidate)
      · exact absurd current (slotted.staged_not_current staged)
      · obtain ⟨id, member⟩ := CurrentIn.mem current
        exact absurd member ((slotted.candidate a candidate).2.2 id)
  | dropReplacement id slot b managing there staged unloaded =>
      refine living.put there rfl (fun _ is => (by cases is)) ?_ (fun _ is => is)
      rintro c loaded (is | is)
      · rw [staged] at is
        cases is
        rw [unloaded] at loaded
        cases loaded
      · exact Or.inr is
  | replacementState id slot state managing there kind single =>
      exact living.put there rfl (fun b is => living.staged b ⟨id, slot, there, is⟩)
        (fun _ _ is => is) (fun _ is => is)
  | retireCandidate a candidate => exact living.retire a
  | stage id slot a candidate there single named inactive loaded =>
      refine living.put there rfl ?_ ?_ (fun _ is => (by cases is))
      · rintro b is
        cases is
        exact ⟨living.candidate a candidate, fun is => ⟨loaded is, inactive⟩⟩
      · rintro b _ (is | is)
        · rw [single] at is
          cases is
        · rw [candidate] at is
          exact Or.inl is
  | swap id slot b managing there staged loading inactive unloaded =>
      have resting := slotted.resting id slot there
      have at_id : b ∈ scriptsAt s.slots id :=
        mem_scriptsAt.mpr ⟨slot, there, Slot.staged_mem staged⟩
      have ready := (living.staged b ⟨id, slot, there, staged⟩).2 loading
      have swapped : Living (s.slots.insert id { slot with current := b, replacement := none })
          s.preparing s.fresh (Function.update s.state b slot.replacementState) s.vm s.active := by
        refine living.install (fun inside => absurd ready.2 inside) ?_ (fun _ => ready.1) ?_ ?_
          (fun _ is => (by cases is)) ?_ ?_ ?_ ?_
        · intro gone
          rcases resting with is | is <;> simp [is] at gone
        · rcases resting with is | is <;> simp [is]
        · intro found at_id
          rw [there] at at_id
          cases at_id
          exact unloaded
        · intro found c at_id is
          rw [there] at at_id
          cases at_id
          rw [staged] at is
          exact Or.inl (Option.some.inj is).symm
        · exact fun other member => slotted.one other id b member at_id
        · intro c is
          refine ⟨is, ?_⟩
          rintro rfl
          exact (slotted.candidate c is).2.2 id at_id
        · exact fun c is => Or.inr is
      exact swapped
  | pause a managing current running inactive =>
      exact living.become (fun inside => absurd inactive inside) (by simp)
        (fun _ => living.home a (Or.inl running)) (fun _ => by simp)
        (fun waits => absurd waits (living.not_waiting (Or.inl running)))
  | resume a managing current paused =>
      exact living.become (fun _ => Or.inr (Or.inl rfl)) (by simp)
        (fun _ => living.home a (Or.inr paused)) (fun _ => by simp)
        (fun waits => absurd waits (living.not_waiting (Or.inr paused)))
  | _ => exact living

theorem Reach.living {s : State} (reach : Reach s) : s.Lives := by
  induction reach with
  | boot first =>
      obtain ⟨now, publicTrigger, silentTrigger, rfl⟩ := first
      refine ⟨fun _ _ => rfl, fun _ _ => rfl, fun _ _ => Or.inl rfl, ?_, ?_, ?_, ?_,
        fun _ is => (nomatch is), fun _ loaded => (nomatch loaded)⟩
      · rintro a (is | is) <;> exact nomatch is
      · rintro a (is | is) <;> exact nomatch is
      · rintro a ⟨id, slot, there, -⟩
        exact absurd there (by simp [State.boot])
      · rintro b ⟨id, slot, there, -⟩
        exact absurd there (by simp [State.boot])
  | act before change ih => exact change.living before.slotted ih

/-- The script is in a slot, or it is the candidate being prepared. -/
def State.Alive (s : State) (a : Addr) : Prop := s.Placed a ∨ s.preparing = some a

theorem Reach.alive {s : State} (reach : Reach s) {a : Addr} (loaded : s.vm a = true) :
    s.Alive a :=
  (reach.living.placed a loaded).imp (fun ⟨id, there⟩ => ⟨id, mem_scriptsAt.mp there⟩) id

end Source2Root.Foundation
