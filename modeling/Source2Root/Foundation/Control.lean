import Source2Root.Foundation.Screens
import Source2Root.Foundation.MapChange

/-!
# What happens while somebody else has control

Foreign code leaves the calls that are under way as it found them.  While a
management operation is under way, it also leaves the slots and the scripts'
places alone, and gives nothing to a script that is being cleaned up.
-/

set_option autoImplicit false

namespace Source2Root.Foundation

open Reentrant Handles

/-- The calls that are under way. -/
structure Calls where
  active : Addr → Nat
  depth : Nat
  invocations : List (Addr × Registration)
  providerActive : Registration → Nat
  callbackDepth : Nat
  menuCallDepth : Nat
  managing : Bool
  selecting : Int → Option NativeDisplay

def State.calls (s : State) : Calls where
  active := s.active
  depth := s.depth
  invocations := s.invocations
  providerActive := s.providerActive
  callbackDepth := s.callbackDepth
  menuCallDepth := s.menuCallDepth
  managing := s.managing
  selecting := fun slot => s.nativeDisplays[slot]?.filter NativeDisplay.active

/-- A script that is still gets nothing. -/
structure Fades (s s' : State) (a : Addr) : Prop where
  commands : s.commandsOf a = ∅ → s'.commandsOf a = ∅
  events : s.eventsOf a = ∅ → s'.eventsOf a = ∅
  convars : s.convarsOf a = ∅ → s'.convarsOf a = ∅
  providers : s.providersOf a = ∅ → s'.providersOf a = ∅
  callbacks : s.callbacksOf a = ∅ → s'.callbacksOf a = ∅
  gags : s.gagsOf a = ∅ → s'.gagsOf a = ∅
  handles : s.handles.owned (s.owner a) 0 = [] → s'.handles.owned (s'.owner a) 0 = []
  displays : (∀ (slot : Int) (d : Display), s.displays[slot]? = some d → d.script ≠ a) →
    ∀ (slot : Int) (d : Display), s'.displays[slot]? = some d → d.script ≠ a

/-- What others may do while a management operation is under way. -/
structure Quietly (s s' : State) : Prop where
  slots : s'.slots = s.slots
  preparing : s'.preparing = s.preparing
  managing : s'.managing = s.managing
  manifest : s'.manifest = s.manifest
  owner : s'.owner = s.owner
  fresh : s'.fresh = s.fresh
  vm : s'.vm = s.vm
  swept : s'.swept = s.swept
  state : ∀ a, s'.state a = s.state a ∨ s'.state a = .retiring
  resting : ∀ a, s.active a = 0 → s.state a ≠ .running →
    s'.active a = 0 ∧ s'.state a = s.state a
  fades : ∀ a, s.Still a → Fades s s' a

theorem Fades.trans {s s' s'' : State} {a : Addr} (first : Fades s s' a) (second : Fades s' s'' a) :
    Fades s s'' a where
  commands := second.commands ∘ first.commands
  events := second.events ∘ first.events
  convars := second.convars ∘ first.convars
  providers := second.providers ∘ first.providers
  callbacks := second.callbacks ∘ first.callbacks
  gags := second.gags ∘ first.gags
  handles := second.handles ∘ first.handles
  displays := second.displays ∘ first.displays

theorem Quietly.still {s s' : State} (quietly : Quietly s s') {a : Addr} (still : s.Still a) :
    s'.Still a := by
  obtain ⟨inactive, same⟩ := quietly.resting a still.inactive still.running
  exact ⟨inactive, same ▸ still.loading, same ▸ still.running, same ▸ still.paused⟩

theorem Quietly.refl (s : State) : Quietly s s where
  slots := rfl
  preparing := rfl
  managing := rfl
  manifest := rfl
  owner := rfl
  fresh := rfl
  vm := rfl
  swept := rfl
  state := fun _ => Or.inl rfl
  resting := fun _ idle _ => ⟨idle, rfl⟩
  fades := fun _ _ => ⟨id, id, id, id, id, id, id, id⟩

theorem Quietly.trans {s s' s'' : State} (first : Quietly s s') (second : Quietly s' s'') :
    Quietly s s'' where
  slots := second.slots.trans first.slots
  preparing := second.preparing.trans first.preparing
  managing := second.managing.trans first.managing
  manifest := second.manifest.trans first.manifest
  owner := second.owner.trans first.owner
  fresh := second.fresh.trans first.fresh
  vm := second.vm.trans first.vm
  swept := second.swept.trans first.swept
  state := by
    intro a
    rcases second.state a with same | retired
    · rw [same]
      exact first.state a
    · exact Or.inr retired
  resting := by
    intro a idle down
    obtain ⟨idle', same⟩ := first.resting a idle down
    obtain ⟨idle'', same'⟩ := second.resting a idle' (same ▸ down)
    exact ⟨idle'', same'.trans same⟩
  fades := fun a still => (first.fades a still).trans (second.fades a (first.still still))

theorem owned_eq_nil {handles : Handles Resource} {owner : Nat} :
    handles.owned owner 0 = [] ↔ ∀ id b, handles.look id = some b → b.owner ≠ owner := by
  constructor
  · intro empty id b found mine
    have member : id ∈ handles.owned owner 0 := mem_owned_all.mpr ⟨b, found, mine⟩
    rw [empty] at member
    exact absurd member List.not_mem_nil
  · intro none_
    apply List.eq_nil_iff_forall_not_mem.mpr
    intro id member
    obtain ⟨b, found, mine⟩ := mem_owned_all.mp member
    exact none_ id b found mine

theorem owned_nil_less {handles left : Handles Resource} (less : Less handles left) {owner : Nat}
    (empty : handles.owned owner 0 = []) : left.owned owner 0 = [] :=
  owned_eq_nil.mpr fun id b found => owned_eq_nil.mp empty id b (less.look id b found)

theorem owned_nil_put {handles : Handles Resource} {id : HandleId} {number type owner : Nat}
    {before : Resource} (there : handles.get id number type = .ok before) (after : Resource)
    (empty : handles.owned owner 0 = []) : (handles.put id after).owned owner 0 = [] := by
  have found := get_iff.mp there
  refine owned_eq_nil.mpr fun other b at_other => ?_
  rw [look_put found] at at_other
  split at at_other
  · cases at_other
    have apart := owned_eq_nil.mp empty id _ found
    exact apart
  · exact owned_eq_nil.mp empty other b at_other

theorem owned_nil_add {handles left : Handles Resource} {id : HandleId} {number type owner : Nat}
    {value : Resource} (added : handles.add number type value = .ok (id, left))
    (apart : number ≠ owner) (empty : handles.owned owner 0 = []) : left.owned owner 0 = [] := by
  obtain ⟨-, -, after⟩ := look_add added
  refine owned_eq_nil.mpr fun other b at_other => ?_
  rw [after] at at_other
  split at at_other
  · cases at_other
    exact apart
  · exact owned_eq_nil.mp empty other b at_other

/-- A table of the scripts changes at a script that is not still. -/
theorem update_at_other {T : Type} {table : Addr → T} {a b : Addr} {entry : T} {P : T → Prop}
    (apart : b ≠ a) (kept : P (table b)) : P (Function.update table a entry b) := by
  rw [Function.update_of_ne apart]
  exact kept

theorem State.Making.not_still {s : State} {a : Addr} (making : s.Making a) : ¬ s.Still a := by
  intro still
  rcases making.awake with running | ⟨loading, -⟩
  · exact still.running running
  · exact still.loading loading

theorem Act.quietly {s s' : State} (act : Act .quiet s s') (reach : Reach s) : Quietly s s' := by
  have numbered := reach.numbered
  have fades : ∀ a, Fades s s a := fun _ => ⟨id, id, id, id, id, id, id, id⟩
  have resting : ∀ a, s.active a = 0 → s.state a ≠ .running →
      s.active a = 0 ∧ s.state a = s.state a := fun _ idle _ => ⟨idle, rfl⟩
  have same : ∀ a, s.state a = s.state a ∨ s.state a = .retiring := fun _ => Or.inl rfl
  -- the script that a handle is added for is not the still one
  have other_owner : ∀ {a b : Addr} {type : Nat} {value : Resource} {id : HandleId}
      {handles : Handles Resource}, s.Making a → s.Still b →
      s.handles.add (s.owner a) type value = .ok (id, handles) → s.owner a ≠ s.owner b := by
    intro a b type value id handles making still added number
    have is := numbered.one a b number (look_add added).1
    exact making.not_still (is ▸ still)
  cases act with
  | enter a reason running loaded =>
      refine ⟨rfl, rfl, rfl, rfl, rfl, rfl, rfl, rfl, same, ?_, fun _ _ => ⟨id, id, id, id, id, id, id, id⟩⟩
      intro b idle down
      refine ⟨?_, rfl⟩
      have apart : b ≠ a := by
        rintro rfl
        exact down running
      show Function.update s.active a (s.active a + 1) b = 0
      rw [Function.update_of_ne apart]
      exact idle
  | leave a inside outside =>
      refine ⟨rfl, rfl, rfl, rfl, rfl, rfl, rfl, rfl, same, ?_, fun _ _ => ⟨id, id, id, id, id, id, id, id⟩⟩
      intro b idle down
      refine ⟨?_, rfl⟩
      have apart : b ≠ a := by
        rintro rfl
        exact inside idle
      show Function.update s.active a (s.active a - 1) b = 0
      rw [Function.update_of_ne apart]
      exact idle
  | fault a inside =>
      refine ⟨rfl, rfl, rfl, rfl, rfl, rfl, rfl, rfl, ?_, ?_, fun _ _ => ⟨id, id, id, id, id, id, id, id⟩⟩
      · intro b
        rcases s.fault_state a with is | is
        · exact Or.inl (congrFun is b)
        · rw [is, Function.update_apply]
          split
          · exact Or.inr rfl
          · exact Or.inl rfl
      · intro b idle down
        refine ⟨idle, ?_⟩
        have apart : b ≠ a := by
          rintro rfl
          exact inside idle
        rcases s.fault_state a with is | is
        · exact congrFun is b
        · rw [is, Function.update_of_ne apart]
  | addDisplay a id handle player timeout menu running loaded free =>
      refine ⟨rfl, rfl, rfl, rfl, rfl, rfl, rfl, rfl, same, resting, fun b still => ?_⟩
      refine { fades b with displays := fun none_ slot d at_slot => ?_ }
      simp only [State.addDisplay] at at_slot
      rw [Tables.getElem?_insertIfNew free] at at_slot
      split at at_slot
      · cases at_slot
        show a ≠ b
        rintro rfl
        exact still.running running
      · exact none_ slot d at_slot
  | expire slot d expires there =>
      refine ⟨rfl, rfl, rfl, rfl, rfl, rfl, rfl, rfl, same, resting, fun b still => ?_⟩
      refine { fades b with displays := fun none_ other e at_other => ?_ }
      have found : (s.displays.insert slot { d with expires })[other]? = some e := at_other
      rw [Tables.getElem?_insert] at found
      split at found
      · cases found
        exact none_ slot d there
      · exact none_ other e found
  | closeMenu slot d value handles there removed =>
      refine ⟨rfl, rfl, rfl, rfl, rfl, rfl, rfl, rfl, same, resting, fun b still => ?_⟩
      refine { fades b with
        handles := owned_nil_less (less_remove removed)
        displays := fun none_ other e at_other => ?_ }
      have found : (s.displays.erase slot)[other]? = some e := at_other
      rw [Tables.getElem?_erase] at found
      split at found
      · cases found
      · exact none_ other e found
  | clearDisplays =>
      refine ⟨rfl, rfl, rfl, rfl, rfl, rfl, rfl, rfl, same, resting, fun b still => ?_⟩
      refine { fades b with displays := fun _ slot d there => ?_ }
      exact absurd there (by simp)
  | addHandle a value id handles making loaded plain added =>
      exact ⟨rfl, rfl, rfl, rfl, rfl, rfl, rfl, rfl, same, resting, fun b still =>
        { fades b with handles := owned_nil_add added (other_owner making still added) }⟩
  | addTimer a timer delay id handles making loaded positive due serial target added =>
      exact ⟨rfl, rfl, rfl, rfl, rfl, rfl, rfl, rfl, same, resting, fun b still =>
        { fades b with handles := owned_nil_add added (other_owner making still added) }⟩
  | createResource a r p type value id handles making bound there owned added =>
      exact ⟨rfl, rfl, rfl, rfl, rfl, rfl, rfl, rfl, same, resting, fun b still =>
        { fades b with handles := owned_nil_add added (other_owner making still added) }⟩
  | removeHandle a id type value handles plain hidden removed =>
      exact ⟨rfl, rfl, rfl, rfl, rfl, rfl, rfl, rfl, same, resting, fun b still =>
        { fades b with handles := owned_nil_less (less_remove removed) }⟩
  | retirePlayers a =>
      exact ⟨rfl, rfl, rfl, rfl, rfl, rfl, rfl, rfl, same, resting, fun b still =>
        { fades b with handles := owned_nil_less (less_retire ..) }⟩
  | retireMenus a undisplayed =>
      exact ⟨rfl, rfl, rfl, rfl, rfl, rfl, rfl, rfl, same, resting, fun b still =>
        { fades b with handles := owned_nil_less (less_retire ..) }⟩
  | putMenu a id before after there =>
      exact ⟨rfl, rfl, rfl, rfl, rfl, rfl, rfl, rfl, same, resting, fun b still =>
        { fades b with handles := owned_nil_put (State.menu_get there) _ }⟩
  | putFile a id before after there =>
      exact ⟨rfl, rfl, rfl, rfl, rfl, rfl, rfl, rfl, same, resting, fun b still =>
        { fades b with handles := owned_nil_put there _ }⟩
  | addCommand a name command registered making =>
      refine ⟨rfl, rfl, rfl, rfl, rfl, rfl, rfl, rfl, same, resting, fun b still => ?_⟩
      have apart : b ≠ a := fun is => making.not_still (is ▸ still)
      refine { fades b with commands := fun none_ => ?_ }
      exact update_at_other (P := fun x => x = ∅) apart none_
  | putCommand a name command inside =>
      refine ⟨rfl, rfl, rfl, rfl, rfl, rfl, rfl, rfl, same, resting, fun b still => ?_⟩
      have apart : b ≠ a := fun is => inside (is ▸ still.inactive)
      refine { fades b with commands := fun none_ => ?_ }
      exact update_at_other (P := fun x => x = ∅) apart none_
  | addEvent a name callback registered making =>
      refine ⟨rfl, rfl, rfl, rfl, rfl, rfl, rfl, rfl, same, resting, fun b still => ?_⟩
      have apart : b ≠ a := fun is => making.not_still (is ▸ still)
      refine { fades b with events := fun none_ => ?_ }
      exact update_at_other (P := fun x => x = ∅) apart none_
  | addConVar a definition id handles v created making loaded unowned ours is known added =>
      refine ⟨rfl, rfl, rfl, rfl, rfl, rfl, rfl, rfl, same, resting, fun b still => ?_⟩
      have apart : b ≠ a := fun is => making.not_still (is ▸ still)
      refine { fades b with
        convars := fun none_ => ?_
        handles := owned_nil_add added (other_owner making still added) }
      exact update_at_other (P := fun x => x = ∅) apart none_
  | flashConVar a name id handles left making added removed =>
      refine ⟨rfl, rfl, rfl, rfl, rfl, rfl, rfl, rfl, same, resting, fun b still => ?_⟩
      refine { fades b with handles := fun none_ => ?_ }
      exact owned_nil_less (less_remove removed)
        (owned_nil_add added (other_owner making still added) none_)
  | dropConVar a name id v released handles permit owned there last removed =>
      refine ⟨rfl, rfl, rfl, rfl, rfl, rfl, rfl, rfl, same, resting, fun b still => ?_⟩
      have inside : s.active a ≠ 0 := by
        rcases permit with ⟨-, inside⟩ | ⟨kind, -⟩
        · exact inside
        · cases kind
      have apart : b ≠ a := fun is => inside (is ▸ still.inactive)
      refine { fades b with
        convars := fun none_ => ?_
        handles := fun none_ => ?_ }
      · exact update_at_other (P := fun x => x = ∅) apart none_
      · rcases removed with ⟨value, removed⟩ | ⟨-, rfl⟩
        · exact owned_nil_less (less_remove removed) none_
        · exact none_
  | capture a r p function making =>
      refine ⟨rfl, rfl, rfl, rfl, rfl, rfl, rfl, rfl, same, resting, fun b still => ?_⟩
      have apart : b ≠ a := fun is => making.not_still (is ▸ still)
      refine { fades b with callbacks := fun none_ => ?_ }
      exact update_at_other (P := fun x => x = ∅) apart none_
  | cancel token callback there =>
      refine ⟨rfl, rfl, rfl, rfl, rfl, rfl, rfl, rfl, same, resting, fun b still => ?_⟩
      refine { fades b with callbacks := fun none_ => ?_ }
      show Function.update s.callbacksOf callback.script _ b = ∅
      rw [Function.update_apply]
      split
      · rw [← ‹b = callback.script›, none_, Finset.erase_empty]
      · exact none_
  | setGag a player running =>
      refine ⟨rfl, rfl, rfl, rfl, rfl, rfl, rfl, rfl, same, resting, fun b still => ?_⟩
      have apart : b ≠ a := fun is => still.running (is ▸ running)
      refine { fades b with gags := fun none_ => ?_ }
      exact update_at_other (P := fun x => x = ∅) apart none_
  | eraseGag a slot =>
      refine ⟨rfl, rfl, rfl, rfl, rfl, rfl, rfl, rfl, same, resting, fun b still => ?_⟩
      refine { fades b with gags := fun none_ => ?_ }
      show Function.update s.gagsOf a _ b = ∅
      rw [Function.update_apply]
      split
      · rw [← ‹b = a›, none_]
        exact Tables.eq_empty_iff.mpr fun k => by simp
      · exact none_
  | clearGags a =>
      refine ⟨rfl, rfl, rfl, rfl, rfl, rfl, rfl, rfl, same, resting, fun b still => ?_⟩
      refine { fades b with gags := fun none_ => ?_ }
      show Function.update s.gagsOf a ∅ b = ∅
      rw [Function.update_apply]
      split
      · rfl
      · exact none_
  | _ =>
      exact ⟨rfl, rfl, rfl, rfl, rfl, rfl, rfl, rfl, same, resting,
        fun _ _ => ⟨id, id, id, id, id, id, id, id⟩⟩

/-! ## Operations -/

/-- What foreign code does between two moments at which somebody waits for it. -/
structure Later (s s' : State) : Prop where
  calls : s'.calls = s.calls
  quietly : s.managing = true → Quietly s s'
  onward : Onward s s'

theorem Later.refl (s : State) : Later s s := ⟨rfl, fun _ => Quietly.refl s, Onward.refl s⟩

theorem Later.managing {s s' : State} (later : Later s s') : s'.managing = s.managing :=
  congrArg Calls.managing later.calls

theorem Later.trans {s s' s'' : State} (first : Later s s') (second : Later s' s'') :
    Later s s'' :=
  ⟨second.calls.trans first.calls, fun managed =>
    (first.quietly managed).trans (second.quietly (first.managing.trans managed)),
    first.onward.trans second.onward⟩

/-- An operation that began in `base` has come to `s`. -/
structure Within (base s : State) : Prop where
  reach : Reach s
  later : Later base s

section Within

variable {base s s' : State}

theorem Within.start (reach : Reach s) : Within s s := ⟨reach, Later.refl s⟩

theorem Within.managing (within : Within base s) : s.managing = base.managing :=
  within.later.managing

/-- The calls under way are those of before, at any two moments of an operation. -/
theorem Within.active (within : Within base s) (within' : Within base s') :
    s'.active = s.active :=
  congrArg Calls.active (within'.later.calls.trans within.later.calls.symm)

theorem Within.act (within : Within base s) (act : Act .quiet s s') (calls : s'.calls = s.calls) :
    Within base s' :=
  ⟨within.reach.act act,
    within.later.trans ⟨calls, fun _ => act.quietly within.reach, act.onward⟩⟩

/-- Foreign code had control. -/
theorem Within.back (within : Within base s) (reach : Reach s') (later : Later s s') :
    Within base s' := ⟨reach, within.later.trans later⟩

/-- A stretch that one of the single changes began is over. -/
theorem Within.over {begun : State} (within : Within base s) (first : Act .quiet s begun)
    (reach : Reach s') (calls : s'.calls = s.calls) (onward : Onward begun s')
    (after : s.managing = true → Quietly begun s') : Within base s' :=
  within.back reach ⟨calls, fun managed => (first.quietly within.reach).trans (after managed),
    first.onward.trans onward⟩

end Within

section Rules

variable {α β : Type} {s : State} {Q : Except Raised β → State → Prop}

theorem get_wp {f : State → M β} (rest : (f s s).Wp Reach Later Q) :
    ((Foundation.get >>= f) s).Wp Reach Later Q := wp_bind.mpr rest

theorem modify_wp {f : State → State} {g : Unit → M β} (rest : (g () (f s)).Wp Reach Later Q) :
    ((Foundation.modify f >>= g) s).Wp Reach Later Q := wp_bind.mpr rest

theorem reply_wp {f : Reply → M β} (rest : ∀ r, (f r s).Wp Reach Later Q) :
    ((Foundation.reply >>= f) s).Wp Reach Later Q := wp_bind.mpr rest

theorem host_wp {f : KeelResult → M β} (rest : ∀ result, (f result s).Wp Reach Later Q) :
    ((Foundation.host >>= f) s).Wp Reach Later Q := by
  refine wp_bind.mpr (wp_bind.mpr fun r => ?_)
  exact rest r.result

/-- A step, and the rest of the program for each of its ends. -/
theorem bind_wp {m : M α} {f : α → M β} {Q' : Except Raised α → State → Prop}
    (first : (m s).Wp Reach Later Q')
    (rest : ∀ value s', Q' (.ok value) s' → (f value s').Wp Reach Later Q)
    (fails : ∀ x s', Q' (.error x) s' → Q (.error x) s') :
    ((m >>= f) s).Wp Reach Later Q := by
  refine wp_bind.mpr (first.mono fun outcome s' fine => ?_)
  cases outcome with
  | ok value => exact rest value s' fine
  | error x => exact fails x s' fine

end Rules

/-- The operation keeps to the single changes and ends in the calls it began in;
if it returns, then with `P` of the answer and the state, and it raises only when
`E`.  Others get control only where `I` holds. -/
def Runs {α : Type} (I : State → Prop) (E : Prop) (base : State) (m : M α) (s : State)
    (P : α → State → Prop) : Prop :=
  (m s).Wp I Later fun outcome s' =>
    Within base s' ∧ (∀ value, outcome = .ok value → P value s') ∧
      (∀ x, outcome = .error x → E)

/-- An operation that may raise. -/
abbrev Does {α : Type} (base : State) (m : M α) (s : State) (P : α → State → Prop) : Prop :=
  Runs Reach True base m s P

/-- An operation that does not raise. -/
abbrev Gives {α : Type} (base : State) (m : M α) (s : State) (P : α → State → Prop) : Prop :=
  Runs Reach False base m s P

abbrev Keeps {α : Type} (base : State) (m : M α) (s : State) : Prop :=
  Runs Reach True base m s fun _ _ => True

/-- The operation changes nothing, unless it raises. -/
abbrev Looks {α : Type} (base : State) (m : M α) (s : State) (P : α → Prop) : Prop :=
  Runs Reach True base m s fun value s' => s' = s ∧ P value

section Runs

variable {α β : Type} {I : State → Prop} {E : Prop} {base s : State} {P : α → State → Prop}
  {P' : β → State → Prop}

theorem Runs.pure {value : α} (within : Within base s) (fine : P value s) :
    Runs I E base (Pure.pure value : M α) s P :=
  ⟨within, fun _ is => Except.ok.inj is ▸ fine, fun _ is => (nomatch is)⟩

theorem Runs.throw (within : Within base s) (x : Raised) (may : E) :
    Runs I E base (MonadExcept.throw x : M α) s P :=
  ⟨within, fun _ is => (nomatch is), fun _ _ => may⟩

theorem Runs.ite {c : Prop} [Decidable c] {m n : M α} (pos : c → Runs I E base m s P)
    (neg : ¬ c → Runs I E base n s P) : Runs I E base (if c then m else n) s P := wp_ite pos neg

theorem Runs.bind {m : M α} {f : α → M β} (first : Runs I E base m s P)
    (rest : ∀ value s', Within base s' → P value s' → Runs I E base (f value) s' P') :
    Runs I E base (m >>= f) s P' := by
  refine wp_bind.mpr (Tree.Wp.mono first fun outcome s' fine => ?_)
  cases outcome with
  | ok value => exact rest value s' fine.1 (fine.2.1 value rfl)
  | error x => exact ⟨fine.1, fun _ is => (nomatch is), fun _ _ => fine.2.2 x rfl⟩

theorem Runs.mono {m : M α} {P' : α → State → Prop} (runs : Runs I E base m s P)
    (weaker : ∀ value s', Within base s' → P value s' → P' value s') : Runs I E base m s P' :=
  Tree.Wp.mono runs fun _ s' fine =>
    ⟨fine.1, fun value is => weaker value s' fine.1 (fine.2.1 value is), fine.2.2⟩

theorem Runs.fine {m : M α} (runs : Runs I E base m s P) : Runs I E base m s fun _ _ => True :=
  runs.mono fun _ _ _ _ => trivial

theorem Runs.keeps {m : M α} (runs : Runs Reach E base m s P) : Keeps base m s :=
  Tree.Wp.mono runs fun _ _ fine => ⟨fine.1, fun _ _ => trivial, fun _ _ => trivial⟩

theorem Runs.does {m : M α} (runs : Runs Reach E base m s P) : Does base m s P :=
  Tree.Wp.mono runs fun _ _ fine => ⟨fine.1, fine.2.1, fun _ _ => trivial⟩

/-- What is known of where an inner operation began holds of the outer one. -/
theorem Runs.rebase {m : M α} {inner : State} (within : Within base inner)
    (runs : Runs I E inner m s P) : Runs I E base m s P :=
  Tree.Wp.mono runs fun _ _ fine => ⟨within.back fine.1.reach fine.1.later, fine.2⟩

theorem Keeps.bind {m : M α} {f : α → M β} (first : Keeps base m s)
    (rest : ∀ value s', Within base s' → Does base (f value) s' P') :
    Does base (m >>= f) s P' :=
  Runs.bind first fun value s' within _ => rest value s' within

theorem Looks.bind {m : M α} {f : α → M β} {L : α → Prop} (first : Looks base m s L)
    (rest : ∀ value, L value → Does base (f value) s P') : Does base (m >>= f) s P' :=
  Runs.bind first fun value _ _ both => both.1 ▸ rest value both.2

theorem Runs.reply {f : Reply → M β} (rest : ∀ r, Runs I E base (f r) s P') :
    Runs I E base (Foundation.reply >>= f) s P' := wp_bind.mpr rest

theorem Runs.host {f : KeelResult → M β} (rest : ∀ result, Runs I E base (f result) s P') :
    Runs I E base (Foundation.host >>= f) s P' := by
  refine wp_bind.mpr (wp_bind.mpr fun r => ?_)
  exact rest r.result

theorem Runs.get {f : State → M β} (rest : Runs I E base (f s) s P') :
    Runs I E base (Foundation.get >>= f) s P' := wp_bind.mpr rest

theorem Runs.modify {f : State → State} {g : Unit → M β} (rest : Runs I E base (g ()) (f s) P') :
    Runs I E base (Foundation.modify f >>= g) s P' := wp_bind.mpr rest

theorem Runs.modified {f : State → State} {Q : Unit → State → Prop} (within : Within base (f s))
    (fine : Q () (f s)) : Runs I E base (Foundation.modify f) s Q :=
  ⟨within, fun _ is => Except.ok.inj is ▸ fine, fun _ is => (nomatch is)⟩

theorem Runs.enter {f : Reply → M β} (within : Within base s)
    (rest : ∀ r s', Within base s' → Later s s' → Runs Reach E base (f r) s' P') :
    Runs Reach E base (Code.enter >>= f) s P' :=
  wp_bind.mpr (wp_enter.mpr ⟨within.reach, fun r s' reach later =>
    rest r s' (within.back reach later) later⟩)

theorem Runs.handle {m : M α} {h : Raised → M α} (first : Does base m s P)
    (handler : ∀ x s', Within base s' → Runs Reach E base (h x) s' P) :
    Runs Reach E base (tryCatch m h) s P := by
  refine wp_tryCatch.mpr (Tree.Wp.mono first fun outcome s' fine => ?_)
  cases outcome with
  | ok value => exact ⟨fine.1, fun v is => Except.ok.inj is ▸ fine.2.1 value rfl,
      fun _ is => (nomatch is)⟩
  | error x => exact handler x s' fine.1

theorem Runs.forM {A : Type} {R : State → Prop} (f : A → M Unit) (xs : List A)
    (each : ∀ x ∈ xs, ∀ s, Within base s → R s → Runs I E base (f x) s fun _ s' => R s') :
    ∀ s, Within base s → R s → Runs I E base (xs.forM f) s fun _ s' => R s' := by
  induction xs with
  | nil => exact fun s within holds => Runs.pure within holds
  | cons x rest ih =>
      intro s within holds
      show Runs I E base (f x >>= fun _ => rest.forM f) s _
      exact (each x (List.mem_cons_self ..) s within holds).bind fun _ s' within' holds' =>
        ih (fun y member => each y (List.mem_cons_of_mem _ member)) s' within' holds'

theorem Runs.foldlM {A B : Type} {R : B → State → Prop} (f : B → A → M B) (xs : List A)
    (each : ∀ x ∈ xs, ∀ b s, Within base s → R b s → Runs I E base (f b x) s R) :
    ∀ b s, Within base s → R b s → Runs I E base (xs.foldlM f b) s R := by
  induction xs with
  | nil => exact fun b s within holds => Runs.pure within holds
  | cons x rest ih =>
      intro b s within holds
      rw [List.foldlM_cons]
      exact (each x (List.mem_cons_self ..) b s within holds).bind fun b' s' within' holds' =>
        ih (fun y member => each y (List.mem_cons_of_mem _ member)) b' s' within' holds'

theorem Keeps.forM {A : Type} (f : A → M Unit) (xs : List A)
    (each : ∀ x ∈ xs, ∀ s, Within base s → Keeps base (f x) s) (s : State)
    (within : Within base s) : Keeps base (xs.forM f) s :=
  Runs.forM f xs (fun x member s within _ => each x member s within) s within trivial

/-- A part whose course is known. -/
theorem Runs.known {m : M α} {f : α → M β} {value : α} {t : State}
    (ends : m s = .done (.ok value) t) (rest : Runs I E base (f value) t P') :
    Runs I E base (m >>= f) s P' := by
  unfold Runs
  rw [done_bind ends]
  exact rest

/-- The lookup that can fail, and what follows if it succeeds. -/
theorem Runs.listener (within : Within base s) {found : Option α} {f : α → M β}
    (may : found = none → E) (rest : ∀ value, found = some value → Runs I E base (f value) s P') :
    Runs I E base (Foundation.expect .listenerSlot found >>= f) s P' := by
  cases found with
  | none => exact ⟨within.act .miss rfl, fun _ is => (nomatch is), fun _ _ => may rfl⟩
  | some value => exact rest value rfl

/-- A lookup that succeeds. -/
theorem Runs.expected (lookup : Lookup) {found : Option α} {value : α}
    (there : found = some value) {f : α → M β} (rest : Runs I E base (f value) s P') :
    Runs I E base (Foundation.expect lookup found >>= f) s P' := by
  subst there
  exact rest

end Runs

end Source2Root.Foundation
