import Source2Root.Foundation.Acts
import Source2Root.Tables

/-!
# Which scripts there are

The states that the single changes lead to, and what holds of every one of them
about the scripts: their owner numbers, the slots they are in and what a script
in each lifecycle state may still have.
-/

set_option autoImplicit false

namespace Source2Root.Foundation

/-- A manager that was just constructed. -/
def Boot (s : State) : Prop :=
  ∃ now publicTrigger silentTrigger, s = State.boot now publicTrigger silentTrigger

/-- What the single changes lead to. -/
inductive Reach : State → Prop where
  | boot {s : State} (first : Boot s) : Reach s
  | act {s s' : State} {k : Kind} (before : Reach s) (change : Act k s s') : Reach s'

/-- What the single changes lead to from a state on. -/
def Onward : State → State → Prop := Relation.ReflTransGen fun s s' => ∃ k, Act k s s'

theorem Onward.refl (s : State) : Onward s s := Relation.ReflTransGen.refl

theorem Onward.trans {s s' s'' : State} (first : Onward s s') (second : Onward s' s'') :
    Onward s s'' := Relation.ReflTransGen.trans first second

theorem Act.onward {s s' : State} {k : Kind} (act : Act k s s') : Onward s s' :=
  Relation.ReflTransGen.single ⟨k, act⟩

/-- The only lookup that ever fails is that of the slot of a listener. -/
theorem Reach.missed {s : State} (reach : Reach s) :
    ∀ lookup ∈ s.missed, lookup = .listenerSlot := by
  induction reach with
  | boot first =>
      obtain ⟨now, publicTrigger, silentTrigger, rfl⟩ := first
      exact fun lookup member => nomatch member
  | act before change ih =>
      cases change with
      | miss =>
          intro lookup member
          rcases List.mem_append.mp member with old | new
          · exact ih lookup old
          · exact List.mem_singleton.mp new
      | _ => exact ih

/-! ## Owner numbers -/

/-- No two scripts have the same owner number; zero is nobody's. -/
structure Numbered (nextOwner : Nat) (fresh : Addr) (owner : Addr → Nat) : Prop where
  below : ∀ a, owner a < nextOwner
  one : ∀ a b, owner a = owner b → owner a ≠ 0 → a = b
  unborn : ∀ a, fresh ≤ a → owner a = 0

theorem Numbered.born {nextOwner : Nat} {fresh : Addr} {owner : Addr → Nat}
    (numbered : Numbered nextOwner fresh owner) :
    Numbered (nextOwner + 1) (fresh + 1) (Function.update owner fresh nextOwner) where
  below := by
    intro a
    rw [Function.update_apply]
    split
    · exact Nat.lt_succ_self _
    · exact Nat.lt_succ_of_lt (numbered.below a)
  one := by
    intro a b same real
    rw [Function.update_apply] at same real
    rw [Function.update_apply] at same
    have below_a := numbered.below a
    have below_b := numbered.below b
    by_cases a_new : a = fresh
    · by_cases b_new : b = fresh
      · rw [a_new, b_new]
      · rw [if_pos a_new, if_neg b_new] at same
        omega
    · rw [if_neg a_new] at same real
      by_cases b_new : b = fresh
      · rw [if_pos b_new] at same
        omega
      · rw [if_neg b_new] at same
        exact numbered.one a b same real
  unborn := by
    intro a later
    rw [Function.update_of_ne (Nat.ne_of_gt later)]
    exact numbered.unborn a (Nat.le_of_succ_le later)

theorem Numbered.record {nextOwner : Nat} {fresh : Addr} {owner : Addr → Nat}
    (numbered : Numbered nextOwner fresh owner) :
    Numbered nextOwner (fresh + 1) (Function.update owner fresh 0) := by
  have same : Function.update owner fresh 0 = owner := by
    rw [← numbered.unborn fresh (le_refl _), Function.update_eq_self]
  rw [same]
  exact ⟨numbered.below, numbered.one, fun a later => numbered.unborn a (Nat.le_of_succ_le later)⟩

theorem Act.numbered {s s' : State} {k : Kind} (act : Act k s s')
    (numbered : Numbered s.nextOwner s.fresh s.owner) :
    Numbered s'.nextOwner s'.fresh s'.owner := by
  cases act with
  | prepare => exact numbered.born
  | placeRecord => exact numbered.record
  | _ => exact numbered

theorem Reach.numbered {s : State} (reach : Reach s) :
    Numbered s.nextOwner s.fresh s.owner := by
  induction reach with
  | boot first =>
      obtain ⟨now, publicTrigger, silentTrigger, rfl⟩ := first
      exact ⟨fun _ => Nat.one_pos, fun _ _ _ real => absurd rfl real, fun _ _ => rfl⟩
  | act _ change ih => exact change.numbered ih

/-! ## Slots -/

abbrev Slots := Std.ExtTreeMap String Slot

/-- The scripts under an identifier. -/
def scriptsAt (slots : Slots) (id : String) : List Addr := slots[id]?.elim [] Slot.scripts

theorem scriptsAt_of {slots : Slots} {id : String} {slot : Slot}
    (there : slots[id]? = some slot) : scriptsAt slots id = slot.scripts := by
  rw [scriptsAt, there, Option.elim_some]

theorem mem_scriptsAt {slots : Slots} {id : String} {a : Addr} :
    a ∈ scriptsAt slots id ↔ ∃ slot : Slot, slots[id]? = some slot ∧ a ∈ slot.scripts := by
  unfold scriptsAt
  cases slots[id]? with
  | none => simp
  | some slot => simp

theorem scriptsAt_insert (slots : Slots) (id other : String) (slot : Slot) :
    scriptsAt (slots.insert id slot) other =
      if other = id then slot.scripts else scriptsAt slots other := by
  unfold scriptsAt
  rw [Tables.getElem?_insert]
  split <;> rfl

/-- Every script has one place: in a slot, as the candidate, or none any more. -/
structure Slotted (slots : Slots) (preparing : Option Addr) (managing : Bool) (fresh : Addr) :
    Prop where
  one : ∀ id other a, a ∈ scriptsAt slots id → a ∈ scriptsAt slots other → id = other
  pair : ∀ id, (scriptsAt slots id).Nodup
  born : ∀ id a, a ∈ scriptsAt slots id → a < fresh
  candidate : ∀ a, preparing = some a →
    managing = true ∧ a < fresh ∧ ∀ id, a ∉ scriptsAt slots id
  resting : ∀ (id : String) (slot : Slot), slots[id]? = some slot →
    slot.replacementState = .paused ∨ slot.replacementState = .running

section Slotted

variable {slots : Slots} {preparing : Option Addr} {managing : Bool} {fresh : Addr}

/-- A slot comes to hold other scripts, each of them its own before, or nobody's. -/
theorem Slotted.put (slotted : Slotted slots preparing managing fresh) {id : String} {slot : Slot}
    {later : Option Addr} {grown : Addr} (nodup : slot.scripts.Nodup) (more : fresh ≤ grown)
    (mine : ∀ a ∈ slot.scripts, a < grown ∧ ∀ other, a ∈ scriptsAt slots other → other = id)
    (kept : ∀ a, later = some a → preparing = some a ∧ a ∉ slot.scripts)
    (rest : slot.replacementState = .paused ∨ slot.replacementState = .running) :
    Slotted (slots.insert id slot) later managing grown where
  one := by
    intro k other a at_k at_other
    rw [scriptsAt_insert] at at_k at_other
    by_cases k_here : k = id
    · rw [if_pos k_here] at at_k
      by_cases other_here : other = id
      · rw [k_here, other_here]
      · rw [if_neg other_here] at at_other
        rw [k_here, (mine a at_k).2 other at_other]
    · rw [if_neg k_here] at at_k
      by_cases other_here : other = id
      · rw [if_pos other_here] at at_other
        rw [other_here, (mine a at_other).2 k at_k]
      · rw [if_neg other_here] at at_other
        exact slotted.one k other a at_k at_other
  pair := by
    intro k
    rw [scriptsAt_insert]
    split
    · exact nodup
    · exact slotted.pair k
  born := by
    intro k a at_k
    rw [scriptsAt_insert] at at_k
    split at at_k
    · exact (mine a at_k).1
    · exact lt_of_lt_of_le (slotted.born k a at_k) more
  candidate := by
    intro a later_a
    obtain ⟨was, absent⟩ := kept a later_a
    obtain ⟨managed, below, nowhere⟩ := slotted.candidate a was
    refine ⟨managed, lt_of_lt_of_le below more, ?_⟩
    intro k
    rw [scriptsAt_insert]
    split
    · exact absent
    · exact nowhere k
  resting := by
    intro k found at_k
    rw [Tables.getElem?_insert] at at_k
    split at at_k
    · cases at_k
      exact rest
    · exact slotted.resting k found at_k

end Slotted

theorem Slot.scripts_nodup {slot : Slot} :
    slot.scripts.Nodup ↔ ∀ b, slot.replacement = some b → b ≠ slot.current := by
  unfold Slot.scripts
  cases slot.replacement with
  | none => simp
  | some b => simp [eq_comm]

theorem Slot.staged_mem {slot : Slot} {b : Addr} (staged : slot.replacement = some b) :
    b ∈ slot.scripts := by
  simp [Slot.scripts, staged]

theorem Act.slotted {s s' : State} {k : Kind} (act : Act k s s')
    (slotted : Slotted s.slots s.preparing s.managing s.fresh) :
    Slotted s'.slots s'.preparing s'.managing s'.fresh := by
  have mine : ∀ {id : String} {slot : Slot} {a : Addr}, s.slots[id]? = some slot →
      a ∈ slot.scripts → a < s.fresh ∧ ∀ other, a ∈ scriptsAt s.slots other → other = id := by
    intro id slot a there member
    have at_id : a ∈ scriptsAt s.slots id := mem_scriptsAt.mpr ⟨slot, there, member⟩
    exact ⟨slotted.born id a at_id, fun other at_other => slotted.one other id a at_other at_id⟩
  cases act with
  | manage free =>
      refine ⟨slotted.one, slotted.pair, slotted.born, ?_, slotted.resting⟩
      intro a candidate
      exact absurd (slotted.candidate a candidate).1 (by simp [free])
  | unmanage managing settled =>
      refine ⟨slotted.one, slotted.pair, slotted.born, ?_, slotted.resting⟩
      intro a candidate
      exact nomatch settled.symm.trans candidate
  | prepare m path managing settled =>
      refine ⟨slotted.one, slotted.pair, ?_, ?_, slotted.resting⟩
      · exact fun id a at_id => Nat.lt_succ_of_lt (slotted.born id a at_id)
      · intro a candidate
        cases candidate
        exact ⟨managing, Nat.lt_succ_self _,
          fun id at_id => absurd (slotted.born id _ at_id) (lt_irrefl _)⟩
  | dropCandidate a candidate =>
      exact ⟨slotted.one, slotted.pair, slotted.born, fun _ none_ => (nomatch none_),
        slotted.resting⟩
  | place a ready candidate inactive replaceable =>
      obtain ⟨-, below, nowhere⟩ := slotted.candidate a candidate
      have fresh_one : ∀ other, a ∈ scriptsAt s.slots other → other = (s.manifest a).id :=
        fun other at_other => absurd at_other (nowhere other)
      cases there : s.slots[(s.manifest a).id]? with
      | none =>
          have alone : ∀ b ∈ Slot.scripts { current := a }, b = a := by simp [Slot.scripts]
          have put : Slotted (s.slots.insert (s.manifest a).id { current := a }) none s.managing
              s.fresh :=
            slotted.put (by simp [Slot.scripts]) (le_refl _)
              (fun b member => (alone b member).symm ▸ ⟨below, fresh_one⟩)
              (fun _ none_ => (nomatch none_)) (Or.inr rfl)
          simpa [State.place, there] using put
      | some slot =>
          have apart : (Slot.scripts { slot with current := a }).Nodup := by
            rw [Slot.scripts_nodup]
            intro b staged same
            have member : b ∈ slot.scripts := Slot.staged_mem staged
            exact nowhere _ (same ▸ mem_scriptsAt.mpr ⟨slot, there, member⟩)
          have ours : ∀ b ∈ Slot.scripts { slot with current := a }, b < s.fresh ∧
              ∀ other, b ∈ scriptsAt s.slots other → other = (s.manifest a).id := by
            intro b member
            rcases List.mem_cons.mp member with same | later
            · exact same.symm ▸ ⟨below, fresh_one⟩
            · exact mine there (List.mem_cons_of_mem _ later)
          have put : Slotted (s.slots.insert (s.manifest a).id { slot with current := a }) none
              s.managing s.fresh :=
            slotted.put apart (le_refl _) ours (fun _ none_ => (nomatch none_))
              (slotted.resting _ slot there)
          simpa [State.place, there] using put
  | placeRecord id m path state managing named free =>
      refine slotted.put (by simp [Slot.scripts]) (Nat.le_succ _) ?_ ?_ (Or.inr rfl)
      · intro b member
        have same : b = s.fresh := by simpa [Slot.scripts] using member
        rw [same]
        exact ⟨Nat.lt_succ_self _,
          fun other at_other => absurd (slotted.born other _ at_other) (lt_irrefl _)⟩
      · intro a candidate
        refine ⟨candidate, ?_⟩
        intro member
        have same : a = s.fresh := by simpa [Slot.scripts] using member
        exact absurd (slotted.candidate a candidate).2.1 (same ▸ lt_irrefl _)
  | dropReplacement id slot b managing there staged =>
      refine slotted.put (by simp [Slot.scripts]) (le_refl _) ?_ ?_ (slotted.resting id slot there)
      · intro a member
        have same : a = slot.current := by simpa [Slot.scripts] using member
        exact mine there (same ▸ List.mem_cons_self ..)
      · intro a candidate
        refine ⟨candidate, ?_⟩
        intro member
        have same : a = slot.current := by simpa [Slot.scripts] using member
        exact (slotted.candidate a candidate).2.2 id
          (mem_scriptsAt.mpr ⟨slot, there, same ▸ List.mem_cons_self ..⟩)
  | replacementState id slot state managing there kind single =>
      have nodup := slotted.pair id
      rw [scriptsAt_of there] at nodup
      refine slotted.put nodup (le_refl _) (fun a member => mine there member) ?_ kind
      intro a candidate
      exact ⟨candidate, fun member => (slotted.candidate a candidate).2.2 id
        (mem_scriptsAt.mpr ⟨slot, there, member⟩)⟩
  | stage id slot a candidate there single =>
      obtain ⟨-, below, nowhere⟩ := slotted.candidate a candidate
      refine slotted.put ?_ (le_refl _) ?_ (fun _ none_ => (nomatch none_))
        (slotted.resting id slot there)
      · rw [Slot.scripts_nodup]
        intro b staged same
        cases staged
        exact nowhere id (mem_scriptsAt.mpr ⟨slot, there, same ▸ List.mem_cons_self ..⟩)
      · intro b member
        have cases_b : b = slot.current ∨ b = a := by simpa [Slot.scripts] using member
        rcases cases_b with same | same
        · exact mine there (same ▸ List.mem_cons_self ..)
        · rw [same]
          exact ⟨below, fun other at_other => absurd at_other (nowhere other)⟩
  | swap id slot b managing there staged =>
      have member_b : b ∈ slot.scripts := Slot.staged_mem staged
      refine slotted.put (by simp [Slot.scripts]) (le_refl _) ?_ ?_ (slotted.resting id slot there)
      · intro a member
        have same : a = b := by simpa [Slot.scripts] using member
        exact mine there (same ▸ member_b)
      · intro a candidate
        refine ⟨candidate, ?_⟩
        intro member
        have same : a = b := by simpa [Slot.scripts] using member
        exact (slotted.candidate a candidate).2.2 id
          (mem_scriptsAt.mpr ⟨slot, there, same ▸ member_b⟩)
  | _ => exact slotted

theorem Reach.slotted {s : State} (reach : Reach s) :
    Slotted s.slots s.preparing s.managing s.fresh := by
  induction reach with
  | boot first =>
      obtain ⟨now, publicTrigger, silentTrigger, rfl⟩ := first
      have nowhere : ∀ id, scriptsAt (∅ : Slots) id = [] := by
        intro id
        simp [scriptsAt]
      refine ⟨?_, ?_, ?_, fun _ none_ => (nomatch none_), ?_⟩
      · intro id other a at_id
        exact absurd (nowhere id ▸ at_id) List.not_mem_nil
      · intro id
        exact (nowhere id).symm ▸ List.nodup_nil
      · intro id a at_id
        exact absurd (nowhere id ▸ at_id) List.not_mem_nil
      · intro id slot there
        exact absurd there (by simp [State.boot])
  | act _ change ih => exact change.slotted ih

/-! ## Loaded scripts -/

/-- A script that is loaded, or about to be, has an owner number. -/
theorem Act.real {s s' : State} {k : Kind} (act : Act k s s') (reach : Reach s)
    (real : ∀ a, s.vm a = true ∨ s.preparing = some a → s.owner a ≠ 0) :
    ∀ a, s'.vm a = true ∨ s'.preparing = some a → s'.owner a ≠ 0 := by
  have born : ∀ (number : Nat) (a : Addr), Function.update s.vm s.fresh false a = true →
      Function.update s.owner s.fresh number a ≠ 0 := by
    intro number a loaded
    rw [Function.update_apply] at loaded ⊢
    split at loaded
    · cases loaded
    · rw [if_neg ‹_›]
      exact real a (Or.inl loaded)
  cases act with
  | prepare =>
      intro a either
      rcases either with loaded | candidate
      · exact born s.nextOwner a loaded
      · cases candidate
        have below := reach.numbered.below s.fresh
        show Function.update s.owner s.fresh s.nextOwner s.fresh ≠ 0
        rw [Function.update_self]
        omega
  | placeRecord =>
      intro a either
      rcases either with loaded | candidate
      · exact born 0 a loaded
      · have other : a ≠ s.fresh := Nat.ne_of_lt (reach.slotted.candidate a candidate).2.1
        show Function.update s.owner s.fresh 0 a ≠ 0
        rw [Function.update_of_ne other]
        exact real a (Or.inr candidate)
  | loadVm a candidate =>
      intro b either
      rcases either with loaded | candidate'
      · by_cases same : b = a
        · exact real b (Or.inr (same ▸ candidate))
        · have loaded : Function.update s.vm a true b = true := loaded
          rw [Function.update_of_ne same] at loaded
          exact real b (Or.inl loaded)
      · exact real b (Or.inr candidate')
  | resetVm a =>
      intro b either
      rcases either with loaded | candidate
      · have loaded : Function.update s.vm a false b = true := loaded
        rw [Function.update_apply] at loaded
        split at loaded
        · cases loaded
        · exact real b (Or.inl loaded)
      · exact real b (Or.inr candidate)
  | dropCandidate => exact fun a either => real a (either.imp_right fun none_ => nomatch none_)
  | place => exact fun a either => real a (either.imp_right fun none_ => nomatch none_)
  | stage => exact fun a either => real a (either.imp_right fun none_ => nomatch none_)
  | _ => exact real

theorem Reach.real {s : State} (reach : Reach s) :
    ∀ a, s.vm a = true ∨ s.preparing = some a → s.owner a ≠ 0 := by
  induction reach with
  | boot first =>
      obtain ⟨now, publicTrigger, silentTrigger, rfl⟩ := first
      intro a either
      simp [State.boot] at either
  | act before change ih => exact change.real before ih

end Source2Root.Foundation
