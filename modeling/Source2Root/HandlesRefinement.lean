import Mathlib
import Source2Root.Handles
import Source2Root.Reentrant

/-!
# The handle table stands for a finite map with fresh names

The abstract table is a map from ids to (owner, type, value) and the ids handed
out so far.  Both tables run side by side: `perform` takes the answer of the
packed table and changes the map by the map's own rules.  Whoever destroys a
value may call the table again, to any depth.  `handles_refine`: whenever foreign
code has control, every operation of the packed table answers what the map says,
and the ids of `add` are new.
-/

set_option autoImplicit false

namespace Source2Root.Handles

open Reentrant

variable {V : Type}

/-! ## The packing -/

theorem maxGeneration_eq : MaxGeneration = 524287 := by decide

theorem pack_toNat {generation slot : Nat} (bounded : generation ≤ MaxGeneration)
    (named : slot < 4096) : (pack generation slot).toNat = generation * 4096 + slot := by
  have small : generation ≤ 524287 := maxGeneration_eq ▸ bounded
  have shifted : generation <<< 12 = generation * 4096 := Nat.shiftLeft_eq generation 12
  have fits : generation * 4096 % 2 ^ 32 = generation * 4096 := Nat.mod_eq_of_lt (by omega)
  have joined : generation * 4096 ||| slot = generation * 4096 + slot := by
    rw [← shifted]
    exact (Nat.shiftLeft_add_eq_or_of_lt named generation).symm
  rw [pack, shifted, fits, joined, BitVec.toNat_ofNat]
  exact Nat.mod_eq_of_lt (by omega)

theorem low_bits (raw : Nat) : raw &&& 4095 = raw % 4096 :=
  Nat.and_two_pow_sub_one_eq_mod raw 12

theorem high_bits (raw : Nat) : raw >>> 12 = raw / 4096 :=
  Nat.shiftRight_eq_div_pow raw 12

theorem toInt_nonpos (id : HandleId) : id.toInt ≤ 0 ↔ id.toNat = 0 ∨ 2 ^ 31 ≤ id.toNat := by
  rw [BitVec.toInt_eq_toNat_cond]
  have short := id.isLt
  split <;> omega

theorem pack_pos {generation slot : Nat} (started : 1 ≤ generation)
    (bounded : generation ≤ MaxGeneration) (named : slot < 4096) :
    0 < (pack generation slot).toInt := by
  have small : generation ≤ 524287 := maxGeneration_eq ▸ bounded
  have value := pack_toNat bounded named
  by_contra negative
  rcases (toInt_nonpos _).mp (not_lt.mp negative) with zero | large
  · omega
  · omega

theorem pack_inj {g g' i i' : Nat} (bounded : g ≤ MaxGeneration) (bounded' : g' ≤ MaxGeneration)
    (named : i + 1 < 4096) (named' : i' + 1 < 4096) (same : pack g (i + 1) = pack g' (i' + 1)) :
    g = g' ∧ i = i' := by
  have left := pack_toNat bounded named
  have right := pack_toNat bounded' named'
  rw [same, right] at left
  omega

/-! ## What the table says about an id -/

/-- The id names the entry at this index. -/
structure Names (t : Handles V) (id : HandleId) (i : Nat) (e : Entry V) : Prop where
  at_ : t.entries[i]? = some e
  packed : id = pack e.generation (i + 1)

theorem index_lt (t : Handles V) {i : Nat} {e : Entry V} (at_ : t.entries[i]? = some e) :
    i + 1 < 4096 := by
  obtain ⟨inside, -⟩ := List.getElem?_eq_some_iff.mp at_
  have short := t.short
  unfold MaxSlots at short
  omega

theorem sound_at (t : Handles V) {i : Nat} {e : Entry V} (at_ : t.entries[i]? = some e) :
    e.Sound := t.sound e (List.mem_of_getElem? at_)

theorem Names.unique {t : Handles V} {id : HandleId} {i i' : Nat} {e e' : Entry V}
    (names : t.Names id i e) (names' : t.Names id i' e') : i = i' ∧ e = e' := by
  have same := names.packed.symm.trans names'.packed
  obtain ⟨-, index⟩ := pack_inj (t.sound_at names.at_).bounded (t.sound_at names'.at_).bounded
    (t.index_lt names.at_) (t.index_lt names'.at_) same
  refine ⟨index, ?_⟩
  have at_ := names.at_
  rw [index, names'.at_] at at_
  exact (Option.some.inj at_).symm

/-- The entry an id names is found by its bits. -/
theorem names_iff (t : Handles V) (id : HandleId) (i : Nat) (e : Entry V) :
    t.Names id i e ↔ 0 < id.toInt ∧ id.toNat % 4096 = i + 1 ∧ t.entries[i]? = some e ∧
      e.generation = id.toNat / 4096 := by
  constructor
  · rintro ⟨at_, rfl⟩
    have sound := t.sound_at at_
    have named := t.index_lt at_
    rw [pack_toNat sound.bounded named]
    exact ⟨pack_pos sound.started sound.bounded named, by omega, at_, by omega⟩
  · rintro ⟨-, low, at_, high⟩
    refine ⟨at_, BitVec.eq_of_toNat_eq ?_⟩
    rw [pack_toNat (t.sound_at at_).bounded (t.index_lt at_)]
    omega

theorem check_eq_ok {t : Handles V} {id : HandleId} {owner type i : Nat} {e : Entry V} :
    t.check id owner type = .ok (i, e) ↔
      t.Names id i e ∧ owner ≠ 0 ∧ e.owner = owner ∧ e.type = type := by
  rw [names_iff]
  simp only [check, low_bits, high_bits]
  constructor
  · intro checked
    split at checked
    · cases checked
    · rename_i valid
      obtain ⟨positive, slot⟩ := not_or.mp valid
      split at checked
      · cases checked
      · rename_i entry found
        split at checked
        · cases checked
        · rename_i good
          simp only [not_or, not_not] at good
          obtain ⟨real, mine, kind, generation⟩ := good
          injection checked with pair
          injection pair with index entry_eq
          subst index entry_eq
          exact ⟨⟨not_le.mp positive, by omega, found, generation⟩, real, mine, kind⟩
  · rintro ⟨⟨positive, slot, found, generation⟩, real, mine, kind⟩
    have index : id.toNat % 4096 - 1 = i := by omega
    rw [if_neg (by omega), index, found]
    exact if_neg (by simp [real, mine, kind, generation])

/-! ## The abstract table -/

structure Binding (V : Type) where
  owner : Nat
  type : Nat
  value : V
deriving DecidableEq, Repr

def Entry.binding (e : Entry V) : Binding V :=
  { owner := e.owner, type := e.type, value := e.value }

/-- The packed table, the map it stands for and the ids `Add` has returned. -/
structure World (V : Type) where
  table : Handles V := {}
  map : HandleId → Option (Binding V) := fun _ => none
  issued : List HandleId := []

inductive Call (V : Type) where
  | add (owner type : Nat) (value : V)
  | get (id : HandleId) (owner type : Nat)
  | contains (id : HandleId) (owner type : Nat)
  | remove (id : HandleId) (owner type : Nat)
  | owned (owner type : Nat)
  | retire (owner type : Nat)

def Binding.matches (owner type : Nat) (b : Binding V) : Bool :=
  b.owner == owner && (type == 0 || type == b.type)

def World.added (s : World V) (id : HandleId) (b : Binding V) (table : Handles V) : World V :=
  { table, map := Function.update s.map id (some b), issued := id :: s.issued }

def World.removed (s : World V) (id : HandleId) (table : Handles V) : World V :=
  { s with table, map := Function.update s.map id none }

def World.retired (s : World V) (owner type : Nat) (table : Handles V) : World V :=
  { s with table, map := fun id => (s.map id).filter fun b => !b.matches owner type }

/-- The destructors of so many values, one after the other. -/
def destroy : Nat → Code (World V) Unit Refusal Unit
  | 0 => pure ()
  | n + 1 => do
      let _ ← Code.enter
      destroy n

def perform [Inhabited V] : Call V → Code (World V) Unit Refusal Unit
  | .add owner type value => do
      let s ← Code.get
      match s.table.add owner type value with
      | .ok (id, table) => Code.modify fun s => s.added id { owner, type, value } table
      | .error refusal => do
          -- The value that found no place dies with the call.
          destroy 1
          throw refusal
  | .get id owner type => do
      let s ← Code.get
      match s.table.get id owner type with
      | .ok _ => pure ()
      | .error refusal => throw refusal
  | .contains .. => pure ()
  | .remove id owner type => do
      let s ← Code.get
      match s.table.remove id owner type with
      | .ok (_, table) => do
          Code.modify fun s => s.removed id table
          destroy 1
      | .error refusal => throw refusal
  | .owned .. => pure ()
  | .retire owner type => do
      let s ← Code.get
      let (values, table) := s.table.retire owner type
      Code.modify fun s => s.retired owner type table
      destroy values.length

/-- The slot's number in an id. -/
def slotOf (id : HandleId) : Nat := id.toNat &&& 4095

/-- Every operation of the packed table answers what the map says. -/
structure Refines [Inhabited V] (s : World V) : Prop where
  add_fresh : ∀ owner type value id table, s.table.add owner type value = .ok (id, table) →
    0 < id.toInt ∧ id ∉ s.issued ∧ s.map id = none
  add_invalid : ∀ owner type value,
    s.table.add owner type value = .error .invalidOwner ↔ owner = 0 ∨ type = 0
  add_exhausted : ∀ owner type value, owner ≠ 0 → type ≠ 0 →
    (∃ refusal, s.table.add owner type value = .error refusal) →
    ∀ slot, 1 ≤ slot → slot ≤ 4095 → (∃ id b, s.map id = some b ∧ slotOf id = slot) ∨
      ∀ generation, 1 ≤ generation → generation ≤ MaxGeneration → pack generation slot ∈ s.issued
  get_iff : ∀ id owner type value, s.table.get id owner type = .ok value ↔
    s.map id = some { owner, type, value }
  contains_iff : ∀ id owner type, s.table.contains id owner type = true ↔
    ∃ value, s.map id = some { owner, type, value }
  remove_iff : ∀ id owner type value, (∃ table, s.table.remove id owner type = .ok (value, table)) ↔
    s.map id = some { owner, type, value }
  owned_nodup : ∀ owner type, (s.table.owned owner type).Nodup
  owned_iff : ∀ owner type id, id ∈ s.table.owned owner type ↔
    ∃ b, s.map id = some b ∧ b.matches owner type
  retire_values : ∀ owner type, owner ≠ 0 →
    (s.table.retire owner type).1.map some =
      (s.table.owned owner type).map fun id => (s.map id).map Binding.value
  live_issued : ∀ id b, s.map id = some b → id ∈ s.issued ∧ b.owner ≠ 0 ∧ b.type ≠ 0
  issued_once : s.issued.Nodup
  issued_range : ∀ id ∈ s.issued, 0 < id.toInt ∧ 1 ≤ slotOf id ∧ slotOf id ≤ 4095
  slot_single : ∀ id id' b b', s.map id = some b → s.map id' = some b' → slotOf id = slotOf id' →
    id = id'

/-! ## The invariant -/

structure Inv (s : World V) : Prop where
  live : ∀ id b, s.map id = some b ↔ ∃ i e, s.table.Names id i e ∧ e.owner ≠ 0 ∧ b = Entry.binding e
  known : ∀ id, id ∈ s.issued ↔ ∃ i e g, s.table.entries[i]? = some e ∧ 1 ≤ g ∧
    g ≤ e.generation ∧ id = pack g (i + 1)
  once : s.issued.Nodup

/-- One entry is taken: a new one, or a free one in its next generation. -/
structure Placed (t t' : Handles V) (id : HandleId) (b : Binding V) (i : Nat) (e : Entry V) :
    Prop where
  names : t'.Names id i e
  holds : Entry.binding e = b
  others : ∀ j, j ≠ i → t'.entries[j]? = t.entries[j]?
  before : t.entries[i]? = none ∧ e.generation = 1 ∨
    ∃ was, t.entries[i]? = some was ∧ was.owner = 0 ∧ e.generation = was.generation + 1

theorem add_placed {t t' : Handles V} {owner type : Nat} {value : V} {id : HandleId}
    (added : t.add owner type value = .ok (id, t')) :
    owner ≠ 0 ∧ type ≠ 0 ∧ ∃ i e, Placed t t' id { owner, type, value } i e := by
  unfold add at added
  split at added
  · cases added
  · rename_i valid
    obtain ⟨real, typed⟩ := not_or.mp valid
    refine ⟨real, typed, ?_⟩
    split at added
    · rename_i i found
      obtain ⟨inside, reusable, -⟩ := List.findIdx?_eq_some_iff_getElem.mp found
      have at_ : t.entries[i]? = some t.entries[i] := List.getElem?_eq_getElem inside
      injection added with pair
      injection pair with id_eq table_eq
      subst table_eq
      refine ⟨i, Entry.reuse owner type value t.entries[i], ⟨⟨?_, ?_⟩, rfl, ?_, Or.inr ?_⟩⟩
      · simp [at_]
      · rw [← id_eq, at_]
        rfl
      · intro j other
        simp [Ne.symm other]
      · refine ⟨t.entries[i], at_, ?_, rfl⟩
        simpa [Entry.reusable] using (Bool.and_eq_true_iff.mp reusable).1
    · split at added
      · cases added
      · injection added with pair
        injection pair with id_eq table_eq
        subst table_eq
        refine ⟨t.entries.length, { generation := 1, type, owner, value },
          ⟨⟨?_, id_eq.symm⟩, rfl, ?_, Or.inl ⟨?_, rfl⟩⟩⟩
        · simp
        · intro j other
          rcases Nat.lt_or_gt_of_ne other with below | above
          · exact List.getElem?_append_left below
          · have outside : t.entries[j]? = none := List.getElem?_eq_none (Nat.le_of_lt above)
            rw [outside]
            apply List.getElem?_eq_none
            simp only [List.length_append, List.length_singleton]
            omega
        · exact List.getElem?_eq_none (le_refl _)

/-- Some entries are set free; nothing else moves. -/
def Freed [Inhabited V] (t t' : Handles V) (gone : Nat → Entry V → Bool) : Prop :=
  ∀ j, t'.entries[j]? = t.entries[j]?.map fun e => if gone j e then Entry.detach e else e

theorem detachAt_freed [Inhabited V] (t : Handles V) (i : Nat) :
    Freed t (t.detachAt i) fun j _ => i == j := by
  intro j
  simp only [detachAt, List.getElem?_modify]
  by_cases here : i = j
  · simp [here]
  · simp [here]

theorem retire_freed [Inhabited V] (t : Handles V) (owner type : Nat) :
    Freed t (t.retire owner type).2 fun _ => Entry.ownedBy owner type := by
  intro j
  simp [retire]

section Freed

variable [Inhabited V] {t t' : Handles V} {gone : Nat → Entry V → Bool}

theorem Freed.live_iff (freed : Freed t t' gone) {id : HandleId} {b : Binding V} :
    (∃ i e, t'.Names id i e ∧ e.owner ≠ 0 ∧ b = Entry.binding e) ↔
      ∃ i e, t.Names id i e ∧ e.owner ≠ 0 ∧ b = Entry.binding e ∧ gone i e = false := by
  constructor
  · rintro ⟨i, e, names, taken, holds⟩
    have at_ := names.at_
    rw [freed i] at at_
    obtain ⟨was, there, same⟩ := Option.map_eq_some_iff.mp at_
    by_cases free : gone i was = true
    · rw [if_pos free] at same
      subst same
      exact absurd rfl taken
    · rw [if_neg free] at same
      subst same
      exact ⟨i, was, ⟨there, names.packed⟩, taken, holds, by simpa using free⟩
  · rintro ⟨i, e, names, taken, holds, kept⟩
    refine ⟨i, e, ⟨?_, names.packed⟩, taken, holds⟩
    rw [freed i, names.at_]
    simp [kept]

theorem Freed.known_iff (freed : Freed t t' gone) {id : HandleId} :
    (∃ i e g, t'.entries[i]? = some e ∧ 1 ≤ g ∧ g ≤ e.generation ∧ id = pack g (i + 1)) ↔
      ∃ i e g, t.entries[i]? = some e ∧ 1 ≤ g ∧ g ≤ e.generation ∧ id = pack g (i + 1) := by
  constructor
  · rintro ⟨i, e, g, at_, started, reached, packed⟩
    rw [freed i] at at_
    obtain ⟨was, there, same⟩ := Option.map_eq_some_iff.mp at_
    refine ⟨i, was, g, there, started, ?_, packed⟩
    have generation : e.generation = was.generation := by
      rw [← same]
      split <;> rfl
    omega
  · rintro ⟨i, e, g, at_, started, reached, packed⟩
    refine ⟨i, if gone i e then Entry.detach e else e, g, ?_, started, ?_, packed⟩
    · rw [freed i, at_]
      rfl
    · split
      · exact reached
      · exact reached

end Freed

theorem Inv.start : Inv ({} : World V) where
  live id b := by
    constructor
    · exact fun nothing => nomatch nothing
    · rintro ⟨i, e, names, -⟩
      exact absurd names.at_ (by simp)
  known id := by simp
  once := List.nodup_nil

/-- An id that `Add` returns was not handed out before. -/
theorem Inv.fresh {s : World V} (inv : Inv s) {t' : Handles V} {id : HandleId} {b : Binding V}
    {i : Nat} {e : Entry V} (placed : Placed s.table t' id b i e) : id ∉ s.issued := by
  intro member
  obtain ⟨j, old, g, at_, started, reached, packed⟩ := (inv.known id).mp member
  have old_sound := s.table.sound_at at_
  have new_sound := t'.sound_at placed.names.at_
  have same := placed.names.packed.symm.trans packed
  obtain ⟨generation, index⟩ := pack_inj new_sound.bounded (reached.trans old_sound.bounded)
    (t'.index_lt placed.names.at_) (s.table.index_lt at_) same
  subst index
  rcases placed.before with ⟨absent, -⟩ | ⟨was, there, -, next⟩
  · rw [absent] at at_
    cases at_
  · rw [there] at at_
    cases at_
    omega

theorem Inv.added {s : World V} (inv : Inv s) {t' : Handles V} {id : HandleId} {b : Binding V}
    {i : Nat} {e : Entry V} (placed : Placed s.table t' id b i e) (real : b.owner ≠ 0) :
    Inv (s.added id b t') where
  live k c := by
    have held : e.owner = b.owner := by rw [← placed.holds]; rfl
    by_cases here : k = id
    · subst here
      simp only [World.added, Function.update_self, Option.some.injEq]
      constructor
      · rintro rfl
        exact ⟨i, e, placed.names, held ▸ real, placed.holds.symm⟩
      · rintro ⟨j, other, names, -, rfl⟩
        obtain ⟨-, rfl⟩ := names.unique placed.names
        exact placed.holds.symm
    · simp only [World.added, Function.update_of_ne here]
      rw [inv.live k c]
      constructor
      · rintro ⟨j, old, names, taken, rfl⟩
        refine ⟨j, old, ⟨?_, names.packed⟩, taken, rfl⟩
        rw [placed.others j]
        · exact names.at_
        · rintro rfl
          rcases placed.before with ⟨absent, -⟩ | ⟨was, there, free, -⟩
          · have at_ := names.at_
            rw [absent] at at_
            cases at_
          · rw [names.at_] at there
            cases there
            exact taken free
      · rintro ⟨j, old, names, taken, rfl⟩
        by_cases at_ : j = i
        · subst at_
          have same := names.at_
          rw [placed.names.at_] at same
          cases same
          exact absurd (names.packed.trans placed.names.packed.symm) here
        · refine ⟨j, old, ⟨?_, names.packed⟩, taken, rfl⟩
          rw [← placed.others j at_]
          exact names.at_
  known k := by
    simp only [World.added, List.mem_cons]
    rw [inv.known k]
    constructor
    · rintro (rfl | ⟨j, old, g, at_, started, reached, packed⟩)
      · have sound := t'.sound_at placed.names.at_
        exact ⟨i, e, e.generation, placed.names.at_, sound.started, le_refl _, placed.names.packed⟩
      · by_cases here : j = i
        · subst here
          refine ⟨j, e, g, placed.names.at_, started, ?_, packed⟩
          rcases placed.before with ⟨absent, -⟩ | ⟨was, there, -, next⟩
          · rw [absent] at at_
            cases at_
          · rw [there] at at_
            cases at_
            omega
        · exact ⟨j, old, g, (placed.others j here).trans at_, started, reached, packed⟩
    · rintro ⟨j, old, g, at_, started, reached, packed⟩
      by_cases here : j = i
      · subst here
        rw [placed.names.at_] at at_
        cases at_
        rcases Nat.eq_or_lt_of_le reached with rfl | below
        · exact Or.inl (packed.trans placed.names.packed.symm)
        · right
          rcases placed.before with ⟨-, first⟩ | ⟨was, there, -, next⟩
          · omega
          · exact ⟨j, was, g, there, started, by omega, packed⟩
      · right
        exact ⟨j, old, g, (placed.others j here).symm.trans at_, started, reached, packed⟩
  once := List.nodup_cons.mpr ⟨inv.fresh placed, inv.once⟩

/-- Entries are set free and the map forgets what they held. -/
theorem Inv.freed [Inhabited V] {s : World V} (inv : Inv s) {t' : Handles V}
    {gone : Nat → Entry V → Bool} {map : HandleId → Option (Binding V)}
    (freed : Freed s.table t' gone)
    (forgets : ∀ id b, map id = some b ↔ s.map id = some b ∧
      ∀ i e, s.table.Names id i e → gone i e = false) :
    Inv { s with table := t', map } where
  live id b := by
    rw [forgets, freed.live_iff, inv.live]
    constructor
    · rintro ⟨⟨i, e, names, taken, holds⟩, kept⟩
      exact ⟨i, e, names, taken, holds, kept i e names⟩
    · rintro ⟨i, e, names, taken, holds, kept⟩
      refine ⟨⟨i, e, names, taken, holds⟩, ?_⟩
      intro j e' names'
      obtain ⟨rfl, rfl⟩ := names.unique names'
      exact kept
  known id := (inv.known id).trans freed.known_iff.symm
  once := inv.once

/-! ## Every operation keeps the invariant -/

theorem check_at {t : Handles V} {id : HandleId} {owner type i : Nat} {e : Entry V}
    (checked : t.check id owner type = .ok (i, e)) : t.Names id i e := (check_eq_ok.mp checked).1

theorem remove_eq_ok [Inhabited V] {t t' : Handles V} {id : HandleId} {owner type : Nat}
    {value : V} (removed : t.remove id owner type = .ok (value, t')) :
    ∃ i e, t.check id owner type = .ok (i, e) ∧ e.value = value ∧ t' = t.detachAt i := by
  unfold remove at removed
  cases checked : t.check id owner type with
  | error refusal => simp [checked, bind, Except.bind] at removed
  | ok found =>
      obtain ⟨i, e⟩ := found
      simp only [checked, bind, Except.bind, pure, Except.pure, Except.ok.injEq,
        Prod.mk.injEq] at removed
      exact ⟨i, e, rfl, removed.1, removed.2.symm⟩

theorem Inv.removed [Inhabited V] {s : World V} (inv : Inv s) {id : HandleId} {i : Nat}
    {e : Entry V} (names : s.table.Names id i e) : Inv (s.removed id (s.table.detachAt i)) := by
  apply inv.freed (detachAt_freed s.table i)
  intro k b
  by_cases here : k = id
  · subst here
    simp only [Function.update_self]
    constructor
    · exact fun nothing => nomatch nothing
    · rintro ⟨-, kept⟩
      have other := kept i e names
      simp at other
  · rw [Function.update_of_ne here]
    constructor
    · intro mapped
      refine ⟨mapped, ?_⟩
      intro j old names'
      simp only [beq_eq_false_iff_ne, ne_eq]
      rintro rfl
      have same := names.at_
      rw [names'.at_] at same
      cases same
      exact here (names'.packed.trans names.packed.symm)
    · exact fun mapped => mapped.1

theorem ownedBy_eq_matches (owner type : Nat) (e : Entry V) :
    Entry.ownedBy owner type e = (Entry.binding e).matches owner type := rfl

theorem Inv.retired [Inhabited V] {s : World V} (inv : Inv s) (owner type : Nat) :
    Inv (s.retired owner type (s.table.retire owner type).2) := by
  apply inv.freed (retire_freed s.table owner type)
  intro k b
  rw [Option.filter_eq_some_iff]
  refine and_congr_right fun mapped => ?_
  obtain ⟨i, e, names, -, rfl⟩ := (inv.live k b).mp mapped
  constructor
  · intro kept j e' names'
    obtain ⟨rfl, rfl⟩ := names'.unique names
    simpa [ownedBy_eq_matches] using kept
  · intro kept
    have stays := kept i e names
    simpa [ownedBy_eq_matches] using stays

theorem destroy_keeps (n : Nat) (s : World V) (inv : Inv s) :
    (destroy n s).Wp Inv (fun _ _ => True) (Returns fun _ => Inv) := by
  induction n generalizing s with
  | zero => exact inv
  | succ n ih =>
      simp only [destroy, wp_bind, wp_enter]
      exact ⟨inv, fun _ s' inv' _ => ih s' inv'⟩

theorem perform_keeps [Inhabited V] (call : Call V) (s : World V) (inv : Inv s) :
    (perform call s).Wp Inv (fun _ _ => True) (Ended Inv (fun _ _ => True) s) := by
  have ended : ∀ {outcome : Except Refusal Unit} {s' : World V}, Inv s' →
      Ended Inv (fun _ _ => True) s outcome s' := fun kept => ⟨kept, trivial⟩
  have destroyed : ∀ (n : Nat) (s' : World V), Inv s' →
      (destroy n s').Wp Inv (fun _ _ => True) (Ended Inv (fun _ _ => True) s) := by
    intro n s' kept
    refine (destroy_keeps n s' kept).mono fun outcome s'' fine => ended ?_
    cases outcome with
    | ok _ => exact fine
    | error _ => exact fine.elim
  cases call with
  | add owner type value =>
      simp only [perform, wp_bind, wp_get]
      cases added : s.table.add owner type value with
      | ok pair =>
          obtain ⟨id, table⟩ := pair
          obtain ⟨real, -, i, e, placed⟩ := add_placed added
          exact ended (inv.added placed real)
      | error refusal =>
          simp only [wp_bind]
          refine (destroyed 1 s inv).mono fun outcome s' fine => ?_
          cases outcome with
          | ok _ => exact ended fine.1
          | error _ => exact ended fine.1
  | get id owner type =>
      simp only [perform, wp_bind, wp_get]
      cases s.table.get id owner type with
      | ok value => exact ended inv
      | error refusal => exact ended inv
  | contains id owner type => exact ended inv
  | remove id owner type =>
      simp only [perform, wp_bind, wp_get]
      cases removed : s.table.remove id owner type with
      | ok pair =>
          obtain ⟨value, table⟩ := pair
          obtain ⟨i, e, checked, -, rfl⟩ := remove_eq_ok removed
          exact destroyed 1 _ (inv.removed (check_at checked))
      | error refusal => exact ended inv
  | owned owner type => exact ended inv
  | retire owner type =>
      simp only [perform, wp_bind, wp_get]
      exact destroyed _ _ (inv.retired owner type)

/-! ## What the invariant says about the answers -/

theorem slotOf_pack {g slot : Nat} (bounded : g ≤ MaxGeneration) (named : slot < 4096) :
    slotOf (pack g slot) = slot := by
  rw [slotOf, low_bits, pack_toNat bounded named]
  omega

/-- A check finds the entry of a live id with this owner and type. -/
theorem Inv.check_iff {s : World V} (inv : Inv s) {id : HandleId} {owner type : Nat} {value : V} :
    (∃ i e, s.table.check id owner type = .ok (i, e) ∧ e.value = value) ↔
      s.map id = some { owner, type, value } := by
  rw [inv.live]
  constructor
  · rintro ⟨i, e, checked, rfl⟩
    obtain ⟨names, real, rfl, rfl⟩ := check_eq_ok.mp checked
    exact ⟨i, e, names, real, rfl⟩
  · rintro ⟨i, e, names, taken, holds⟩
    have owner_eq : owner = e.owner := congrArg Binding.owner holds
    have type_eq : type = e.type := congrArg Binding.type holds
    have value_eq : value = e.value := congrArg Binding.value holds
    refine ⟨i, e, check_eq_ok.mpr ⟨names, ?_, owner_eq.symm, type_eq.symm⟩, value_eq.symm⟩
    exact owner_eq ▸ taken

theorem get_eq_ok {t : Handles V} {id : HandleId} {owner type : Nat} {value : V} :
    t.get id owner type = .ok value ↔ ∃ i e, t.check id owner type = .ok (i, e) ∧ e.value = value := by
  unfold get
  cases t.check id owner type with
  | error refusal => simp [bind, Except.bind]
  | ok found => simp [bind, Except.bind, pure, Except.pure, Prod.ext_iff]

theorem contains_eq_true {t : Handles V} {id : HandleId} {owner type : Nat} :
    t.contains id owner type = true ↔ ∃ value i e, t.check id owner type = .ok (i, e) ∧
      e.value = value := by
  unfold contains
  cases t.check id owner type with
  | error refusal => simp
  | ok found => simp [Prod.ext_iff]

theorem remove_succeeds [Inhabited V] {t : Handles V} {id : HandleId} {owner type : Nat}
    {value : V} : (∃ t', t.remove id owner type = .ok (value, t')) ↔
      ∃ i e, t.check id owner type = .ok (i, e) ∧ e.value = value := by
  unfold remove
  cases t.check id owner type with
  | error refusal => simp [bind, Except.bind]
  | ok found => simp [bind, Except.bind, pure, Except.pure, Prod.ext_iff]

theorem mem_owned {t : Handles V} {owner type : Nat} {id : HandleId} :
    id ∈ t.owned owner type ↔
      owner ≠ 0 ∧ ∃ i e, t.Names id i e ∧ Entry.ownedBy owner type e = true := by
  unfold owned
  split
  · rename_i zero
    simp [zero]
  · rename_i real
    simp only [List.mem_filterMap, Prod.exists, List.mem_zipIdx_iff_getElem?]
    constructor
    · rintro ⟨e, i, at_, chosen⟩
      split at chosen
      · rename_i mine
        exact ⟨real, i, e, ⟨at_, (Option.some.inj chosen).symm⟩, mine⟩
      · cases chosen
    · rintro ⟨-, i, e, names, mine⟩
      exact ⟨e, i, names.at_, by rw [if_pos mine, names.packed]⟩

/-- What `Owned` lists and what `Retire` destroys come from the same entries, in
the same order. -/
theorem owned_eq_map (t : Handles V) {owner : Nat} (type : Nat) (real : owner ≠ 0) :
    t.owned owner type = (t.entries.zipIdx.filter fun p => Entry.ownedBy owner type p.1).map
      fun p => pack p.1.generation (p.2 + 1) := by
  rw [owned, if_neg real]
  induction t.entries.zipIdx with
  | nil => rfl
  | cons p rest ih =>
      by_cases mine : Entry.ownedBy owner type p.1 = true
      · simp [mine, ih]
      · simp [mine, ih]

theorem owned_nodup (t : Handles V) (owner type : Nat) : (t.owned owner type).Nodup := by
  by_cases zero : owner = 0
  · simp [owned, zero]
  · rw [owned_eq_map t type zero]
    refine List.Nodup.map_on ?_ (List.Nodup.filter _ ?_)
    · rintro ⟨e, i⟩ member ⟨e', i'⟩ member' same
      have at_ := List.mem_zipIdx_iff_getElem?.mp (List.mem_filter.mp member).1
      have at_' := List.mem_zipIdx_iff_getElem?.mp (List.mem_filter.mp member').1
      obtain ⟨rfl, rfl⟩ := Names.unique (t := t) ⟨at_, rfl⟩ ⟨at_', same⟩
      rfl
    · apply List.Nodup.of_map Prod.snd
      rw [List.zipIdx_map_snd]
      exact List.nodup_range'

theorem retire_eq_map [Inhabited V] (t : Handles V) (owner type : Nat) :
    (t.retire owner type).1 = (t.entries.zipIdx.filter fun p => Entry.ownedBy owner type p.1).map
      fun p => p.1.value := by
  have firsts : t.entries = t.entries.zipIdx.map Prod.fst := (List.zipIdx_map_fst 0 t.entries).symm
  conv_lhs => rw [retire]; simp only; rw [firsts]
  rw [List.filter_map, List.map_map]
  rfl

theorem Inv.retire_values [Inhabited V] {s : World V} (inv : Inv s) {owner : Nat} (type : Nat)
    (real : owner ≠ 0) : (s.table.retire owner type).1.map some =
      (s.table.owned owner type).map fun id => (s.map id).map Binding.value := by
  rw [retire_eq_map, owned_eq_map s.table type real, List.map_map, List.map_map]
  apply List.map_congr_left
  rintro ⟨e, i⟩ member
  obtain ⟨listed, mine⟩ := List.mem_filter.mp member
  have at_ := List.mem_zipIdx_iff_getElem?.mp listed
  have held : e.owner = owner := by
    simp only [Entry.ownedBy, Bool.and_eq_true, beq_iff_eq] at mine
    exact mine.1
  have mapped : s.map (pack e.generation (i + 1)) = some (Entry.binding e) :=
    (inv.live _ _).mpr ⟨i, e, ⟨at_, rfl⟩, held ▸ real, rfl⟩
  simp [mapped, Entry.binding]

/-- `Add` finds no place: every slot is taken or has no generation left. -/
theorem add_refused {t : Handles V} {owner type : Nat} {value : V} {refusal : Refusal}
    (real : owner ≠ 0) (typed : type ≠ 0) (refused : t.add owner type value = .error refusal) :
    t.entries.length = MaxSlots ∧
      ∀ (i : Nat) (e : Entry V), t.entries[i]? = some e →
        e.owner ≠ 0 ∨ e.generation = MaxGeneration := by
  unfold add at refused
  split at refused
  · rename_i invalid
    rcases invalid with zero | zero
    · exact absurd zero real
    · exact absurd zero typed
  · split at refused
    · cases refused
    · rename_i none_free
      split at refused
      · rename_i full
        refine ⟨le_antisymm t.short full, ?_⟩
        intro i e at_
        have stuck := List.findIdx?_eq_none_iff.mp none_free e (List.mem_of_getElem? at_)
        by_contra free
        obtain ⟨unowned, left⟩ := not_or.mp free
        have reusable : Entry.reusable e = true := by simp [Entry.reusable, not_not.mp unowned, left]
        rw [reusable] at stuck
        cases stuck
      · cases refused

theorem add_invalid_iff {t : Handles V} {owner type : Nat} {value : V} :
    t.add owner type value = .error .invalidOwner ↔ owner = 0 ∨ type = 0 := by
  unfold add
  constructor
  · intro refused
    split at refused
    · assumption
    · split at refused
      · cases refused
      · split at refused
        · cases refused
        · cases refused
  · exact fun invalid => dif_pos invalid

theorem Inv.exhausted {s : World V} (inv : Inv s) {owner type : Nat} {value : V}
    (real : owner ≠ 0) (typed : type ≠ 0)
    (refused : ∃ refusal, s.table.add owner type value = .error refusal) {slot : Nat}
    (first : 1 ≤ slot) (last : slot ≤ 4095) :
    (∃ id b, s.map id = some b ∧ slotOf id = slot) ∨
      ∀ generation, 1 ≤ generation → generation ≤ MaxGeneration →
        pack generation slot ∈ s.issued := by
  obtain ⟨refusal, refused⟩ := refused
  obtain ⟨full, stuck⟩ := add_refused real typed refused
  have inside : slot - 1 < s.table.entries.length := by
    rw [full, MaxSlots]
    omega
  have at_ := List.getElem?_eq_getElem inside
  have number : slot - 1 + 1 = slot := by omega
  rcases stuck _ _ at_ with taken | spent
  · left
    refine ⟨_, _, (inv.live _ _).mpr ⟨slot - 1, _, ⟨at_, rfl⟩, taken, rfl⟩, ?_⟩
    rw [number]
    exact slotOf_pack (s.table.sound_at at_).bounded (by omega)
  · right
    intro generation started bounded
    exact (inv.known _).mpr ⟨slot - 1, _, generation, at_, started, spent ▸ bounded, by rw [number]⟩

theorem Inv.issued_range {s : World V} (inv : Inv s) {id : HandleId} (member : id ∈ s.issued) :
    0 < id.toInt ∧ 1 ≤ slotOf id ∧ slotOf id ≤ 4095 := by
  obtain ⟨i, e, g, at_, started, reached, rfl⟩ := (inv.known id).mp member
  have bounded := reached.trans (s.table.sound_at at_).bounded
  have named := s.table.index_lt at_
  rw [slotOf_pack bounded named]
  exact ⟨pack_pos started bounded named, by omega, by omega⟩

theorem Inv.live_issued {s : World V} (inv : Inv s) {id : HandleId} {b : Binding V}
    (mapped : s.map id = some b) : id ∈ s.issued ∧ b.owner ≠ 0 ∧ b.type ≠ 0 := by
  obtain ⟨i, e, names, taken, rfl⟩ := (inv.live id b).mp mapped
  have sound := s.table.sound_at names.at_
  refine ⟨(inv.known id).mpr ⟨i, e, e.generation, names.at_, sound.started, le_refl _,
    names.packed⟩, taken, ?_⟩
  exact fun untyped => taken (sound.free.mpr untyped)

theorem Inv.slot_single {s : World V} (inv : Inv s) {id id' : HandleId} {b b' : Binding V}
    (mapped : s.map id = some b) (mapped' : s.map id' = some b') (same : slotOf id = slotOf id') :
    id = id' := by
  obtain ⟨i, e, names, -, -⟩ := (inv.live id b).mp mapped
  obtain ⟨i', e', names', -, -⟩ := (inv.live id' b').mp mapped'
  rw [names.packed, names'.packed, slotOf_pack (s.table.sound_at names.at_).bounded
    (s.table.index_lt names.at_), slotOf_pack (s.table.sound_at names'.at_).bounded
    (s.table.index_lt names'.at_)] at same
  have index : i = i' := by omega
  subst index
  have at_ := names.at_
  rw [names'.at_] at at_
  cases at_
  exact names.packed.trans names'.packed.symm

theorem Inv.refines [Inhabited V] {s : World V} (inv : Inv s) : Refines s where
  add_fresh owner type value id table added := by
    obtain ⟨-, -, i, e, placed⟩ := add_placed added
    have new := inv.fresh placed
    have sound := table.sound_at placed.names.at_
    refine ⟨?_, new, ?_⟩
    · rw [placed.names.packed]
      exact pack_pos sound.started sound.bounded (table.index_lt placed.names.at_)
    · by_contra mapped
      obtain ⟨b, mapped⟩ := Option.ne_none_iff_exists'.mp mapped
      exact new (inv.live_issued mapped).1
  add_invalid _ _ _ := add_invalid_iff
  add_exhausted _ _ _ real typed refused _ first last := inv.exhausted real typed refused first last
  get_iff _ _ _ _ := get_eq_ok.trans inv.check_iff
  contains_iff _ _ _ := contains_eq_true.trans (exists_congr fun _ => inv.check_iff)
  remove_iff _ _ _ _ := remove_succeeds.trans inv.check_iff
  owned_nodup := owned_nodup s.table
  owned_iff owner type id := by
    rw [mem_owned]
    constructor
    · rintro ⟨real, i, e, names, mine⟩
      have held : e.owner = owner := by
        simp only [Entry.ownedBy, Bool.and_eq_true, beq_iff_eq] at mine
        exact mine.1
      exact ⟨_, (inv.live _ _).mpr ⟨i, e, names, held ▸ real, rfl⟩, mine⟩
    · rintro ⟨b, mapped, mine⟩
      obtain ⟨i, e, names, taken, rfl⟩ := (inv.live id b).mp mapped
      have held : e.owner = owner := by
        rw [← ownedBy_eq_matches] at mine
        simp only [Entry.ownedBy, Bool.and_eq_true, beq_iff_eq] at mine
        exact mine.1
      exact ⟨held ▸ taken, i, e, names, mine⟩
  retire_values _ type real := inv.retire_values type real
  live_issued _ _ := inv.live_issued
  issued_once := inv.once
  issued_range _ := inv.issued_range
  slot_single _ _ _ _ := inv.slot_single

/-- Whenever foreign code has control, after any calls from any depth, the packed
table is the map with fresh names. -/
theorem handles_refine [Inhabited V] {s : World V} {stack}
    (reached : Reaches perform (fun _ _ => True) ({} : World V) s stack) : Refines s := by
  have kept := control_inv (G := fun _ _ => True) (fun _ => trivial) (fun _ _ _ _ _ => trivial)
    (fun call s inv _ => perform_keeps call s inv) Inv.start reached
  exact kept.1.refines

/-- A destructor that `Remove` runs adds a value, which takes the freed slot. -/
theorem handles_refine_reentered :
    ∃ (s : World Nat) (stack : List (Unit → World Nat → Tree (World Nat) Unit Refusal Unit)),
      stack.length = 1 ∧ s.table.owned 1 1 = [BitVec.ofNat 32 8193] ∧
        s.map 4097 = none ∧ Refines s := by
  refine ⟨_, [fun _ s => .done (.ok ()) s], rfl, ?_, ?_, handles_refine
    ⟨[.start (.add 1 1 42), .start (.remove 4097 1 1), .start (.add 1 1 99)], rfl⟩⟩
  · decide
  · decide

/-- An empty table refuses a value that has no owner, with every slot unused. -/
theorem ownerless_refused :
    ({} : World Nat).table.add 0 1 42 = .error .invalidOwner ∧
      ∀ slot, ¬ ((∃ id b, ({} : World Nat).map id = some b ∧ slotOf id = slot) ∨
        ∀ generation, 1 ≤ generation → generation ≤ MaxGeneration →
          pack generation slot ∈ ({} : World Nat).issued) := by
  refine ⟨rfl, ?_⟩
  rintro slot (⟨id, b, mapped, -⟩ | spent)
  · exact nomatch mapped
  · exact nomatch spent 1 (le_refl 1) one_le_maxGeneration

end Source2Root.Handles
