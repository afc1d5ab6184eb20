import Source2Root.HandlesRefinement

/-!
# The handle table as a map

What a handle stands for, read from the packed table, and what each operation
does to it.  Whoever keeps values in the table reasons about `look` alone.
-/

set_option autoImplicit false

namespace Source2Root.Handles

variable {V : Type}

/-- What the id stands for. -/
def look (t : Handles V) (id : HandleId) : Option (Binding V) :=
  if id.toInt ≤ 0 ∨ id.toNat % 4096 = 0 then none
  else
    match t.entries[id.toNat % 4096 - 1]? with
    | some e => if e.owner ≠ 0 ∧ e.generation = id.toNat / 4096 then some (Entry.binding e) else none
    | none => none

theorem look_eq_some {t : Handles V} {id : HandleId} {b : Binding V} :
    t.look id = some b ↔ ∃ i e, t.Names id i e ∧ e.owner ≠ 0 ∧ b = Entry.binding e := by
  unfold look
  constructor
  · intro found
    split at found
    · cases found
    · rename_i valid
      obtain ⟨positive, slot⟩ := not_or.mp valid
      split at found
      · rename_i e at_
        split at found
        · rename_i taken
          refine ⟨id.toNat % 4096 - 1, e, (names_iff t id _ e).mpr ?_, taken.1,
            (Option.some.inj found).symm⟩
          exact ⟨not_le.mp positive, by omega, at_, taken.2⟩
        · cases found
      · cases found
  · rintro ⟨i, e, names, taken, rfl⟩
    obtain ⟨positive, slot, at_, generation⟩ := (names_iff t id i e).mp names
    have index : id.toNat % 4096 - 1 = i := by omega
    rw [if_neg (by omega), index, at_]
    simp only
    rw [if_pos ⟨taken, generation⟩]

theorem look_owner {t : Handles V} {id : HandleId} {b : Binding V} (found : t.look id = some b) :
    b.owner ≠ 0 := by
  obtain ⟨i, e, -, taken, rfl⟩ := look_eq_some.mp found
  exact taken

/-- Two tables agree on an id when they name the same entries by it. -/
theorem look_congr {t t' : Handles V} {id : HandleId}
    (same : ∀ b, (∃ i e, t.Names id i e ∧ e.owner ≠ 0 ∧ b = Entry.binding e) ↔
      ∃ i e, t'.Names id i e ∧ e.owner ≠ 0 ∧ b = Entry.binding e) : t.look id = t'.look id := by
  apply Option.ext
  intro b
  rw [look_eq_some, look_eq_some]
  exact same b

theorem checked_iff {t : Handles V} {id : HandleId} {owner type : Nat} {value : V} :
    (∃ i e, t.check id owner type = .ok (i, e) ∧ e.value = value) ↔
      t.look id = some { owner, type, value } := by
  rw [look_eq_some]
  constructor
  · rintro ⟨i, e, checked, rfl⟩
    obtain ⟨names, real, rfl, rfl⟩ := check_eq_ok.mp checked
    exact ⟨i, e, names, real, rfl⟩
  · rintro ⟨i, e, names, taken, holds⟩
    have owner_eq : owner = e.owner := congrArg Binding.owner holds
    have type_eq : type = e.type := congrArg Binding.type holds
    have value_eq : value = e.value := congrArg Binding.value holds
    refine ⟨i, e, check_eq_ok.mpr ⟨names, ?_, owner_eq.symm, type_eq.symm⟩, value_eq.symm⟩
    exact owner_eq ▸ taken

theorem get_iff {t : Handles V} {id : HandleId} {owner type : Nat} {value : V} :
    t.get id owner type = .ok value ↔ t.look id = some { owner, type, value } := by
  rw [get_eq_ok, checked_iff]

theorem contains_iff {t : Handles V} {id : HandleId} {owner type : Nat} :
    t.contains id owner type = true ↔ ∃ value, t.look id = some { owner, type, value } := by
  rw [contains_eq_true]
  exact exists_congr fun value => checked_iff

theorem mem_owned_iff {t : Handles V} {owner type : Nat} {id : HandleId} :
    id ∈ t.owned owner type ↔ ∃ b, t.look id = some b ∧ b.matches owner type = true := by
  rw [mem_owned]
  constructor
  · rintro ⟨real, i, e, names, mine⟩
    rw [ownedBy_eq_matches] at mine
    refine ⟨Entry.binding e, look_eq_some.mpr ⟨i, e, names, ?_, rfl⟩, mine⟩
    have owner_eq : e.owner = owner := by
      simp only [Binding.matches, Bool.and_eq_true, beq_iff_eq] at mine
      exact mine.1
    exact owner_eq ▸ real
  · rintro ⟨b, found, mine⟩
    obtain ⟨i, e, names, taken, rfl⟩ := look_eq_some.mp found
    have owner_eq : e.owner = owner := by
      simp only [Binding.matches, Bool.and_eq_true, beq_iff_eq] at mine
      exact mine.1
    exact ⟨owner_eq ▸ taken, i, e, names, by rw [ownedBy_eq_matches]; exact mine⟩

theorem look_add {t t' : Handles V} {owner type : Nat} {value : V} {id : HandleId}
    (added : t.add owner type value = .ok (id, t')) :
    owner ≠ 0 ∧ t.look id = none ∧
      ∀ other, t'.look other = if other = id then some { owner, type, value } else t.look other := by
  obtain ⟨real, -, i, e, placed⟩ := add_placed added
  have taken : e.owner ≠ 0 := by
    have owner_eq : e.owner = owner := congrArg Binding.owner placed.holds
    exact owner_eq ▸ real
  have free : t.look id = none := by
    by_contra some_
    obtain ⟨b, found⟩ := Option.ne_none_iff_exists'.mp some_
    obtain ⟨j, was, names, used, -⟩ := look_eq_some.mp found
    by_cases here : j = i
    · subst here
      rcases placed.before with ⟨nothing, -⟩ | ⟨before, at_, unused, generation⟩
      · rw [names.at_] at nothing
        cases nothing
      · rw [names.at_] at at_
        cases Option.some.inj at_
        exact used unused
    · have moved : t'.Names id j was := ⟨(placed.others j here).trans names.at_, names.packed⟩
      exact here (Names.unique moved placed.names).1
  refine ⟨real, free, fun other => ?_⟩
  by_cases here : other = id
  · subst here
    rw [if_pos rfl, look_eq_some]
    exact ⟨i, e, placed.names, taken, placed.holds.symm⟩
  · rw [if_neg here]
    apply look_congr
    intro b
    constructor
    · rintro ⟨j, was, names, used, holds⟩
      refine ⟨j, was, ⟨?_, names.packed⟩, used, holds⟩
      by_cases at_ : j = i
      · subst at_
        have same : was = e := by
          have found := names.at_
          rw [placed.names.at_] at found
          exact (Option.some.inj found).symm
        rw [names.packed, same, ← placed.names.packed] at here
        exact absurd rfl here
      · exact (placed.others j at_).symm.trans names.at_
    · rintro ⟨j, was, names, used, holds⟩
      refine ⟨j, was, ⟨?_, names.packed⟩, used, holds⟩
      by_cases at_ : j = i
      · subst at_
        rcases placed.before with ⟨nothing, -⟩ | ⟨before, found, unused, -⟩
        · rw [names.at_] at nothing
          cases nothing
        · rw [names.at_] at found
          cases Option.some.inj found
          exact absurd unused used
      · exact (placed.others j at_).trans names.at_

/-- The entry with a handle that passed the check gets another value, through the
reference that `Get` returned. -/
def put (t : Handles V) (id : HandleId) (value : V) : Handles V where
  entries := t.entries.modify ((id.toNat &&& 4095) - 1) fun e => { e with value }
  short := by simpa using t.short
  sound := sound_modify t.sound fun e at_ => by
    have sound := t.sound e (List.mem_of_getElem? at_)
    exact ⟨sound.started, sound.bounded, sound.free⟩

theorem look_put {t : Handles V} {id : HandleId} {b : Binding V} (found : t.look id = some b)
    (value : V) (other : HandleId) :
    (t.put id value).look other = if other = id then some { b with value } else t.look other := by
  obtain ⟨i, e, named, taken, rfl⟩ := look_eq_some.mp found
  obtain ⟨positive, slot, at_, generation⟩ := (names_iff t id i e).mp named
  have index : (id.toNat &&& 4095) - 1 = i := by
    have mask : id.toNat &&& 4095 = id.toNat % 4096 := Nat.and_two_pow_sub_one_eq_mod id.toNat 12
    omega
  have entry : ∀ j, (t.put id value).entries[j]? =
      if i = j then t.entries[j]?.map fun e => { e with value } else t.entries[j]? := by
    intro j
    show (t.entries.modify ((id.toNat &&& 4095) - 1) fun e => { e with value })[j]? = _
    rw [index, List.getElem?_modify]
    split <;> simp
  by_cases here : other = id
  · subst here
    rw [if_pos rfl, look_eq_some]
    refine ⟨i, { e with value }, ⟨?_, named.packed⟩, taken, rfl⟩
    rw [entry i, if_pos rfl, at_]
    rfl
  · rw [if_neg here]
    unfold look
    by_cases valid : other.toInt ≤ 0 ∨ other.toNat % 4096 = 0
    · rw [if_pos valid, if_pos valid]
    · rw [if_neg valid, if_neg valid, entry]
      by_cases same : i = other.toNat % 4096 - 1
      · -- another id of this entry is of another generation
        rw [if_pos same, ← same, at_]
        have stale : e.generation ≠ other.toNat / 4096 := by
          intro generation_eq
          apply here
          apply BitVec.eq_of_toNat_eq
          omega
        simp [stale]
      · rw [if_neg same]

variable [Inhabited V]

theorem look_freed {t t' : Handles V} {gone : Nat → Entry V → Bool} (freed : Freed t t' gone)
    {id : HandleId} {b : Binding V} : t'.look id = some b ↔
      ∃ i e, t.Names id i e ∧ e.owner ≠ 0 ∧ b = Entry.binding e ∧ gone i e = false := by
  rw [look_eq_some, freed.live_iff]

theorem look_remove {t t' : Handles V} {owner type : Nat} {value : V} {id : HandleId}
    (removed : t.remove id owner type = .ok (value, t')) :
    t.look id = some { owner, type, value } ∧
      ∀ other, t'.look other = if other = id then none else t.look other := by
  obtain ⟨i, e, checked, rfl, rfl⟩ := remove_eq_ok removed
  refine ⟨checked_iff.mp ⟨i, e, checked, rfl⟩, fun other => ?_⟩
  have named := (check_eq_ok.mp checked).1
  apply Option.ext
  intro b
  rw [look_freed (detachAt_freed t i)]
  by_cases here : other = id
  · subst here
    simp only [if_true, reduceCtorEq, iff_false, not_exists, not_and]
    intro j was names _ _ kept
    have same := (Names.unique names named).1
    simp [same] at kept
  · rw [if_neg here, look_eq_some]
    refine exists_congr fun j => exists_congr fun was => and_congr_right fun names =>
      and_congr_right fun _ => ⟨fun holds => holds.1, fun holds => ⟨holds, ?_⟩⟩
    by_contra same
    have index : i = j := by simpa using same
    subst index
    have at_ := names.at_
    rw [named.at_] at at_
    have entry_eq := Option.some.inj at_
    apply here
    rw [names.packed, ← entry_eq, ← named.packed]

theorem remove_of_look {t : Handles V} {owner type : Nat} {value : V} {id : HandleId}
    (found : t.look id = some { owner, type, value }) :
    ∃ t', t.remove id owner type = .ok (value, t') :=
  remove_succeeds.mpr (checked_iff.mpr found)

theorem look_retire (t : Handles V) (owner type : Nat) (id : HandleId) :
    (t.retire owner type).2.look id = (t.look id).filter fun b => !b.matches owner type := by
  apply Option.ext
  intro b
  rw [look_freed (retire_freed t owner type), Option.filter_eq_some_iff, look_eq_some]
  constructor
  · rintro ⟨i, e, names, taken, rfl, kept⟩
    rw [ownedBy_eq_matches] at kept
    exact ⟨⟨i, e, names, taken, rfl⟩, by simp [kept]⟩
  · rintro ⟨⟨i, e, names, taken, rfl⟩, kept⟩
    refine ⟨i, e, names, taken, rfl, ?_⟩
    rw [ownedBy_eq_matches]
    simpa using kept

/-- The values handed out are those of the owner's handles. -/
theorem mem_retire {t : Handles V} {owner type : Nat} (real : owner ≠ 0) {value : V} :
    value ∈ (t.retire owner type).1 ↔
      ∃ id b, t.look id = some b ∧ b.matches owner type = true ∧ b.value = value := by
  rw [retire]
  simp only [List.mem_map, List.mem_filter]
  constructor
  · rintro ⟨e, ⟨member, mine⟩, rfl⟩
    obtain ⟨i, at_⟩ := List.mem_iff_getElem?.mp member
    rw [ownedBy_eq_matches] at mine
    have owner_eq : e.owner = owner := by
      simp only [Binding.matches, Bool.and_eq_true, beq_iff_eq] at mine
      exact mine.1
    exact ⟨pack e.generation (i + 1), Entry.binding e,
      look_eq_some.mpr ⟨i, e, ⟨at_, rfl⟩, owner_eq ▸ real, rfl⟩, mine, rfl⟩
  · rintro ⟨id, b, found, mine, rfl⟩
    obtain ⟨i, e, names, -, rfl⟩ := look_eq_some.mp found
    exact ⟨e, ⟨List.mem_of_getElem? names.at_, by rw [ownedBy_eq_matches]; exact mine⟩, rfl⟩

/-! ## How many handles an owner has -/

section Sizes

variable {W : Type}

theorem mem_owned_all {t : Handles W} {owner : Nat} {id : HandleId} :
    id ∈ t.owned owner 0 ↔ ∃ b, t.look id = some b ∧ b.owner = owner := by
  rw [mem_owned_iff]
  simp [Binding.matches]

theorem owned_length_le {t t' : Handles W} {owner : Nat}
    (less : ∀ id b, t'.look id = some b → b.owner = owner →
      ∃ b', t.look id = some b' ∧ b'.owner = owner) :
    (t'.owned owner 0).length ≤ (t.owned owner 0).length := by
  refine ((owned_nodup t' owner 0).subperm ?_).length_le
  intro id member
  obtain ⟨b, found, mine⟩ := mem_owned_all.mp member
  exact mem_owned_all.mpr (less id b found mine)

theorem owned_add_other {t t' : Handles W} {owner other type : Nat} {value : W} {id : HandleId}
    (added : t.add owner type value = .ok (id, t')) (apart : other ≠ owner) :
    (t'.owned other 0).length ≤ (t.owned other 0).length := by
  obtain ⟨-, -, after⟩ := look_add added
  refine owned_length_le ?_
  intro k b found mine
  rw [after] at found
  by_cases new : k = id
  · rw [if_pos new] at found
    cases found
    exact absurd mine.symm apart
  · rw [if_neg new] at found
    exact ⟨b, found, mine⟩

/-- One handle more for the owner of the new one, none for anybody else. -/
theorem owned_add_le {t t' : Handles W} {owner type : Nat} {value : W} {id : HandleId}
    (added : t.add owner type value = .ok (id, t')) :
    (t'.owned owner 0).length ≤ (t.owned owner 0).length + 1 := by
  obtain ⟨-, -, after⟩ := look_add added
  have more : t'.owned owner 0 ⊆ id :: t.owned owner 0 := by
    intro k member
    obtain ⟨b, found, mine⟩ := mem_owned_all.mp member
    rw [after] at found
    by_cases new : k = id
    · exact new ▸ List.mem_cons_self ..
    · rw [if_neg new] at found
      exact List.mem_cons_of_mem _ (mem_owned_all.mpr ⟨b, found, mine⟩)
  exact ((owned_nodup t' owner 0).subperm more).length_le

/-- The handles of the table that are left after some were taken out. -/
structure Less (t t' : Handles W) : Prop where
  look : ∀ id b, t'.look id = some b → t.look id = some b

theorem Less.refl (t : Handles W) : Less t t := ⟨fun _ _ found => found⟩

theorem Less.trans {t t' t'' : Handles W} (first : Less t t') (second : Less t' t'') :
    Less t t'' := ⟨fun id b found => first.look id b (second.look id b found)⟩

theorem less_remove [Inhabited W] {t t' : Handles W} {owner type : Nat} {value : W}
    {id : HandleId} (removed : t.remove id owner type = .ok (value, t')) : Less t t' := by
  refine ⟨fun other b found => ?_⟩
  rw [(look_remove removed).2] at found
  split at found
  · cases found
  · exact found

theorem less_retire [Inhabited W] (t : Handles W) (owner type : Nat) :
    Less t (t.retire owner type).2 := by
  refine ⟨fun id b found => ?_⟩
  rw [look_retire] at found
  exact (Option.filter_eq_some_iff.mp found).1

theorem Less.owned_le {t t' : Handles W} (less : Less t t') (owner : Nat) :
    (t'.owned owner 0).length ≤ (t.owned owner 0).length :=
  owned_length_le fun id b found mine => ⟨b, less.look id b found, mine⟩

theorem owned_put_le {t : Handles W} {id : HandleId} {b : Binding W} (found : t.look id = some b)
    (value : W) (owner : Nat) :
    ((t.put id value).owned owner 0).length ≤ (t.owned owner 0).length := by
  refine owned_length_le ?_
  intro other c found_c mine
  rw [look_put found] at found_c
  split at found_c
  · cases found_c
    exact ⟨b, ‹other = id› ▸ found, mine⟩
  · exact ⟨c, found_c, mine⟩

end Sizes

/-! ## Room in the table -/

section Room

variable {W : Type}

/-- How many values the table can take. -/
def spare (t : Handles W) : Nat :=
  t.entries.countP Entry.reusable + (MaxSlots - t.entries.length)

theorem reuse_not_reusable {owner type : Nat} (value : W) (e : Entry W) (real : owner ≠ 0) :
    Entry.reusable (Entry.reuse owner type value e) = false := by
  simp [Entry.reusable, Entry.reuse, real]

theorem spare_add {t t' : Handles W} {owner type : Nat} {value : W} {id : HandleId}
    (added : t.add owner type value = .ok (id, t')) : t'.spare + 1 = t.spare := by
  unfold add at added
  split at added
  · cases added
  rename_i valid
  have real : owner ≠ 0 := fun zero => valid (Or.inl zero)
  split at added
  · rename_i i found
    cases added
    obtain ⟨inside, reusable, -⟩ := List.findIdx?_eq_some_iff_getElem.mp found
    obtain ⟨before, e, after, split, place, modified⟩ :=
      List.exists_of_modify (Entry.reuse owner type value) inside
    have was : Entry.reusable e = true := by
      simpa [split, ← place] using reusable
    show (t.entries.modify i (Entry.reuse owner type value)).countP Entry.reusable +
      (MaxSlots - (t.entries.modify i (Entry.reuse owner type value)).length) + 1 =
      t.entries.countP Entry.reusable + (MaxSlots - t.entries.length)
    rw [modified, split]
    simp only [List.countP_append, List.countP_cons, List.length_append, List.length_cons,
      reuse_not_reusable value e real, was, if_true, Bool.false_eq_true, if_false]
    omega
  · split at added
    · cases added
    · rename_i room
      cases added
      unfold spare
      simp only [List.countP_append, List.length_append, List.length_singleton,
        List.countP_singleton, Entry.reusable, beq_eq_false_iff_ne.mpr real, Bool.false_and,
        Bool.false_eq_true, if_false]
      omega

theorem add_succeeds {t : Handles W} {owner type : Nat} (value : W) (real : owner ≠ 0)
    (typed : type ≠ 0) (room : t.spare ≠ 0) : ∃ id t', t.add owner type value = .ok (id, t') := by
  cases added : t.add owner type value with
  | ok pair => exact ⟨pair.1, pair.2, rfl⟩
  | error refusal =>
      obtain ⟨full, stuck⟩ := add_refused real typed added
      refine absurd ?_ room
      unfold spare
      rw [full, Nat.sub_self, Nat.add_zero, List.countP_eq_zero]
      intro e member
      obtain ⟨i, at_⟩ := List.mem_iff_getElem?.mp member
      rcases stuck i e at_ with owned | last
      · simp [Entry.reusable, owned]
      · simp [Entry.reusable, last]

theorem add_fails {t : Handles W} (owner type : Nat) (value : W) (none_ : t.spare = 0) :
    ∃ refusal, t.add owner type value = .error refusal := by
  cases added : t.add owner type value with
  | error refusal => exact ⟨refusal, rfl⟩
  | ok pair =>
      obtain ⟨id, t'⟩ := pair
      have one := spare_add added
      omega

end Room

end Source2Root.Handles
