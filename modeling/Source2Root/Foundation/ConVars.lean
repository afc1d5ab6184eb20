import Source2Root.Foundation.Registrations

/-!
# Who owns the ConVars

The entry of a ConVar, the map of each owner and the owners' handles agree with
each other in every state.
-/

set_option autoImplicit false

namespace Source2Root.Foundation

open Handles Ownership

def conVarBinding (owner : Nat) (name : String) : Binding Resource :=
  { owner, type := ConVarType, value := .conVar name }

/-- Every owner has a handle for each of its ConVars, until its handles are swept,
and no other handle stands for a ConVar. -/
structure Vouched (convarsOf : Addr → Std.ExtTreeMap String HandleId) (swept : Addr → Bool)
    (owner : Addr → Nat) (handles : Handles Resource) : Prop where
  handle : ∀ (a : Addr) (name : String) (id : HandleId), (convarsOf a)[name]? = some id →
    handles.look id = some (conVarBinding (owner a) name) ∨ swept a = true
  entry : ∀ (id : HandleId) (b : Binding Resource), handles.look id = some b →
    b.type = ConVarType → ∃ a name, b = conVarBinding (owner a) name ∧
      (convarsOf a)[name]? = some id

section Vouched

variable {convarsOf : Addr → Std.ExtTreeMap String HandleId} {swept : Addr → Bool}
  {owner : Addr → Nat} {handles left : Handles Resource}

/-- Only handles of other types go. -/
theorem Vouched.less (vouched : Vouched convarsOf swept owner handles) (less : Less handles left)
    (kept : ∀ id b, handles.look id = some b → b.type = ConVarType → left.look id = some b) :
    Vouched convarsOf swept owner left where
  handle := by
    intro a name id mine
    rcases vouched.handle a name id mine with found | gone
    · exact Or.inl (kept id _ found rfl)
    · exact Or.inr gone
  entry := fun id b found => vouched.entry id b (less.look id b found)

theorem Vouched.remove (vouched : Vouched convarsOf swept owner handles) {id : HandleId}
    {number type : Nat} {value : Resource} (plain : type ≠ ConVarType)
    (removed : handles.remove id number type = .ok (value, left)) :
    Vouched convarsOf swept owner left := by
  obtain ⟨found, after⟩ := look_remove removed
  refine vouched.less (less_remove removed) fun other b there kind => ?_
  have apart : other ≠ id := by
    rintro rfl
    rw [found] at there
    cases there
    exact plain kind
  rw [after, if_neg apart]
  exact there

theorem Vouched.retire (vouched : Vouched convarsOf swept owner handles) {number type : Nat}
    (some_ : type ≠ 0) (plain : type ≠ ConVarType) :
    Vouched convarsOf swept owner (handles.retire number type).2 := by
  refine vouched.less (less_retire ..) fun id b there kind => ?_
  rw [look_retire, there, Option.filter_some, if_pos]
  simp [Binding.matches, some_, kind, plain]

theorem Vouched.add (vouched : Vouched convarsOf swept owner handles) {id : HandleId}
    {number type : Nat} {value : Resource} (plain : type ≠ ConVarType)
    (added : handles.add number type value = .ok (id, left)) :
    Vouched convarsOf swept owner left := by
  obtain ⟨-, new, after⟩ := look_add added
  refine ⟨?_, ?_⟩
  · intro a name other mine
    rcases vouched.handle a name other mine with found | gone
    · left
      have apart : other ≠ id := by
        rintro rfl
        rw [new] at found
        cases found
      rw [after, if_neg apart]
      exact found
    · exact Or.inr gone
  · intro other b found kind
    rw [after] at found
    split at found
    · cases found
      exact absurd kind plain
    · exact vouched.entry other b found kind

theorem Vouched.put (vouched : Vouched convarsOf swept owner handles) {id : HandleId}
    {number type : Nat} {before : Resource} (plain : type ≠ ConVarType)
    (there : handles.get id number type = .ok before) (value : Resource) :
    Vouched convarsOf swept owner (handles.put id value) := by
  have found := get_iff.mp there
  refine ⟨?_, ?_⟩
  · intro a name other mine
    rcases vouched.handle a name other mine with live | gone
    · left
      have apart : other ≠ id := by
        rintro rfl
        rw [found] at live
        cases live
        exact plain rfl
      rw [look_put found, if_neg apart]
      exact live
    · exact Or.inr gone
  · intro other b at_other kind
    rw [look_put found] at at_other
    split at at_other
    · cases at_other
      exact absurd kind plain
    · exact vouched.entry other b at_other kind

end Vouched

/-- The entries of the ConVars. -/
structure Declared (convars : Std.ExtTreeMap String Variable)
    (convarsOf : Addr → Std.ExtTreeMap String HandleId)
    (declared : Addr → Std.ExtTreeMap String ConVarDefinition) (manifest : Addr → Manifest) :
    Prop where
  ledger : Ledger Variable.owners convars convarsOf
  named : ∀ (name : String) (v : Variable), convars[name]? = some v → v.definition.name = name
  plugin : ∀ (name : String) (v : Variable), convars[name]? = some v →
    ∀ a ∈ v.owners, ∀ b ∈ v.owners, (manifest a).id = (manifest b).id
  agreed : ∀ (name : String) (v : Variable), convars[name]? = some v →
    ∀ a ∈ v.owners, (declared a)[name]? = some v.definition

def State.Declares (s : State) : Prop :=
  Declared s.convars s.convarsOf s.declared s.manifest ∧
    Vouched s.convarsOf s.swept s.owner s.handles

theorem Declared.manifest_update {convars : Std.ExtTreeMap String Variable}
    {convarsOf : Addr → Std.ExtTreeMap String HandleId}
    {declared : Addr → Std.ExtTreeMap String ConVarDefinition} {manifest : Addr → Manifest}
    (entries : Declared convars convarsOf declared manifest) {a : Addr}
    (empty : convarsOf a = ∅) (m : Manifest) :
    Declared convars convarsOf declared (Function.update manifest a m) := by
  refine { entries with plugin := ?_ }
  intro name v there b member_b c member_c
  have other : ∀ d ∈ v.owners, d ≠ a := by
    rintro d member rfl
    have mine := (entries.ledger.owned name d).mpr ⟨v, there, member⟩
    rw [empty] at mine
    exact Std.ExtTreeMap.not_mem_empty mine
  rw [Function.update_of_ne (other b member_b), Function.update_of_ne (other c member_c)]
  exact entries.plugin name v there b member_b c member_c

/-- A new script owns no ConVar, and its owner number is on no handle. -/
theorem Vouched.born {convarsOf : Addr → Std.ExtTreeMap String HandleId} {swept : Addr → Bool}
    {owner : Addr → Nat} {handles : Handles Resource}
    (vouched : Vouched convarsOf swept owner handles) {a : Addr} (empty : convarsOf a = ∅)
    (number : Nat) :
    Vouched (Function.update convarsOf a ∅) swept (Function.update owner a number) handles := by
  have same : Function.update convarsOf a ∅ = convarsOf := by
    rw [← empty, Function.update_eq_self]
  rw [same]
  have other : ∀ {b : Addr} {name : String} {id : HandleId}, (convarsOf b)[name]? = some id →
      b ≠ a := by
    rintro b name id mine rfl
    rw [empty] at mine
    simp at mine
  refine ⟨?_, ?_⟩
  · intro b name id mine
    rw [Function.update_of_ne (other mine)]
    exact vouched.handle b name id mine
  · intro id b found kind
    obtain ⟨c, name, is, mine⟩ := vouched.entry id b found kind
    exact ⟨c, name, by rw [Function.update_of_ne (other mine)]; exact is, mine⟩

/-- The handle of a ConVar is of nobody else, and of no other ConVar. -/
theorem conVarBinding_inj {nextOwner : Nat} {fresh : Addr} {owner : Addr → Nat}
    {handles : Handles Resource} (numbered : Numbered nextOwner fresh owner) {a b : Addr}
    {name other : String} {id : HandleId}
    (found : handles.look id = some (conVarBinding (owner a) name))
    (live : handles.look id = some (conVarBinding (owner b) other)) : b = a ∧ other = name := by
  have same : conVarBinding (owner b) other = conVarBinding (owner a) name :=
    Option.some.inj (live.symm.trans found)
  have number : owner b = owner a := congrArg Binding.owner same
  have value : Resource.conVar other = Resource.conVar name := congrArg Binding.value same
  have real := look_owner live
  exact ⟨numbered.one b a number real, Resource.conVar.inj value⟩

theorem getElem?_update_insert {T : Type} {table : Addr → Std.ExtTreeMap String T} {a b : Addr}
    {name other : String} {entry : T} :
    (Function.update table a ((table a).insert name entry) b)[other]? =
      if b = a ∧ other = name then some entry else (table b)[other]? := by
  rw [Function.update_apply]
  by_cases here : b = a
  · rw [if_pos here, Tables.getElem?_insert, here]
    simp
  · rw [if_neg here, if_neg (fun both => here both.1)]

theorem getElem?_update_erase {T : Type} {table : Addr → Std.ExtTreeMap String T} {a b : Addr}
    {name other : String} :
    (Function.update table a ((table a).erase name) b)[other]? =
      if b = a ∧ other = name then none else (table b)[other]? := by
  rw [Function.update_apply]
  by_cases here : b = a
  · rw [if_pos here, Tables.getElem?_erase, here]
    simp
  · rw [if_neg here, if_neg (fun both => here both.1)]

section Changes

variable {convarsOf : Addr → Std.ExtTreeMap String HandleId} {swept : Addr → Bool}
  {owner : Addr → Nat} {handles left : Handles Resource} {nextOwner : Nat} {fresh : Addr}

theorem Vouched.join (vouched : Vouched convarsOf swept owner handles) {a : Addr} {name : String}
    {id : HandleId} (unowned : name ∉ convarsOf a)
    (added : handles.add (owner a) ConVarType (.conVar name) = .ok (id, left)) :
    Vouched (Function.update convarsOf a ((convarsOf a).insert name id)) swept owner left := by
  obtain ⟨-, new, after⟩ := look_add added
  refine ⟨?_, ?_⟩
  · intro b other id' mine
    rw [getElem?_update_insert] at mine
    rw [after]
    split at mine
    · rename_i here
      cases mine
      left
      rw [if_pos rfl, here.1, here.2]
      rfl
    · rcases vouched.handle b other id' mine with found | gone
      · left
        have apart : id' ≠ id := by
          rintro rfl
          rw [new] at found
          cases found
        rw [if_neg apart]
        exact found
      · exact Or.inr gone
  · intro id' b found kind
    rw [after] at found
    split at found
    · cases found
      refine ⟨a, name, rfl, ?_⟩
      rw [getElem?_update_insert, if_pos ⟨rfl, rfl⟩, ‹id' = id›]
    · obtain ⟨c, n, is, mine⟩ := vouched.entry id' b found kind
      refine ⟨c, n, is, ?_⟩
      rw [getElem?_update_insert, if_neg]
      · exact mine
      · rintro ⟨rfl, rfl⟩
        exact unowned (Tables.mem_iff.mpr ⟨id', mine⟩)

/-- The handle goes with the ownership. -/
theorem Vouched.part (vouched : Vouched convarsOf swept owner handles)
    (numbered : Numbered nextOwner fresh owner) {a : Addr} {name : String} {id : HandleId}
    {value : Resource} (mine : (convarsOf a)[name]? = some id)
    (removed : handles.remove id (owner a) ConVarType = .ok (value, left)) :
    Vouched (Function.update convarsOf a ((convarsOf a).erase name)) swept owner left := by
  obtain ⟨found, after⟩ := look_remove removed
  refine ⟨?_, ?_⟩
  · intro b other id' owned
    rw [getElem?_update_erase] at owned
    split at owned
    · cases owned
    rename_i apart
    rcases vouched.handle b other id' owned with live | gone
    · by_cases same : id' = id
      · -- the id stood for a ConVar of the same script, whose handles were swept before
        right
        rw [same] at live owned
        rcases vouched.handle a name id mine with here | swept_a
        · exact absurd (conVarBinding_inj numbered here live) apart
        · have number : owner b = owner a :=
            congrArg Binding.owner (Option.some.inj (live.symm.trans found))
          have real := look_owner live
          rw [numbered.one b a number real]
          exact swept_a
      · left
        rw [after, if_neg same]
        exact live
    · exact Or.inr gone
  · intro id' b there kind
    rw [after] at there
    split at there
    · cases there
    rename_i apart
    obtain ⟨c, n, is, owned⟩ := vouched.entry id' b there kind
    refine ⟨c, n, is, ?_⟩
    rw [getElem?_update_erase, if_neg]
    · exact owned
    · rintro ⟨rfl, rfl⟩
      rw [mine] at owned
      exact apart (Option.some.inj owned).symm

/-- The handle went before. -/
theorem Vouched.part_gone (vouched : Vouched convarsOf swept owner handles) {a : Addr}
    {name : String} {id : HandleId} (mine : (convarsOf a)[name]? = some id)
    (gone : ∀ value,
      handles.look id ≠ some { owner := owner a, type := ConVarType, value }) :
    Vouched (Function.update convarsOf a ((convarsOf a).erase name)) swept owner handles := by
  refine ⟨?_, ?_⟩
  · intro b other id' owned
    rw [getElem?_update_erase] at owned
    split at owned
    · cases owned
    · exact vouched.handle b other id' owned
  · intro id' b there kind
    obtain ⟨c, n, is, owned⟩ := vouched.entry id' b there kind
    refine ⟨c, n, is, ?_⟩
    rw [getElem?_update_erase, if_neg]
    · exact owned
    · rintro ⟨rfl, rfl⟩
      rw [mine] at owned
      cases owned
      rw [is] at there
      exact gone _ there

/-- All handles of a script go; that was announced. -/
theorem Vouched.sweep (vouched : Vouched convarsOf swept owner handles)
    (numbered : Numbered nextOwner fresh owner) {a : Addr} (swept_a : swept a = true) :
    Vouched convarsOf swept owner (handles.retire (owner a) 0).2 := by
  refine ⟨?_, fun id b found => vouched.entry id b ((less_retire ..).look id b found)⟩
  intro b name id mine
  rcases vouched.handle b name id mine with found | gone
  · by_cases same : owner b = owner a
    · right
      have real := look_owner found
      rw [numbered.one b a same real]
      exact swept_a
    · left
      rw [look_retire, found, Option.filter_some, if_pos]
      simp [Binding.matches, conVarBinding, same]
  · exact Or.inr gone

end Changes

theorem Declared.part {convars : Std.ExtTreeMap String Variable}
    {convarsOf : Addr → Std.ExtTreeMap String HandleId}
    {declared : Addr → Std.ExtTreeMap String ConVarDefinition} {manifest : Addr → Manifest}
    (entries : Declared convars convarsOf declared manifest) {a : Addr} {name : String}
    {v : Variable} (there : convars[name]? = some v) :
    Declared (if v.owners.erase a = ∅ then convars.erase name
        else convars.insert name { v with owners := v.owners.erase a })
      (Function.update convarsOf a ((convarsOf a).erase name)) declared manifest := by
  have less : ∀ (other : String) (w : Variable),
      (if v.owners.erase a = ∅ then convars.erase name
        else convars.insert name { v with owners := v.owners.erase a })[other]? = some w →
      ∃ old : Variable, convars[other]? = some old ∧ w.owners ⊆ old.owners ∧
        w.definition = old.definition := by
    intro other w found
    split at found
    · rw [Tables.getElem?_erase] at found
      split at found
      · cases found
      · exact ⟨w, found, fun _ x => x, rfl⟩
    · rw [Tables.getElem?_insert] at found
      split at found
      · cases found
        exact ⟨v, ‹other = name› ▸ there, Finset.erase_subset a v.owners, rfl⟩
      · exact ⟨w, found, fun _ x => x, rfl⟩
  have parted : Variable.owners { v with owners := v.owners.erase a } = v.owners.erase a := rfl
  refine ⟨entries.ledger.part there parted, ?_, ?_, ?_⟩
  · intro other w found
    obtain ⟨old, at_other, -, same⟩ := less other w found
    rw [same]
    exact entries.named other old at_other
  · intro other w found b member_b c member_c
    obtain ⟨old, at_other, subset, -⟩ := less other w found
    exact entries.plugin other old at_other b (subset member_b) c (subset member_c)
  · intro other w found b member_b
    obtain ⟨old, at_other, subset, same⟩ := less other w found
    rw [same]
    exact entries.agreed other old at_other b (subset member_b)

theorem Declared.join {convars : Std.ExtTreeMap String Variable}
    {convarsOf : Addr → Std.ExtTreeMap String HandleId}
    {declared : Addr → Std.ExtTreeMap String ConVarDefinition} {manifest : Addr → Manifest}
    (entries : Declared convars convarsOf declared manifest) {a : Addr}
    {definition : ConVarDefinition} {v : Variable} (id : HandleId)
    (ours : ∀ b ∈ v.owners, (manifest b).id = (manifest a).id) (same : v.definition = definition)
    (known : ∀ b, b ∈ v.owners ↔
      ∃ w : Variable, convars[definition.name]? = some w ∧ b ∈ w.owners)
    (old : ∀ w : Variable, convars[definition.name]? = some w → w.definition = definition) :
    Declared (convars.insert definition.name { v with owners := insert a v.owners })
      (Function.update convarsOf a ((convarsOf a).insert definition.name id))
      (Function.update declared a ((declared a).insert definition.name definition)) manifest := by
  have changed : ∀ {other : String} {w : Variable},
      (convars.insert definition.name { v with owners := insert a v.owners })[other]? = some w →
      (other = definition.name ∧ w = { v with owners := insert a v.owners }) ∨
        (other ≠ definition.name ∧ convars[other]? = some w) := by
    intro other w found
    rw [Tables.getElem?_insert] at found
    split at found
    · cases found
      exact Or.inl ⟨‹_›, rfl⟩
    · exact Or.inr ⟨‹_›, found⟩
  refine ⟨entries.ledger.join id fun b => ?_, ?_, ?_, ?_⟩
  · rw [← known b]
    exact Finset.mem_insert
  · intro other w found
    rcases changed found with ⟨here, rfl⟩ | ⟨-, found⟩
    · rw [here]
      exact congrArg ConVarDefinition.name same
    · exact entries.named other w found
  · intro other w found
    rcases changed found with ⟨here, rfl⟩ | ⟨-, found⟩
    · have mine : ∀ b ∈ insert a v.owners, (manifest b).id = (manifest a).id := by
        intro b member
        rcases Finset.mem_insert.mp member with is | member
        · rw [is]
        · exact ours b member
      exact fun b member_b c member_c => (mine b member_b).trans (mine c member_c).symm
    · exact entries.plugin other w found
  · intro other w found b member
    rw [getElem?_update_insert]
    rcases changed found with ⟨here, rfl⟩ | ⟨apart, found⟩
    · split
      · exact congrArg some same.symm
      · rename_i not_new
        have is_old : b ∈ v.owners := by
          rcases Finset.mem_insert.mp member with is | member
          · exact absurd ⟨is, here⟩ not_new
          · exact member
        obtain ⟨w, at_name, owner⟩ := (known b).mp is_old
        rw [here, entries.agreed _ w at_name b owner, old w at_name]
        exact congrArg some same.symm
    · rw [if_neg (fun both => apart both.2)]
      exact entries.agreed other w found b member

theorem Act.declares {s s' : State} {k : Kind} (act : Act k s s')
    (numbered : Numbered s.nextOwner s.fresh s.owner) (living : s.Lives) (bared : s.Bares)
    (declares : s.Declares) : s'.Declares := by
  obtain ⟨entries, vouched⟩ := declares
  have unborn : s.convarsOf s.fresh = ∅ :=
    bared.convars _ (living.unborn s.fresh (le_refl _))
  cases act with
  | closeMenu slot d value handles there removed =>
      exact ⟨entries, vouched.remove (by decide) removed⟩
  | addHandle a value id handles making loaded plain added =>
      refine ⟨entries, vouched.add ?_ added⟩
      rcases plain with ⟨player, rfl⟩ | ⟨file, rfl⟩ | ⟨menu, rfl, -⟩ <;>
        simp [Resource.type, PlayerType, ConfigFileType, MenuType, ConVarType]
  | addTimer a timer delay id handles making loaded positive due serial target added =>
      exact ⟨entries, vouched.add (by decide) added⟩
  | createResource a r p type value id handles making bound there owned added =>
      exact ⟨entries, vouched.add (by decide) added⟩
  | removeHandle a id type value handles plain hidden removed =>
      exact ⟨entries, vouched.remove plain removed⟩
  | retirePlayers => exact ⟨entries, vouched.retire (by decide) (by decide)⟩
  | retireMenus => exact ⟨entries, vouched.retire (by decide) (by decide)⟩
  | retireResources => exact ⟨entries, vouched.retire (by decide) (by decide)⟩
  | sweep a still =>
      refine ⟨entries, ⟨?_, vouched.entry⟩⟩
      intro b name id mine
      rcases vouched.handle b name id mine with found | gone
      · exact Or.inl found
      · right
        show Function.update s.swept a true b = true
        rw [Function.update_apply]
        split
        · rfl
        · exact gone
  | retireRest a still swept => exact ⟨entries, vouched.sweep numbered swept⟩
  | putMenu a id before after there =>
      exact ⟨entries, vouched.put (by decide) (State.menu_get there) _⟩
  | putFile a id before after there => exact ⟨entries, vouched.put (by decide) there _⟩
  | putTimer a id timer elapsed there =>
      exact ⟨entries, vouched.put (by decide) (State.timer_get there) _⟩
  | addConVar a definition id handles v created making loaded unowned ours same known added =>
      refine ⟨entries.join id ours same ?_ ?_, vouched.join unowned added⟩
      · intro b
        cases created with
        | true =>
            have new : s.convars[definition.name]? = none ∧ v.owners = ∅ := known
            obtain ⟨absent, nobody⟩ := new
            rw [absent, nobody]
            simp
        | false =>
            have there : s.convars[definition.name]? = some v := known
            rw [there]
            simp
      · intro w there
        cases created with
        | true =>
            have new : s.convars[definition.name]? = none ∧ v.owners = ∅ := known
            exact absurd (new.1.symm.trans there) (by simp)
        | false =>
            have at_name : s.convars[definition.name]? = some v := known
            rw [at_name] at there
            cases there
            exact same
  | flashConVar a name id handles left making added removed =>
      refine ⟨entries, vouched.less ⟨fun other b found => ?_⟩ fun other b found _ => ?_⟩
      · rw [(look_remove removed).2, (look_add added).2.2] at found
        split at found
        · cases found
        · exact found
      · have apart : other ≠ id := by
          rintro rfl
          rw [(look_add added).2.1] at found
          cases found
        show left.look other = some b
        rw [(look_remove removed).2, if_neg apart, (look_add added).2.2, if_neg apart]
        exact found
  | dropConVar a name id v released handles permit owned there last removed =>
      refine ⟨entries.part there, ?_⟩
      rcases removed with ⟨value, removed⟩ | ⟨gone, rfl⟩
      · exact vouched.part numbered owned removed
      · exact vouched.part_gone owned gone
  | prepare m path managing settled owners accepted =>
      have born := entries.manifest_update unborn m
      refine ⟨⟨born.ledger.forget unborn, born.named, born.plugin, born.agreed⟩,
        vouched.born unborn s.nextOwner⟩
  | placeRecord id m path state =>
      have born := entries.manifest_update unborn m
      refine ⟨⟨born.ledger.forget unborn, born.named, born.plugin, born.agreed⟩,
        vouched.born unborn 0⟩
  | rewriteRecord id slot m path managing there named unloaded single =>
      exact ⟨entries.manifest_update (bared.convars _ unloaded) m, vouched⟩
  | _ => exact ⟨entries, vouched⟩

theorem Reach.declares {s : State} (reach : Reach s) : s.Declares := by
  induction reach with
  | boot first =>
      obtain ⟨now, publicTrigger, silentTrigger, rfl⟩ := first
      refine ⟨⟨⟨?_, ?_⟩, ?_, ?_, ?_⟩, ⟨?_, ?_⟩⟩
      all_goals simp [State.boot, Handles.look]
  | act before change ih => exact change.declares before.numbered before.living before.bared ih

end Source2Root.Foundation
