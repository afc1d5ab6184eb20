import Source2Root.VoiceProtocol

/-!
# Lifting the last mute

An operation that lifts a mute and reports success has put back every receiver
the sender was kept from: no entry for the sender is left, so the engine's
values are the requested ones.
-/

set_option autoImplicit false

namespace Source2Root.Voice

/-! ## What a restore leaves -/

/-- The owners stand as they were and no entry is new or changed. -/
structure Shrunk (s later : Sys) : Prop where
  owners : later.service.owners = s.service.owners
  pairs : ∀ (key : Int × Int) (pair : Pair), later.service.pairs[key]? = some pair →
    s.service.pairs[key]? = some pair

theorem Shrunk.of_service {s later : Sys} (same : later.service = s.service) : Shrunk s later := by
  constructor
  · rw [same]
  · rw [same]
    exact fun _ _ => id

theorem Shrunk.trans {a b c : Sys} (ab : Shrunk a b) (bc : Shrunk b c) : Shrunk a c :=
  ⟨bc.owners.trans ab.owners, fun key pair at_ => ab.pairs key pair (bc.pairs key pair at_)⟩

theorem muted_congr {v w : Service} (same : w.owners = v.owners) (player : Player) :
    w.muted player = v.muted player := by
  unfold Service.muted
  rw [same]

theorem muted_same (v : Service) {a b : Player} (same : a.sameConnection b = true) :
    v.muted a = v.muted b := by
  have slot := (Player.sameConnection_iff.mp same).1
  have connected (found : Player) : found.sameConnection a = found.sameConnection b := by
    rw [Bool.eq_iff_iff]
    exact ⟨fun to_a => Player.sameConnection_trans to_a same,
      fun to_b => Player.sameConnection_trans to_b (Player.sameConnection_symm same)⟩
  unfold Service.muted
  simp only [slot, connected]

/-- The entries the loop of `Restore` does not pass over. -/
def Eligible (v : Service) (owner : Nat) (sender : Option Player) (pair : Pair) : Prop :=
  v.muted pair.sender = false ∧ (owner = 0 ∨ pair.restoreOwner = owner) ∧
    ∀ player ∈ sender, pair.sender.sameConnection player = true

theorem Inv.found_self {s : Sys} (inv : Inv s) {key : Int × Int} {pair : Pair}
    (at_ : s.service.pairs[key]? = some pair) : s.service.found key pair = some pair := by
  have known := inv.1.known key pair at_
  refine Option.filter_eq_some_iff.mpr ⟨at_, ?_⟩
  exact pair_same_self (inv.1.sound.live _ known.1) (inv.1.sound.live _ known.2)

theorem settle_shrunk (s : Sys) (key : Int × Int) (pair : Pair) :
    Shrunk s { s with service := s.service.settle key pair } := by
  unfold Service.settle
  split
  · split
    · refine ⟨rfl, ?_⟩
      intro k p at_
      simp only [Std.ExtTreeMap.getElem?_erase] at at_
      split at at_
      · cases at_
      · exact at_
    · exact ⟨rfl, fun _ _ => id⟩
  · exact ⟨rfl, fun _ _ => id⟩

theorem restoreOne_shrunk {s : Sys} (inv : Inv s) (owner : Nat) (sender : Option Player)
    (out : Outcome) (item : (Int × Int) × Pair) : Shrunk s (restoreOne owner sender out item s).2 := by
  obtain ⟨key, pair⟩ := item
  simp only [restoreOne, bind_get_run]
  split
  · exact ⟨rfl, fun _ _ => id⟩
  · split
    · exact ⟨rfl, fun _ _ => id⟩
    · have wrote := Shrunk.of_service (putBack_spec inv.1.sound pair).service
      simp only [bind_run]
      split
      · exact wrote.trans (settle_shrunk _ key pair)
      · exact wrote

/-- An eligible entry is gone after a turn of the loop that did not fail. -/
theorem restoreOne_clears {s : Sys} (inv : Inv s) (owner : Nat) (sender : Option Player)
    (out : Outcome) (key : Int × Int) (pair : Pair)
    (succeeded : (restoreOne owner sender out (key, pair) s).1.success = true) :
    out.success = true ∧ (Eligible s.service owner sender pair →
      (s.service.pairs[key]? = none ∨ s.service.pairs[key]? = some pair) →
      (restoreOne owner sender out (key, pair) s).2.service.pairs[key]? = none) := by
  simp only [restoreOne, bind_get_run] at succeeded ⊢
  split at succeeded
  · rename_i passed
    rw [if_pos passed]
    refine ⟨succeeded, ?_⟩
    rintro ⟨unmuted, owned, sent⟩
    exfalso
    simp only [unmuted, Bool.false_or, Bool.or_eq_true, Bool.and_eq_true, decide_eq_true_eq,
      ne_eq, Option.any_eq_true, Bool.not_eq_true'] at passed
    rcases passed with ⟨nonzero, other⟩ | ⟨player, is_sender, differs⟩
    · exact owned.elim nonzero other
    · rw [sent player is_sender] at differs
      cases differs
  · rename_i active
    rw [if_neg active]
    split at succeeded
    · rename_i absent
      rw [if_pos absent]
      refine ⟨succeeded, fun _ held => ?_⟩
      rcases held with none_ | at_
      · exact none_
      · rw [inv.found_self at_] at absent
        cases absent
    · rename_i present
      rw [if_neg present]
      have service := (putBack_spec inv.1.sound pair).service
      simp only [bind_run] at succeeded ⊢
      generalize putBack pair s = outcome at succeeded service
      obtain ⟨result, later⟩ := outcome
      split at succeeded
      · rename_i done
        simp only [if_pos done, bind_run, modify_run, pure_run] at succeeded ⊢
        refine ⟨succeeded, fun _ held => ?_⟩
        have same : later.service = s.service := service
        rcases held with none_ | at_
        · simp [Service.found, none_] at present
        · simp [same, Service.settle, inv.found_self at_]
      · cases succeeded

theorem restoreAll_clears (owner : Nat) (sender : Option Player) :
    ∀ (items : List ((Int × Int) × Pair)) (out : Outcome) (s : Sys), Inv s →
      (∀ item ∈ items, s.service.pairs[item.1]? = none ∨ s.service.pairs[item.1]? = some item.2) →
      Shrunk s (items.foldlM (restoreOne owner sender) out s).2 ∧
        ((items.foldlM (restoreOne owner sender) out s).1.success = true → out.success = true ∧
          ∀ item ∈ items, Eligible s.service owner sender item.2 →
            (items.foldlM (restoreOne owner sender) out s).2.service.pairs[item.1]? = none) := by
  intro items
  induction items with
  | nil =>
      intro out s inv _
      exact ⟨⟨rfl, fun _ _ => id⟩, fun succeeded => ⟨succeeded, by simp⟩⟩
  | cons item rest ih =>
      intro out s inv held
      obtain ⟨key, pair⟩ := item
      have shrunk := restoreOne_shrunk inv owner sender out (key, pair)
      have clears := restoreOne_clears inv owner sender out key pair
      have inv' := keeps_restoreOne owner sender out (key, pair) s inv
      rw [List.foldlM_cons, bind_run]
      generalize restoreOne owner sender out (key, pair) s = outcome at shrunk clears inv'
      obtain ⟨out', s'⟩ := outcome
      have still (k : Int × Int) (p : Pair)
          (before : s.service.pairs[k]? = none ∨ s.service.pairs[k]? = some p) :
          s'.service.pairs[k]? = none ∨ s'.service.pairs[k]? = some p := by
        cases now : s'.service.pairs[k]? with
        | none => exact Or.inl rfl
        | some q =>
            have old := shrunk.pairs k q now
            rcases before with none_ | at_
            · rw [none_] at old
              cases old
            · rw [at_] at old
              exact Or.inr old.symm
      obtain ⟨shrunk', clears'⟩ := ih out' s' inv' fun other member =>
        still other.1 other.2 (held other (List.mem_cons_of_mem _ member))
      refine ⟨shrunk.trans shrunk', ?_⟩
      intro succeeded
      obtain ⟨before, rest_clear⟩ := clears' succeeded
      obtain ⟨earlier, first_clear⟩ := clears before
      refine ⟨earlier, ?_⟩
      intro other member eligible
      rcases List.mem_cons.mp member with rfl | member
      · have gone : s'.service.pairs[key]? = none := 
          first_clear eligible (held (key, pair) List.mem_cons_self)
        rw [Option.eq_none_iff_forall_ne_some]
        intro q final
        rw [shrunk'.pairs key q final] at gone
        cases gone
      · refine rest_clear other member ?_
        obtain ⟨unmuted, owned, sent⟩ := eligible
        exact ⟨(muted_congr shrunk.owners _).trans unmuted, owned, sent⟩

/-- After a restore that succeeded, no entry is left that it had to restore. -/
theorem restore_clears {s : Sys} (inv : Inv s) (owner : Nat) (sender : Option Player)
    (error : ErrorText) :
    Shrunk s (restore owner sender error s).2 ∧
      ((restore owner sender error s).1.success = true →
        ∀ (key : Int × Int) (pair : Pair),
          (restore owner sender error s).2.service.pairs[key]? = some pair →
            ¬ Eligible s.service owner sender pair) := by
  have all := restoreAll_clears owner sender s.service.pairs.toList
    { error } s inv fun item member =>
      Or.inr (Std.ExtTreeMap.mem_toList_iff_getElem?_eq_some.mp member)
  refine ⟨all.1, ?_⟩
  intro succeeded key pair at_ eligible
  have there := all.1.pairs key pair at_
  have gone := (all.2 succeeded).2 (key, pair)
    (Std.ExtTreeMap.mem_toList_iff_getElem?_eq_some.mpr there) eligible
  rw [show (restore owner sender error s).2.service.pairs[key]? = none from gone] at at_
  cases at_

/-! ## Nothing is left for a sender -/

def Clear (s : Sys) (sender : Player) : Prop :=
  ∀ (key : Int × Int) (pair : Pair), s.service.pairs[key]? = some pair →
    pair.sender.sameConnection sender = false

theorem Clear.heard {s : Sys} {sender : Player} (clear : Clear s sender) (inv : Inv s)
    {receiver : Player} (hasReceiver : s.world.has receiver = true)
    (hasSender : s.world.has sender = true) :
    s.world.listening receiver.slot sender.slot = s.world.requested receiver.slot sender.slot := by
  have agrees := inv.1.agrees receiver sender hasReceiver hasSender
  have none_ : entry s.service.pairs receiver sender = none := by
    rw [Option.eq_none_iff_forall_ne_some]
    intro pair found
    obtain ⟨at_, -, same⟩ := entry_eq_some.mp found
    rw [clear _ pair at_] at same
    cases same
  unfold remembered at agrees
  rw [none_] at agrees
  exact agrees

/-- Every entry of the sender waits for this owner's restore. -/
def Owed (s : Sys) (owner : Nat) (sender : Player) : Prop :=
  ∀ (key : Int × Int) (pair : Pair), s.service.pairs[key]? = some pair →
    pair.sender.sameConnection sender = true → pair.restoreOwner = owner

theorem removed_run (owner : Nat) (sender : Player) (s : Sys) :
    (removed owner sender s).2 =
      if s.service.muted sender = true then s
      else { s with service.pairs := s.service.pairs.map fun _ pair =>
        if pair.sender.sameConnection sender then { pair with restoreOwner := owner } else pair } := by
  simp only [removed, bind_get_run]
  split <;> rfl

theorem removed_owed {s : Sys} {owner : Nat} {sender : Player}
    (unmuted : s.service.muted sender = false) : Owed (removed owner sender s).2 owner sender := by
  intro key pair at_ same
  rw [removed_run, unmuted] at at_
  simp only [Bool.false_eq_true, if_false, Std.ExtTreeMap.getElem?_map, Option.map_eq_some_iff]
    at at_
  obtain ⟨old, -, rfl⟩ := at_
  by_cases sent : old.sender.sameConnection sender = true
  · rw [if_pos sent]
  · rw [if_neg sent] at same
    exact absurd same sent

theorem removed_keeps_owed {s : Sys} {owner : Nat} {sender : Player} (other : Player)
    (owed : Owed s owner sender) : Owed (removed owner other s).2 owner sender := by
  rw [removed_run]
  split
  · exact owed
  · intro key pair at_ same
    simp only [Std.ExtTreeMap.getElem?_map, Option.map_eq_some_iff] at at_
    obtain ⟨old, there, rfl⟩ := at_
    split <;> rename_i sent
    · rfl
    · rw [if_neg sent] at same
      exact owed key old there same

theorem removed_owners (owner : Nat) (sender : Player) (s : Sys) :
    (removed owner sender s).2.service.owners = s.service.owners := by
  rw [removed_run]
  split <;> rfl

theorem restore_clear {s : Sys} (inv : Inv s) {owner : Nat} {sender : Option Player}
    {error : ErrorText} {player : Player}
    (succeeded : (restore owner sender error s).1.success = true)
    (owed : owner = 0 ∨ Owed s owner player)
    (covered : ∀ other ∈ sender, player.sameConnection other = true)
    (unmuted : s.service.muted player = false) :
    Clear (restore owner sender error s).2 player := by
  obtain ⟨shrunk, clears⟩ := restore_clears inv owner sender error
  intro key pair at_
  rw [Bool.eq_false_iff]
  intro same
  refine clears succeeded key pair at_ ⟨?_, ?_, ?_⟩
  · rw [muted_same s.service same]
    exact unmuted
  · exact owed.imp id fun owed => owed key pair (shrunk.pairs key pair at_) same
  · exact fun other member => Player.sameConnection_trans same (covered other member)

/-! ## The operations that lift a mute -/

/-- Some owner holds a mute of exactly this connection. -/
def Held (v : Service) (player : Player) : Prop :=
  ∃ (owner : Nat) (players : Std.ExtTreeMap Int Player) (slot : Int) (found : Player),
    v.owners[owner]? = some players ∧ players[slot]? = some found ∧
      found.sameConnection player = true

theorem held_of_muted {v : Service} {player : Player} (muted : v.muted player = true) :
    Held v player := by
  obtain ⟨⟨owner, players⟩, member, found⟩ := List.any_eq_true.mp muted
  cases at_ : players[player.slot]? with
  | none => simp [at_] at found
  | some other =>
      simp only [at_] at found
      exact ⟨owner, players, _, other, Std.ExtTreeMap.mem_toList_iff_getElem?_eq_some.mp member,
        at_, found⟩

theorem unmuted_of_empty {v : Service} (empty : v.owners = ∅) (player : Player) :
    v.muted player = false := by
  rw [Bool.eq_false_iff]
  intro muted
  obtain ⟨owner, players, slot, found, at_, -⟩ := held_of_muted muted
  simp [empty] at at_

theorem set_clear {s : Sys} (inv : Inv s) {owner : Nat} {player : Player}
    (succeeded : (set owner player false s).1.success = true)
    (unmuted : (set owner player false s).2.service.muted player = false) :
    Clear (set owner player false s).2 player := by
  have inv₁ := keeps_current player s inv
  have live := (current_spec inv.1.sound player).2.1
  simp only [set, bind_run] at succeeded unmuted ⊢
  generalize current player s = outcome at inv₁ live succeeded unmuted
  obtain ⟨result, s₁⟩ := outcome
  cases result with
  | ok =>
      simp only [Bool.false_eq_true, if_false, bind_run, modify_run] at succeeded unmuted ⊢
      have inv₂ : Inv { s₁ with
          service.owners := forget s₁.service.owners owner player.slot } := inv₁
      generalize ({ s₁ with
        service.owners := forget s₁.service.owners owner player.slot } : Sys) = s₂
        at inv₂ succeeded unmuted
      have inv₃ := keeps_removed owner player s₂ inv₂
      have shrunk := (restore_clears inv₃ owner (some player) []).1
      have before : s₂.service.muted player = false := by
        rw [← muted_congr (shrunk.owners.trans (removed_owners owner player s₂)) player]
        exact unmuted
      refine restore_clear inv₃ succeeded (Or.inr (removed_owed before)) ?_ ?_
      · intro other is_player
        cases Option.mem_some_iff.mp is_player
        have has := live rfl
        exact World.has_unique rfl has has
      · rw [muted_congr (removed_owners owner player s₂)]
        exact before
  | _ => cases succeeded

theorem forM_preserves {α : Type} {f : α → M PUnit} {P : Sys → Prop} : ∀ list : List α,
    (∀ b ∈ list, ∀ s, P s → P (f b s).2) → ∀ s, P s → P (list.forM f s).2 := by
  intro list
  induction list with
  | nil => exact fun _ s holds => holds
  | cons b rest ih =>
      intro keep s holds
      exact ih (fun c member => keep c (List.mem_cons_of_mem _ member)) _
        (keep b List.mem_cons_self s holds)

/-- What one element of the loop brings about, and the others leave alone. -/
theorem forM_reaches {α : Type} {f : α → M PUnit} {U P : Sys → Prop} {a : α} :
    ∀ list : List α, a ∈ list → (∀ b ∈ list, ∀ s, U s → U (f b s).2) →
      (∀ b ∈ list, ∀ s, P s → P (f b s).2) → (∀ s, U s → P (f a s).2) →
        ∀ s, U s → P (list.forM f s).2 := by
  intro list
  induction list with
  | nil => intro member; cases member
  | cons b rest ih =>
      intro member keepU keepP gets s start
      have restU := fun c member => keepU c (List.mem_cons_of_mem b member)
      have restP := fun c member => keepP c (List.mem_cons_of_mem b member)
      rcases List.mem_cons.mp member with rfl | member
      · exact forM_preserves rest restP _ (gets s start)
      · exact ih member restU restP gets _ (keepU b List.mem_cons_self s start)

theorem removedAll_owners (gone : Owners) (s : Sys) :
    (removedAll gone s).2.service.owners = s.service.owners := by
  refine forM_preserves (P := fun t => t.service.owners = s.service.owners) _ ?_ s rfl
  rintro ⟨id, players⟩ - t same
  refine forM_preserves (P := fun t => t.service.owners = s.service.owners) _ ?_ t same
  rintro ⟨slot, player⟩ - t same
  exact (removed_owners id player t).trans same

theorem removedAll_owed {gone : Owners} {owner : Nat} {slot : Int} {players : Std.ExtTreeMap Int Player}
    {found player : Player} (only : ∀ item ∈ gone.toList, item.1 = owner)
    (at_ : gone[owner]? = some players) (there : players[slot]? = some found)
    (same : found.sameConnection player = true) {s : Sys}
    (unmuted : s.service.muted player = false) :
    Owed (removedAll gone s).2 owner player := by
  have still (id : Nat) (other : Player) (t : Sys) (before : t.service.muted player = false) :
      (removed id other t).2.service.muted player = false :=
    (muted_congr (removed_owners id other t) player).trans before
  unfold removedAll
  refine forM_reaches (U := fun t => t.service.muted player = false)
    (P := fun t => Owed t owner player) (a := (owner, players)) _
    (Std.ExtTreeMap.mem_toList_iff_getElem?_eq_some.mpr at_) ?_ ?_ ?_ s unmuted
  · rintro ⟨id, others⟩ - t before
    exact forM_preserves (P := fun t => t.service.muted player = false) _
      (fun item _ t before => still id item.2 t before) t before
  · rintro ⟨id, others⟩ member t owed
    cases only _ member
    exact forM_preserves (P := fun t => Owed t id player) _
      (fun item _ t owed => removed_keeps_owed item.2 owed) t owed
  · intro t before
    refine forM_reaches (U := fun t => t.service.muted player = false)
      (P := fun t => Owed t owner player) (a := (slot, found)) _
      (Std.ExtTreeMap.mem_toList_iff_getElem?_eq_some.mpr there)
      (fun item _ t before => still owner item.2 t before)
      (fun item _ t owed => removed_keeps_owed item.2 owed) ?_ t before
    intro t before key pair placed sent
    have unheard := (muted_same t.service same).trans before
    exact removed_owed unheard key pair placed
      (Player.sameConnection_trans sent (Player.sameConnection_symm same))

/-- The state of `Release` when the owners it releases are gone. -/
def released (s : Sys) (owner : Nat) : Sys :=
  { s with service := { s.service.unpark owner with
    owners := (s.service.unpark owner).owners.filter fun id _ => ¬ (owner = 0 ∨ id = owner) } }

theorem release_run (owner : Nat) (s : Sys) :
    release owner s = restore owner none [] (removedAll
      ((s.service.unpark owner).owners.filter fun id _ => owner = 0 ∨ id = owner)
      (released s owner)).2 := rfl

theorem release_clear {s : Sys} (inv : Inv s) {owner : Nat} {player : Player}
    (held : owner = 0 ∨ ∃ (players : Std.ExtTreeMap Int Player) (slot : Int) (found : Player),
      s.service.owners[owner]? = some players ∧ players[slot]? = some found ∧
        found.sameConnection player = true)
    (succeeded : (release owner s).1.success = true)
    (unmuted : (release owner s).2.service.muted player = false) :
    Clear (release owner s).2 player := by
  rw [release_run] at succeeded unmuted ⊢
  have owners : (s.service.unpark owner).owners = s.service.owners := by
    unfold Service.unpark
    split <;> rfl
  rw [owners] at succeeded unmuted ⊢
  have inv₂ : Inv (released s owner) := unpark_inv inv owner
  have inv₃ := keeps_removedAll (s.service.owners.filter fun id _ => owner = 0 ∨ id = owner) _ inv₂
  have kept := (restore_clears inv₃ owner none []).1.owners
  have before : (released s owner).service.muted player = false := by
    rw [← muted_congr (kept.trans (removedAll_owners _ _)) player]
    exact unmuted
  refine restore_clear inv₃ succeeded ?_ (by simp) ?_
  · by_cases all : owner = 0
    · exact Or.inl all
    · obtain ⟨players, slot, found, at_, there, same⟩ := held.resolve_left all
      refine Or.inr (removedAll_owed ?_ ?_ there same before)
      · rintro ⟨id, others⟩ member
        rw [Std.ExtTreeMap.mem_toList_iff_getElem?_eq_some, Std.ExtTreeMap.getElem?_filter',
          Option.filter_eq_some_iff] at member
        simpa [all] using member.2
      · rw [Std.ExtTreeMap.getElem?_filter', at_]
        simp
  · rw [muted_congr (removedAll_owners _ _)]
    exact before

theorem suspend_clear {s : Sys} (inv : Inv s) (active : s.service.suspended = false)
    (succeeded : (suspend s).1.success = true) (player : Player) :
    Clear (suspend s).2 player := by
  let idle : Sys := { s with service.owners := ∅ }
  have inv₁ : Inv idle := inv
  have ran : suspend s = (do
      let out ← restore 0 none []
      if out.success then
        modify fun t => { t with service.parked := s.service.owners, service.suspended := true }
        return out
      else
        modify fun t => { t with service.owners := s.service.owners }
        let _ ← refresh
        return out : M Outcome) idle := by
    unfold suspend
    rw [bind_get_run, active]
    rfl
  rw [ran, bind_run] at succeeded ⊢
  by_cases restored : (restore 0 none [] idle).1.success = true
  · rw [if_pos restored]
    exact restore_clear inv₁ restored (Or.inl rfl) (by simp) (unmuted_of_empty rfl player)
  · rw [if_neg restored] at succeeded
    exact absurd succeeded restored

/-! ## Refresh -/

/-- No mute of the connection is held before a loop, so none is after it. -/
structure Swept (s later : Sys) : Prop where
  held : ∀ player, Held later.service player → Held s.service player
  pairs : later.service.pairs = s.service.pairs

theorem forget_held {v : Service} {owner : Nat} {slot : Int} {player : Player}
    (held : Held { v with owners := forget v.owners owner slot } player) : Held v player := by
  obtain ⟨id, players, at_, found, placed, there, same⟩ := held
  simp only [forget, Std.ExtTreeMap.getElem?_alter] at placed
  by_cases this : compare owner id = .eq
  · rw [if_pos this] at placed
    obtain ⟨before, owned, left⟩ := Option.bind_eq_some_iff.mp placed
    split at left
    · cases left
    · cases Option.some.inj left
      rw [Std.ExtTreeMap.getElem?_erase] at there
      split at there
      · cases there
      · exact ⟨owner, before, at_, found, owned, there, same⟩
  · rw [if_neg this] at placed
    exact ⟨id, players, at_, found, placed, there, same⟩

theorem sweep_swept {s : Sys} (inv : Inv s) (owner : Nat)
    (acc : Std.ExtTreeMap Int Player × Outcome) (item : Int × Player) :
    Swept s (sweep owner acc item s).2 := by
  have service := (current_spec inv.1.sound item.2).1.service
  simp only [sweep, bind_run]
  generalize current item.2 s = outcome at service
  obtain ⟨result, s₁⟩ := outcome
  have same : s₁.service = s.service := service
  cases result with
  | notFound =>
      simp only [bind_run, modify_run, pure_run, same]
      exact ⟨fun player held => forget_held held, rfl⟩
  | _ =>
      simp only [pure_run]
      exact ⟨fun player held => by rwa [same] at held, by rw [same]⟩

/-- The senders a sweep collects are players it was given. -/
theorem sweep_senders {s : Sys} {owner : Nat} {acc : Std.ExtTreeMap Int Player × Outcome}
    {item : Int × Player} {P : Player → Prop} (given : P item.2)
    (before : ∀ (slot : Int) (sender : Player), acc.1[slot]? = some sender → P sender) :
    ∀ (slot : Int) (sender : Player), (sweep owner acc item s).1.1[slot]? = some sender →
      P sender := by
  simp only [sweep, bind_run]
  generalize current item.2 s = outcome
  obtain ⟨result, s₁⟩ := outcome
  cases result with
  | ok =>
      intro slot sender at_
      simp only [pure_run, Std.ExtTreeMap.getElem?_insert] at at_
      split at at_
      · cases at_
        exact given
      · exact before slot sender at_
  | _ => exact before

theorem foldlM_rule {α β : Type} {f : β → α → M β} {P : Sys → β → Prop} :
    ∀ (list : List α), (∀ a ∈ list, ∀ s b, P s b → P (f b a s).2 (f b a s).1) →
      ∀ s b, P s b → P (list.foldlM f b s).2 (list.foldlM f b s).1 := by
  intro list
  induction list with
  | nil => exact fun _ s b holds => holds
  | cons a rest ih =>
      intro keep s b holds
      rw [List.foldlM_cons, bind_run]
      exact ih (fun c member => keep c (List.mem_cons_of_mem _ member)) _ _
        (keep a List.mem_cons_self s b holds)

/-- After the sweeps of `Refresh`. -/
structure Sweeping (s₀ s : Sys) (acc : Std.ExtTreeMap Int Player × Outcome) : Prop where
  inv : Inv s
  held : ∀ player, Held s.service player → Held s₀.service player
  senders : ∀ (slot : Int) (sender : Player), acc.1[slot]? = some sender →
    ∀ player, sender.sameConnection player = true → Held s₀.service player

theorem sweeps {s : Sys} (inv : Inv s) :
    Sweeping s (sweepAll s.service.owners s).2 (sweepAll s.service.owners s).1 := by
  unfold sweepAll
  refine foldlM_rule (P := fun t acc => Sweeping s t acc) _ ?_ s _ ⟨inv, fun _ => id, by simp⟩
  rintro ⟨owner, players⟩ owned t acc sweeping
  refine foldlM_rule (P := fun t acc => Sweeping s t acc) _ ?_ t acc sweeping
  rintro ⟨slot, found⟩ there t acc sweeping
  have swept := sweep_swept sweeping.inv owner acc (slot, found)
  refine ⟨keeps_sweep owner acc _ t sweeping.inv,
    fun player held => sweeping.held player (swept.held player held), ?_⟩
  apply sweep_senders (P := fun sender => ∀ player, sender.sameConnection player = true →
    Held s.service player) _ sweeping.senders
  intro player same
  exact ⟨owner, players, slot, found, Std.ExtTreeMap.mem_toList_iff_getElem?_eq_some.mp owned,
    Std.ExtTreeMap.mem_toList_iff_getElem?_eq_some.mp there, same⟩

/-- `Apply` enters pairs of its own sender only. -/
theorem applyTo_clear {s : Sys} (inv : Inv s) {sender player : Player} (receiver : Player)
    (out : Outcome) (clear : Clear s player) (other : sender.sameConnection player = false) :
    Clear (applyTo sender receiver out s).2 player := by
  have restricted (t : Sys) (pair : Pair) (sound : t.world.Sound) (before : Clear t player) :
      Clear (restrict sender pair out t).2 player := by
    have service := (write_spec sound pair false).service
    have wrote : Clear (write pair false t).2 player := by
      unfold Clear
      rw [service]
      exact before
    simp only [restrict, bind_get_run]
    split
    · exact before
    · simp only [bind_run]
      split <;> exact wrote
  have unchanged (t u : Sys) (same : u.service = t.service) (before : Clear t player) :
      Clear u player := by
    unfold Clear
    rw [same]
    exact before
  have looked := (currentPair_spec inv.1.sound { receiver, sender }).1
  have lookedInv := looked.inv inv
  have lookedClear := unchanged s _ looked.service clear
  simp only [applyTo, bind_run]
  generalize currentPair { receiver, sender } s = outcome at lookedInv lookedClear
  obtain ⟨result, s₁⟩ := outcome
  cases result with
  | ok =>
    simp only [bind_get_run]
    cases s₁.service.found (Pair.key { receiver, sender }) { receiver, sender } with
    | some existing => exact restricted s₁ existing lookedInv.1.sound lookedClear
    | none =>
        have reading := (getListening_spec lookedInv.1.sound receiver sender).1
        have readInv := reading.inv lookedInv
        have readClear := unchanged s₁ _ reading.service lookedClear
        simp only [bind_run]
        generalize getListening receiver sender s₁ = outcome at readInv readClear
        obtain ⟨answer, s₂⟩ := outcome
        cases answer with
        | error result => exact readClear
        | ok requested =>
            have checking := (currentPair_spec readInv.1.sound { receiver, sender, requested }).1
            have checkedInv := checking.inv readInv
            have checkedClear := unchanged s₂ _ checking.service readClear
            simp only [bind_run]
            generalize currentPair { receiver, sender, requested } s₂ = outcome
              at checkedInv checkedClear
            obtain ⟨result, s₃⟩ := outcome
            cases result with
            | ok =>
                simp only [bind_run, modify_run]
                refine restricted _ _ checkedInv.1.sound ?_
                intro key pair at_
                rw [Std.ExtTreeMap.getElem?_insert] at at_
                split at at_
                · cases at_
                  exact other
                · exact checkedClear key pair at_
            | _ => exact checkedClear
  | _ => exact lookedClear

theorem applyFrom_clear {sender player : Player} (other : sender.sameConnection player = false) :
    ∀ (remaining : Nat) (after : Int) (out : Outcome) (s : Sys), Inv s → Clear s player →
      Clear (applyFrom sender remaining after out s).2 player := by
  intro remaining
  induction remaining with
  | zero =>
      intro after out s inv clear
      have waited := nextPlayer_spec inv.1.sound after
      have still : Clear (nextPlayer after s).2 player := by
        unfold Clear
        rw [waited.service]
        exact clear
      rw [applyFrom, bind_run]
      generalize nextPlayer after s = outcome at still
      obtain ⟨answer, s₁⟩ := outcome
      cases answer with
      | error result => cases result <;> exact still
      | ok receiver => simpa [pure_run] using still
  | succ remaining ih =>
      intro after out s inv clear
      have waited := nextPlayer_spec inv.1.sound after
      have inv₁ := waited.inv inv
      have still : Clear (nextPlayer after s).2 player := by
        unfold Clear
        rw [waited.service]
        exact clear
      rw [applyFrom, bind_run]
      generalize nextPlayer after s = outcome at inv₁ still
      obtain ⟨answer, s₁⟩ := outcome
      cases answer with
      | error result => cases result <;> exact still
      | ok receiver =>
          by_cases late : receiver.slot ≤ after
          · simp only [if_pos late]
            exact still
          · simp only [if_neg late]
            exact ih _ _ _ (keeps_applyTo sender receiver out s₁ inv₁)
              (applyTo_clear inv₁ receiver out still other)

theorem enforceAll_success : ∀ (senders : List (Int × Player)) (out : Outcome) (s : Sys),
    (senders.foldlM enforce out s).1.success = true → out.success = true := by
  intro senders
  induction senders with
  | nil => exact fun out s succeeded => succeeded
  | cons item rest ih =>
      intro out s succeeded
      rw [List.foldlM_cons, bind_run] at succeeded
      have earlier := ih _ _ succeeded
      simp only [enforce, bind_run, pure_run, Bool.and_eq_true] at earlier
      exact earlier.1

theorem refresh_clear {s : Sys} (inv : Inv s) {player : Player} (lifted : ¬ Held s.service player)
    (succeeded : (refresh s).1.success = true) : Clear (refresh s).2 player := by
  have swept := sweeps inv
  have ran : refresh s = (do
      let acc ← sweepAll s.service.owners
      let restored ← restore 0 none acc.2.error
      acc.1.toList.foldlM enforce
        { restored with success := acc.2.success && restored.success } : M Outcome) s := by
    unfold refresh
    rw [bind_get_run]
  rw [ran, bind_run, bind_run] at succeeded ⊢
  generalize sweepAll s.service.owners s = outcome at swept succeeded
  obtain ⟨⟨senders, out⟩, s₁⟩ := outcome
  have restored : (restore 0 none out.error s₁).1.success = true :=
    (Bool.and_eq_true_iff.mp (enforceAll_success _ _ _ succeeded)).2
  have unmuted : s₁.service.muted player = false := by
    rw [Bool.eq_false_iff]
    exact fun muted => lifted (swept.held player (held_of_muted muted))
  have clear := restore_clear swept.inv restored (Or.inl rfl) (by simp) unmuted
  have inv₂ := keeps_restore 0 none out.error s₁ swept.inv
  refine (foldlM_rule (P := fun t _ => Inv t ∧ Clear t player) senders.toList ?_ _ _
    ⟨inv₂, clear⟩).2
  rintro ⟨slot, sender⟩ member t before ⟨inv, clear⟩
  have other : sender.sameConnection player = false := by
    rw [Bool.eq_false_iff]
    exact fun same => lifted (swept.senders slot sender
      (Std.ExtTreeMap.mem_toList_iff_getElem?_eq_some.mp member) player same)
  exact ⟨keeps_enforce before _ t inv, applyFrom_clear other 128 (-1) _ t inv clear⟩

/-! ## The protocol -/

/-- The label lifts mutes of the player or retries what a lift left undone. -/
inductive Lifts (s : Sys) : Label → Player → Prop
  | set (owner : Nat) (player : Player) (replies : List Reply) :
      Lifts s (.set owner player false replies) player
  | release {owner : Nat} {player : Player} {replies : List Reply}
      (held : owner = 0 ∨ ∃ (players : Std.ExtTreeMap Int Player) (slot : Int) (found : Player),
        s.service.owners[owner]? = some players ∧ players[slot]? = some found ∧
          found.sameConnection player = true) : Lifts s (.release owner replies) player
  | refresh {player : Player} {replies : List Reply} (lifted : ¬ Held s.service player) :
      Lifts s (.refresh replies) player
  | suspend {player : Player} {replies : List Reply} (active : s.service.suspended = false) :
      Lifts s (.suspend replies) player

theorem lifts_clear {s : Sys} (inv : Inv s) {label : Label} {player : Player}
    (lifts : Lifts s label player) (succeeded : (step s label).1.success = true)
    (unmuted : (step s label).2.service.muted player = false) :
    Clear (step s label).2 player := by
  have ready : Inv { s with replies := label.replies } := inv
  cases lifts with
  | set owner _ replies => exact set_clear ready succeeded unmuted
  | release held => exact release_clear ready held succeeded unmuted
  | refresh lifted => exact refresh_clear ready lifted succeeded
  | suspend active => exact suspend_clear ready active succeeded player

/-- After every run the service remembers the last outside request of every pair
of connections or leaves the engine at it, and a lift that succeeds leaves every
receiver of the sender with the engine's value. -/
theorem voice_no_lost_restore (history : List Label) (s : Sys)
    (ran : Transition.run next {} history = some s) :
    (∀ receiver sender, s.world.has receiver = true → s.world.has sender = true →
      match entry s.service.pairs receiver sender with
      | some pair => pair.requested = s.world.requested receiver.slot sender.slot
      | none => s.world.listening receiver.slot sender.slot =
          s.world.requested receiver.slot sender.slot) ∧
    ∀ label player, Lifts s label player → (step s label).1.success = true →
      (step s label).2.service.muted player = false →
        ∀ receiver, (step s label).2.world.has receiver = true →
          (step s label).2.world.has player = true →
            (step s label).2.world.listening receiver.slot player.slot =
              (step s label).2.world.requested receiver.slot player.slot := by
  have inv := inv_run history s ran
  refine ⟨?_, ?_⟩
  · intro receiver sender hasReceiver hasSender
    have agrees := inv.1.agrees receiver sender hasReceiver hasSender
    unfold remembered at agrees
    cases found : entry s.service.pairs receiver sender <;> simpa [found] using agrees
  · intro label player lifts succeeded unmuted receiver hasReceiver hasSender
    exact (lifts_clear inv lifts succeeded unmuted).heard (step_inv inv label) hasReceiver hasSender

/-- A mute whose write failed, then a request of the game. -/
def mutedRun : List Label := [
  .move [.join { slot := 0, connection := 10 } fun _ _ => true,
    .join { slot := 1, connection := 11 } fun _ _ => false],
  .set 7 { slot := 0, connection := 10 } true [{}, {}, {}, {}, {}, {}, {}, {}, {}, {},
    { fault := some .engineFailure }],
  .request 1 0 true []]

theorem voice_no_lost_restore_unmuted :
    ∃ s, Transition.run next {} mutedRun = some s ∧
      s.world.listening 1 0 = false ∧ s.world.requested 1 0 = true ∧
      (step s (.set 7 { slot := 0, connection := 10 } false [])).2.world.listening 1 0 =
        (step s (.set 7 { slot := 0, connection := 10 } false [])).2.world.requested 1 0 :=
  ⟨_, rfl, by decide +kernel, by decide +kernel,
    (voice_no_lost_restore mutedRun _ rfl).2 _ { slot := 0, connection := 10 } (.set 7 _ [])
      (by decide +kernel) (by decide +kernel) { slot := 1, connection := 11 } (by decide +kernel)
      (by decide +kernel)⟩

end Source2Root.Voice
