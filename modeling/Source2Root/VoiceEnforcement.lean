import Source2Root.VoiceBooks

/-!
# A mute is enforced while anybody holds it

No operation of the service makes a receiver hear a sender whom some owner
mutes, except a suspension, which lifts every mute on purpose and may stop half
way.  A mute or a refresh that succeeds makes every receiver deaf to the sender;
from then on the sender stays unheard as long as some owner holds the mute.
-/

set_option autoImplicit false

namespace Source2Root.Voice

variable {sender : Player}

/-! ## Whole operations -/

/-- No receiver begins to hear the sender, and no call asks for it. -/
structure Muffled (sender : Player) (s later : Sys) : Prop where
  hushed : Hushed sender s.world later.world
  quiet : Quiet sender s later

theorem Muffled.refl (s : Sys) : Muffled sender s s := ⟨Hushed.refl _, Quiet.of_calls rfl⟩

theorem Muffled.trans {a b c : Sys} (ab : Muffled sender a b) (bc : Muffled sender b c) :
    Muffled sender a c :=
  ⟨ab.hushed.trans bc.hushed, ab.quiet.trans bc.quiet⟩

theorem Spared.muffled {s later : Sys} (spared : Spared sender s later) : Muffled sender s later :=
  ⟨spared.hushed, spared.quiet⟩

theorem Waited.muffled {s later : Sys} (waited : Waited s later) : Muffled sender s later :=
  waited.spared.muffled

/-- The end of an operation that takes mutes back: a sender who is muted then
was muted during the whole of it. -/
theorem restored_muffled {s t : Sys} (inv : Inv t) {owner : Nat} {only : Option Player}
    {error : ErrorText} (before : Muffled sender s t)
    (muted : (restore owner only error t).2.service.muted sender = true) :
    Muffled sender s (restore owner only error t).2 := by
  rw [muted_congr (restore_owners inv owner only error)] at muted
  exact before.trans (restore_spared inv muted owner only error).muffled

theorem set_muffled {s : Sys} (inv : Inv s) {owner : Nat} {player : Player} {muted : Bool}
    (held : (set owner player muted s).2.service.muted sender = true) :
    Muffled sender s (set owner player muted s).2 := by
  have looked := (current_spec inv.1.sound player).1
  have inv₁ := looked.inv inv
  have first : Muffled sender s (current player s).2 := looked.muffled
  simp only [set, bind_run] at held ⊢
  generalize current player s = outcome at inv₁ first held
  obtain ⟨result, s₁⟩ := outcome
  cases result with
  | ok =>
      cases muted with
      | false =>
          simp only [Bool.false_eq_true, if_false, bind_run, modify_run] at held ⊢
          have inv₂ : Inv { s₁ with
              service.owners := forget s₁.service.owners owner player.slot } := inv₁
          refine restored_muffled (keeps_removed owner player _ inv₂) ?_ held
          have forgotten : Muffled sender s { s₁ with
              service.owners := forget s₁.service.owners owner player.slot } :=
            ⟨first.hushed, first.quiet⟩
          exact forgotten.trans (removed_spares sender owner player _ inv₂).muffled
      | true =>
          have reading := (getListening_spec inv₁.1.sound player player).1
          have inv₂ := reading.inv inv₁
          have second := first.trans reading.muffled
          simp only [if_true, bind_run] at held ⊢
          generalize getListening player player s₁ = outcome at inv₂ second held
          obtain ⟨answer, s₂⟩ := outcome
          cases answer with
          | error result => exact second
          | ok value =>
              have checking := (current_spec inv₂.1.sound player).1
              have inv₃ := checking.inv inv₂
              have third := second.trans checking.muffled
              simp only [bind_run] at held ⊢
              generalize current player s₂ = outcome at inv₃ third held
              obtain ⟨result, s₃⟩ := outcome
              cases result with
              | ok =>
                  simp only [bind_run, modify_run]
                  have inv₄ : Inv { s₃ with
                    service.owners := recorded s₃.service.owners owner player } := inv₃
                  have written : Muffled sender s { s₃ with
                    service.owners := recorded s₃.service.owners owner player } :=
                    ⟨third.hushed, third.quiet⟩
                  have applied := (apply_spares sender player [] _ inv₄).muffled
                  split <;> exact written.trans applied
              | _ => exact third
  | _ => exact first

theorem release_muffled {s : Sys} (inv : Inv s) {owner : Nat}
    (held : (release owner s).2.service.muted sender = true) :
    Muffled sender s (release owner s).2 := by
  rw [release_run] at held ⊢
  have inv₁ : Inv (released s owner) := unpark_inv inv owner
  have same : Muffled sender s (released s owner) := ⟨Hushed.refl _, Quiet.of_calls rfl⟩
  refine restored_muffled (keeps_removedAll _ _ inv₁) ?_ held
  exact same.trans (removedAll_spares sender _ _ inv₁).muffled

theorem sweep_hushed (sender : Player) {s : Sys} (inv : Inv s) (owner : Nat)
    (acc : Std.ExtTreeMap Int Player × Outcome) (item : Int × Player) :
    Hushed sender s.world (sweep owner acc item s).2.world := by
  have looked : Hushed sender s.world (current item.2 s).2.world :=
    (current_spec inv.1.sound item.2).1.moved.hushed
  simp only [sweep, bind_run]
  generalize current item.2 s = outcome at looked
  obtain ⟨result, s₁⟩ := outcome
  cases result <;> exact looked

theorem sweepAll_hushed {s : Sys} (inv : Inv s) (owners : Owners) :
    Hushed sender s.world (sweepAll owners s).2.world := by
  unfold sweepAll
  refine (foldlM_rule (P := fun t _ => Inv t ∧ Hushed sender s.world t.world) _ ?_ s _
    ⟨inv, Hushed.refl _⟩).2
  rintro ⟨owner, players⟩ - t acc start
  refine foldlM_rule (P := fun t _ => Inv t ∧ Hushed sender s.world t.world) _ ?_ t acc start
  rintro item - t acc ⟨tInv, hushed⟩
  exact ⟨keeps_sweep owner acc item t tInv, hushed.trans (sweep_hushed _ tInv owner acc item)⟩

theorem refreshFrom_hushed {s : Sys} (inv : Inv s) {senders : Std.ExtTreeMap Int Player}
    {swept : Outcome} (held : s.service.muted sender = true) :
    Hushed sender s.world (refreshFrom senders swept s).2.world := by
  simp only [refreshFrom, bind_run]
  exact (restore_spared inv held 0 none _).hushed.trans
    (enforceAll_spares _ senders.toList _ _ (keeps_restore 0 none _ s inv)).hushed

theorem refresh_hushed {s : Sys} (inv : Inv s)
    (held : (refresh s).2.service.muted sender = true) :
    Hushed sender s.world (refresh s).2.world := by
  have swept := (sweeps inv).inv
  rw [refresh_run] at held ⊢
  rw [muted_congr (congrArg Prod.fst (refreshFrom_books swept _ _).1)] at held
  exact (sweepAll_hushed inv _).trans (refreshFrom_hushed swept held)

theorem hear_request_hushed {w : World} {receiver speaker : Player} {asked value : Bool}
    (hasSpeaker : w.has speaker = true)
    (harmless : value = false ∨ speaker.sameConnection sender = false) :
    Hushed sender w ((w.request receiver.slot speaker.slot asked).hear receiver.slot speaker.slot
      value) := by
  have asking : Hushed sender w (w.request receiver.slot speaker.slot asked) :=
    ⟨⟨fun _ => id, fun _ _ => id⟩, fun _ _ _ _ _ => id⟩
  exact asking.trans (Hushed.hear hasSpeaker harmless)

theorem request_hushed {s : Sys} (inv : Inv s) (still : Still s) (receiver speaker : Int)
    (listening : Bool) (held : s.service.muted sender = true) :
    Hushed sender s.world (request receiver speaker listening s).2.world := by
  obtain ⟨world, observed, -⟩ := filter_still still inv.2 receiver speaker listening
  simp only [request, bind_run]
  generalize filter receiver speaker listening s = outcome at world observed
  obtain ⟨⟨result, value⟩, later⟩ := outcome
  have same : later.world = s.world := world
  by_cases ok : result = .ok
  · obtain ⟨hearer, talker, hearerAt, talkerAt, answer⟩ := observed ok
    simp only [if_pos ok, bind_run, modify_run, pure_run, same]
    obtain rfl : hearer.slot = receiver := inv.1.sound.placed _ _ hearerAt
    obtain rfl : talker.slot = speaker := inv.1.sound.placed _ _ talkerAt
    apply hear_request_hushed (inv.1.sound.has_of_placed talkerAt)
    by_cases same_sender : talker.sameConnection sender = true
    · left
      have silenced : s.service.muted talker = true := by
        rw [muted_same s.service same_sender, held]
      have first := congrArg Prod.fst answer
      simpa [Service.observe, silenced] using first
    · exact Or.inr (by simpa using same_sender)
  · simp only [if_neg ok, pure_run, same]
    exact Hushed.refl _

/-- The operation is a suspension that the host refuses. -/
def Stopped (s : Sys) : Label → Prop
  | .suspend replies => s.service.suspended = false ∧ (step s (.suspend replies)).1.success = false
  | _ => False

/-- Any other operation: no receiver begins to hear a sender who is muted before
and after it. -/
theorem step_hushed {s : Sys} (inv : Inv s) {label : Label} (calm : ¬ Stopped s label)
    (before : s.service.muted sender = true)
    (after : (step s label).2.service.muted sender = true) :
    Hushed sender s.world (step s label).2.world := by
  have ready : Inv { s with replies := label.replies } := inv
  cases label with
  | set owner player muted replies => exact (set_muffled ready after).hushed
  | release owner replies => exact (release_muffled ready after).hushed
  | refresh replies => exact refresh_hushed ready after
  | suspend replies =>
      change (suspend { s with replies }).2.service.muted sender = true at after
      cases suspended : s.service.suspended with
      | true =>
          have ran := suspend_again (s := { s with replies }) suspended
          rw [ran] at after
          change Hushed sender s.world (suspend { s with replies }).2.world
          rw [ran]
          exact (restored_muffled ready (Muffled.refl { s with replies }) after).hushed
      | false =>
          have succeeded : (suspend { s with replies }).1.success = true := by
            rw [← Bool.not_eq_false]
            exact fun failed => calm ⟨suspended, failed⟩
          -- a suspension that succeeds leaves nobody muted
          have books := suspended_of_success (s := { s with replies }) inv suspended succeeded
          rw [unmuted_of_empty (books_eq books).1] at after
          cases after
  | resume replies =>
      have later := refresh_hushed (resumed_inv ready) after
      rw [resumed_world] at later
      exact later
  | request receiver speaker listening faults =>
      refine request_hushed ready ?_ receiver speaker listening before
      intro reply member
      obtain ⟨fault, -, rfl⟩ := List.mem_map.mp member
      rfl
  | disconnected slot connection => exact (depart_gone inv.1.sound slot connection).1.hushed
  | move changes => exact (moved_moves changes inv.1.sound).hushed

/-! ## An operation and the mutes of the other owners -/

theorem holds_congr {v w : Service} (same : w.owners = v.owners) {owner : Nat} {player : Player}
    (holds : Holds v owner player) : Holds w owner player := by
  unfold Holds
  rw [same]
  exact holds

theorem forget_holds {v : Service} {owner other : Nat} {slot : Int} {player : Player}
    (apart : other ≠ owner) (holds : Holds v other player) :
    Holds { v with owners := forget v.owners owner slot } other player := by
  obtain ⟨players, found, owned, at_, same⟩ := holds
  refine ⟨players, found, ?_, at_, same⟩
  have key : ¬ compare owner other = .eq := by
    rw [Std.LawfulEqOrd.compare_eq_iff_eq]
    exact fun equal => apart equal.symm
  simpa [forget, Std.ExtTreeMap.getElem?_alter, key] using owned

theorem released_holds {s : Sys} {owner other : Nat} {player : Player} (nonzero : owner ≠ 0)
    (apart : other ≠ owner) (holds : Holds s.service other player) :
    Holds (released s owner).service other player := by
  obtain ⟨players, found, owned, at_, same⟩ := holds
  refine ⟨players, found, ?_, at_, same⟩
  have unparked : (s.service.unpark owner).owners = s.service.owners := by
    unfold Service.unpark
    split <;> rfl
  simp only [released, unparked]
  rw [Std.ExtTreeMap.getElem?_filter', Option.filter_eq_some_iff]
  exact ⟨owned, by simp [nonzero, apart]⟩

/-- The label takes back one owner's mutes: of one player or all of them. -/
def Label.takesBack (owner : Nat) : Label → Prop
  | .set id _ false _ => id = owner
  | .release id _ => id = owner ∧ id ≠ 0
  | _ => False

theorem set_holds {s : Sys} (inv : Inv s) {owner other : Nat} {lifted player : Player}
    (apart : other ≠ owner) (holds : Holds s.service other player) :
    Holds (set owner lifted false s).2.service other player := by
  have looked := (current_spec inv.1.sound lifted).1
  have inv₁ := looked.inv inv
  have holds₁ : Holds (current lifted s).2.service other player :=
    holds_congr (by rw [looked.service]) holds
  simp only [set, bind_run]
  generalize current lifted s = outcome at inv₁ holds₁
  obtain ⟨result, s₁⟩ := outcome
  cases result with
  | ok =>
      simp only [Bool.false_eq_true, if_false, bind_run, modify_run]
      have inv₂ : Inv { s₁ with
        service.owners := forget s₁.service.owners owner lifted.slot } := inv₁
      have kept := (restore_owners (keeps_removed owner lifted _ inv₂) owner (some lifted) []).trans
        (removed_owners owner lifted _)
      exact holds_congr kept (forget_holds apart holds₁)
  | _ => exact holds₁

theorem release_holds {s : Sys} (inv : Inv s) {owner other : Nat} {player : Player}
    (nonzero : owner ≠ 0) (apart : other ≠ owner) (holds : Holds s.service other player) :
    Holds (release owner s).2.service other player := by
  have inv₁ : Inv (released s owner) := unpark_inv inv owner
  rw [release_run]
  exact holds_congr ((restore_owners (keeps_removedAll _ _ inv₁) owner none []).trans
    (removedAll_owners _ _)) (released_holds nonzero apart holds)

theorem takesBack_holds {s : Sys} (inv : Inv s) {label : Label} {owner other : Nat}
    {player : Player} (takes : label.takesBack owner) (apart : other ≠ owner)
    (holds : Holds s.service other player) : Holds (step s label).2.service other player := by
  have ready : Inv { s with replies := label.replies } := inv
  cases label with
  | set id lifted muted replies =>
      cases muted with
      | true => exact takes.elim
      | false =>
          obtain rfl : id = owner := takes
          exact set_holds ready apart holds
  | release id replies =>
      obtain ⟨rfl, nonzero⟩ := takes
      exact release_holds ready nonzero apart holds
  | _ => exact takes.elim

/-- Taking back one owner's mutes asks for nobody to hear a sender who is still muted. -/
theorem takesBack_quiet {s : Sys} (inv : Inv s) {label : Label} {owner : Nat}
    (takes : label.takesBack owner) (after : (step s label).2.service.muted sender = true) :
    Quiet sender s (step s label).2 := by
  have ready : Inv { s with replies := label.replies } := inv
  cases label with
  | set id lifted muted replies => exact (set_muffled ready after).quiet
  | release id replies => exact (release_muffled ready after).quiet
  | _ => exact takes.elim

/-! ## Operations that cover every receiver -/

/-- Every receiver who was there and still is does not hear the sender; the
engine numbers its slots from zero. -/
def Deafened (sender : Player) (w later : World) : Prop :=
  ∀ receiver, 0 ≤ receiver.slot → w.known receiver → later.has receiver = true →
    later.has sender = true → later.listening receiver.slot sender.slot = false

theorem hushed_unheard {w later : World} (hushed : Hushed sender w later) {receiver : Player}
    (known : w.known receiver) (knownSender : w.known sender)
    (unheard : w.has receiver = true → w.has sender = true →
      w.listening receiver.slot sender.slot = false)
    (hasReceiver : later.has receiver = true) (hasSender : later.has sender = true) :
    later.listening receiver.slot sender.slot = false := by
  rw [Bool.eq_false_iff]
  intro heard
  have before := hushed.deaf receiver known knownSender hasReceiver hasSender heard
  rw [unheard (hushed.stayed _ known hasReceiver) (hushed.stayed _ knownSender hasSender)] at before
  cases before

theorem restrict_success {s : Sys} {pair : Pair} {out : Outcome}
    (succeeded : (restrict sender pair out s).1.success = true) : out.success = true := by
  simp only [restrict, bind_get_run] at succeeded
  split at succeeded
  · exact succeeded
  · simp only [bind_run] at succeeded
    split at succeeded
    · cases succeeded
    · exact succeeded

/-- The end of the loop body of `Apply` for a muted sender, when nothing failed. -/
theorem restrict_unheard {s : Sys} (sound : s.world.Sound) (pair : Pair) {out : Outcome}
    (muted : s.service.muted sender = true) (known : s.world.known pair.receiver)
    (succeeded : (restrict sender pair out s).1.success = true)
    (hasReceiver : (restrict sender pair out s).2.world.has pair.receiver = true)
    (hasSender : (restrict sender pair out s).2.world.has pair.sender = true) :
    (restrict sender pair out s).2.world.listening pair.receiver.slot pair.sender.slot = false := by
  obtain ⟨-, -, world, moved, effect⟩ := write_spec sound pair false
  simp only [restrict, bind_get_run, muted, Bool.not_true, Bool.false_eq_true, if_false]
    at succeeded hasReceiver hasSender ⊢
  simp only [bind_run] at succeeded hasReceiver hasSender ⊢
  generalize write pair false s = outcome at effect succeeded hasReceiver hasSender
  obtain ⟨result, later⟩ := outcome
  rcases effect with ⟨-, written, -, -⟩ | ⟨failed, same, gone⟩
  · have quiet : later.world.listening pair.receiver.slot pair.sender.slot = false := by
      rw [show later.world = _ from written]
      simp [World.hear]
    split <;> exact quiet
  · by_cases missing : result = .notFound
    · have there : later.world.has pair.receiver = true ∧ later.world.has pair.sender = true := by
        simp only [missing, ne_eq, not_true_eq_false, and_false, if_false] at hasReceiver hasSender
        exact ⟨hasReceiver, hasSender⟩
      rw [show later.world = world from same] at there
      exact absurd there (gone missing known)
    · have failing : result ≠ .ok ∧ result ≠ .notFound := ⟨failed, missing⟩
      rw [if_pos failing] at succeeded
      cases succeeded

theorem applyTo_success {s : Sys} {receiver : Player} {out : Outcome}
    (succeeded : (applyTo sender receiver out s).1.success = true) : out.success = true := by
  simp only [applyTo, bind_run] at succeeded
  generalize currentPair { receiver, sender } s = outcome at succeeded
  obtain ⟨result, s₁⟩ := outcome
  cases result with
  | notFound => exact succeeded
  | ok =>
      simp only [bind_get_run] at succeeded
      cases found : s₁.service.found (Pair.key { receiver, sender }) { receiver, sender } with
      | some existing =>
          rw [found] at succeeded
          exact restrict_success succeeded
      | none =>
          rw [found] at succeeded
          simp only [bind_run] at succeeded
          generalize getListening receiver sender s₁ = outcome at succeeded
          obtain ⟨answer, s₂⟩ := outcome
          cases answer with
          | error result => cases succeeded
          | ok requested =>
              simp only [bind_run] at succeeded
              generalize currentPair { receiver, sender, requested } s₂ = outcome at succeeded
              obtain ⟨result, s₃⟩ := outcome
              cases result with
              | notFound => exact succeeded
              | ok =>
                  simp only [bind_run, modify_run] at succeeded
                  exact restrict_success succeeded
              | _ => cases succeeded
  | _ => cases succeeded

/-- One turn of the loop in `Apply`: its receiver does not hear the sender. -/
theorem applyTo_unheard {s : Sys} (inv : Inv s) {receiver : Player} {out : Outcome}
    (muted : s.service.muted sender = true) (known : s.world.known receiver)
    (succeeded : (applyTo sender receiver out s).1.success = true)
    (hasReceiver : (applyTo sender receiver out s).2.world.has receiver = true)
    (hasSender : (applyTo sender receiver out s).2.world.has sender = true) :
    (applyTo sender receiver out s).2.world.listening receiver.slot sender.slot = false := by
  obtain ⟨looked, -, gone⟩ := currentPair_spec inv.1.sound { receiver, sender }
  have inv₁ := looked.inv inv
  have muted₁ : (currentPair { receiver, sender } s).2.service.muted sender = true := by
    rw [looked.service, muted]
  have known₁ := looked.moved.used _ known
  simp only [applyTo, bind_run] at succeeded hasReceiver hasSender ⊢
  generalize currentPair { receiver, sender } s = outcome
    at gone inv₁ muted₁ known₁ succeeded hasReceiver hasSender
  obtain ⟨result, s₁⟩ := outcome
  cases result with
  | notFound => exact absurd ⟨hasReceiver, hasSender⟩ (gone rfl known)
  | ok =>
      simp only [bind_get_run] at succeeded hasReceiver hasSender ⊢
      cases found : s₁.service.found (Pair.key { receiver, sender }) { receiver, sender } with
      | some existing =>
          simp only [found] at succeeded hasReceiver hasSender ⊢
          obtain ⟨-, same⟩ := Option.filter_eq_some_iff.mp found
          obtain ⟨sameReceiver, sameSender⟩ := Bool.and_eq_true_iff.mp same
          have slots : existing.receiver.slot = receiver.slot ∧ existing.sender.slot = sender.slot :=
            ⟨(Player.sameConnection_iff.mp sameReceiver).1, (Player.sameConnection_iff.mp sameSender).1⟩
          have quiet := restrict_unheard inv₁.1.sound _ muted₁
            (World.known_congr (Player.sameConnection_symm sameReceiver) known₁) succeeded
            (World.has_congr (Player.sameConnection_symm sameReceiver) hasReceiver)
            (World.has_congr (Player.sameConnection_symm sameSender) hasSender)
          rwa [slots.1, slots.2] at quiet
      | none =>
          simp only [found] at succeeded hasReceiver hasSender ⊢
          have reading := (getListening_spec inv₁.1.sound receiver sender).1
          have inv₂ := reading.inv inv₁
          have muted₂ : (getListening receiver sender s₁).2.service.muted sender = true := by
            rw [reading.service]
            exact muted₁
          have known₂ := reading.moved.used _ known₁
          simp only [bind_run] at succeeded hasReceiver hasSender ⊢
          generalize getListening receiver sender s₁ = outcome
            at inv₂ muted₂ known₂ succeeded hasReceiver hasSender
          obtain ⟨answer, s₂⟩ := outcome
          cases answer with
          | error result => cases succeeded
          | ok requested =>
              obtain ⟨checking, -, missing⟩ :=
                currentPair_spec inv₂.1.sound { receiver, sender, requested }
              have inv₃ := checking.inv inv₂
              have muted₃ : (currentPair { receiver, sender, requested } s₂).2.service.muted sender =
                  true := by
                rw [checking.service]
                exact muted₂
              have known₃ := checking.moved.used _ known₂
              simp only [bind_run] at succeeded hasReceiver hasSender ⊢
              generalize currentPair { receiver, sender, requested } s₂ = outcome
                at missing inv₃ muted₃ known₃ succeeded hasReceiver hasSender
              obtain ⟨result, s₃⟩ := outcome
              cases result with
              | notFound => exact absurd ⟨hasReceiver, hasSender⟩ (missing rfl known₂)
              | ok =>
                  simp only [bind_run, modify_run] at succeeded hasReceiver hasSender ⊢
                  refine restrict_unheard ?_ { receiver, sender, requested } ?_ ?_
                    succeeded hasReceiver hasSender
                  · exact inv₃.1.sound
                  · exact muted₃
                  · exact known₃
              | _ => cases succeeded
  | _ => cases succeeded

/-- `NextPlayer` answers with the first player after the slot. -/
theorem nextPlayer_found {s : Sys} (sound : s.world.Sound) {after : Int} {receiver : Player}
    (answer : (nextPlayer after s).1 = .ok receiver) :
    (nextPlayer after s).2.world.has receiver = true ∧
      ∀ player, (nextPlayer after s).2.world.has player = true → after < player.slot →
        receiver.slot ≤ player.slot := by
  have later := (turn_spec sound).moved.sound sound
  simp only [nextPlayer, bind_run] at answer ⊢
  generalize turn s = outcome at later answer
  obtain ⟨fault, t⟩ := outcome
  cases fault with
  | some fault => cases answer
  | none =>
      simp only [bind_get_run] at answer ⊢
      cases found : t.world.players.toList.find? fun entry => after < entry.1 with
      | none =>
          rw [found] at answer
          cases answer
      | some entry =>
          obtain ⟨slot, player⟩ := entry
          rw [found] at answer
          cases answer
          obtain ⟨-, front, back, split, skipped⟩ := List.find?_eq_some_iff_append.mp found
          have at_ : t.world.players[slot]? = some receiver := by
            rw [← Std.ExtTreeMap.mem_toList_iff_getElem?_eq_some, split]
            exact List.mem_append_right _ List.mem_cons_self
          have placed := later.placed slot receiver at_
          refine ⟨later.has_of_placed at_, ?_⟩
          intro other has beyond
          change t.world.has other = true at has
          obtain ⟨there, atOther, -⟩ := World.has_iff.mp has
          rw [← Std.ExtTreeMap.mem_toList_iff_getElem?_eq_some, split] at atOther
          rcases List.mem_append.mp atOther with early | late
          · have passed := skipped _ early
            simp only [Bool.not_eq_true', decide_eq_false_iff_not] at passed
            exact absurd beyond passed
          · rcases List.mem_cons.mp late with this | rest
            · rw [placed]
              exact (congrArg Prod.fst this).ge
            · have sorted : (front ++ (slot, receiver) :: back).Pairwise
                  (fun a b => compare a.1 b.1 = .lt) := by
                rw [← split]
                exact Std.ExtTreeMap.ordered_keys_toList
              have ordered := (List.pairwise_cons.mp (List.pairwise_append.mp sorted).2.1).1 _ rest
              rw [placed]
              exact (compare_lt_iff_lt.mp ordered).le

theorem nextPlayer_none (player : Player) {s : Sys} {after : Int}
    (answer : (nextPlayer after s).1 = .error .notFound)
    (has : (nextPlayer after s).2.world.has player = true) : ¬ after < player.slot := by
  simp only [nextPlayer, bind_run] at answer has
  generalize turn s = outcome at answer has
  obtain ⟨fault, t⟩ := outcome
  cases fault with
  | some fault => exact absurd (Except.error.inj answer) (fault_ne_notFound fault)
  | none =>
      simp only [bind_get_run] at answer has
      cases found : t.world.players.toList.find? fun entry => after < entry.1 with
      | some entry =>
          rw [found] at answer
          cases answer
      | none =>
          rw [found] at has
          obtain ⟨there, at_, -⟩ := World.has_iff.mp has
          have member := Std.ExtTreeMap.mem_toList_iff_getElem?_eq_some.mpr at_
          simpa using List.find?_eq_none.mp found _ member

theorem applyFrom_success {remaining : Nat} : ∀ {after : Int} {out : Outcome} {s : Sys},
    (applyFrom sender remaining after out s).1.success = true → out.success = true := by
  induction remaining with
  | zero =>
      intro after out s succeeded
      rw [applyFrom, bind_run] at succeeded
      generalize nextPlayer after s = outcome at succeeded
      obtain ⟨answer, s₁⟩ := outcome
      cases answer with
      | error result => cases result <;> first | exact succeeded | cases succeeded
      | ok receiver =>
          simp only at succeeded
          split at succeeded <;> cases succeeded
  | succ remaining ih =>
      intro after out s succeeded
      rw [applyFrom, bind_run] at succeeded
      generalize nextPlayer after s = outcome at succeeded
      obtain ⟨answer, s₁⟩ := outcome
      cases answer with
      | error result => cases result <;> first | exact succeeded | cases succeeded
      | ok receiver =>
          simp only at succeeded
          split at succeeded
          · cases succeeded
          · exact applyTo_success (ih succeeded)

/-- A whole `Apply` that succeeds, from some receiver on. -/
theorem applyFrom_deafens {remaining : Nat} : ∀ {after : Int} {out : Outcome} {s : Sys}, Inv s →
    s.service.muted sender = true → s.world.known sender →
    (applyFrom sender remaining after out s).1.success = true →
    ∀ receiver, s.world.known receiver → after < receiver.slot →
      (applyFrom sender remaining after out s).2.world.has receiver = true →
      (applyFrom sender remaining after out s).2.world.has sender = true →
        (applyFrom sender remaining after out s).2.world.listening receiver.slot sender.slot =
          false := by
  induction remaining with
  | zero =>
      intro after out s inv muted knownSender succeeded receiver known beyond has _
      have none_left (none : (nextPlayer after s).1 = .error .notFound) :=
        nextPlayer_none receiver none
      rw [applyFrom, bind_run] at succeeded has ⊢
      generalize nextPlayer after s = outcome at none_left succeeded has
      obtain ⟨answer, s₁⟩ := outcome
      cases answer with
      | error result =>
          cases result with
          | notFound => exact absurd beyond (none_left rfl has)
          | _ => cases succeeded
      | ok next =>
          simp only at succeeded
          split at succeeded <;> cases succeeded
  | succ remaining ih =>
      intro after out s inv muted knownSender succeeded receiver known beyond has hasSender
      have none_left (none : (nextPlayer after s).1 = .error .notFound) :=
        nextPlayer_none receiver none
      have found (next : Player) (answer : (nextPlayer after s).1 = .ok next) :=
        nextPlayer_found inv.1.sound answer
      have waited := nextPlayer_spec inv.1.sound after
      have inv₁ := waited.inv inv
      have muted₁ : (nextPlayer after s).2.service.muted sender = true := by
        rw [waited.service, muted]
      have known₁ := waited.moved.used _ known
      have knownSender₁ := waited.moved.used _ knownSender
      rw [applyFrom, bind_run] at succeeded has hasSender ⊢
      generalize nextPlayer after s = outcome
        at none_left found inv₁ muted₁ known₁ knownSender₁ succeeded has hasSender
      obtain ⟨answer, s₁⟩ := outcome
      cases answer with
      | error result =>
          cases result with
          | notFound => exact absurd beyond (none_left rfl has)
          | _ => cases succeeded
      | ok next =>
          obtain ⟨hasNext, first⟩ := found next rfl
          by_cases late : next.slot ≤ after
          · simp only [if_pos late] at succeeded
            cases succeeded
          · simp only [if_neg late] at succeeded has hasSender ⊢
            rw [bind_run] at succeeded has hasSender ⊢
            have visited := applyTo_spares sender sender next out s₁ inv₁
            have inv₂ := keeps_applyTo sender next out s₁ inv₁
            have muted₂ : (applyTo sender next out s₁).2.service.muted sender = true := by
              rw [muted_congr visited.owners]
              exact muted₁
            have known₂ := visited.hushed.used _ known₁
            have knownSender₂ := visited.hushed.used _ knownSender₁
            have rest := applyFrom_spares sender sender remaining next.slot
              (applyTo sender next out s₁).1 _ inv₂
            have there : s₁.world.has receiver = true :=
              visited.hushed.stayed _ known₁ (rest.hushed.stayed _ known₂ has)
            rcases (first receiver there beyond).lt_or_eq with before | same
            · exact ih inv₂ muted₂ knownSender₂ succeeded receiver known₂ before has hasSender
            · -- this turn is for the receiver itself
              have one := World.has_unique same hasNext there
              refine hushed_unheard rest.hushed known₂ knownSender₂ ?_ has hasSender
              intro hasReceiver₂ hasSender₂
              rw [← same]
              exact applyTo_unheard inv₁ muted₁ (inv₁.1.sound.known_of_has hasNext)
                (applyFrom_success succeeded)
                (World.has_congr (Player.sameConnection_symm one) hasReceiver₂) hasSender₂

theorem recorded_holds (v : Service) (owner : Nat) {player : Player} (live : player.connection ≠ 0) :
    Holds { v with owners := recorded v.owners owner player } owner player := by
  refine ⟨(v.owners[owner]?.getD ∅).insert player.slot player, player, ?_, ?_, ?_⟩
  · simp [recorded]
  · exact Std.ExtTreeMap.getElem?_insert_self
  · simp [Player.sameConnection, live]

/-- A mute that succeeds. -/
theorem set_deafens {s : Sys} (inv : Inv s) {owner : Nat}
    (succeeded : (set owner sender true s).1.success = true) :
    (set owner sender true s).2.service.muted sender = true ∧
      Deafened sender s.world (set owner sender true s).2.world := by
  obtain ⟨looked, there, -⟩ := current_spec inv.1.sound sender
  have inv₁ := looked.inv inv
  have used₁ := looked.moved.used
  simp only [set, bind_run] at succeeded ⊢
  generalize current sender s = outcome at there inv₁ used₁ succeeded
  obtain ⟨result, s₁⟩ := outcome
  cases result with
  | ok =>
      have reading := (getListening_spec inv₁.1.sound sender sender).1
      have inv₂ := reading.inv inv₁
      have used₂ := fun player known => reading.moved.used player (used₁ player known)
      simp only [if_true, bind_run] at succeeded ⊢
      generalize getListening sender sender s₁ = outcome at inv₂ used₂ succeeded
      obtain ⟨answer, s₂⟩ := outcome
      cases answer with
      | error result => cases succeeded
      | ok value =>
          obtain ⟨checking, still, -⟩ := current_spec inv₂.1.sound sender
          have inv₃ := checking.inv inv₂
          have used₃ := fun player known => checking.moved.used player (used₂ player known)
          simp only [bind_run] at succeeded ⊢
          generalize current sender s₂ = outcome at still inv₃ used₃ succeeded
          obtain ⟨result, s₃⟩ := outcome
          cases result with
          | ok =>
              have has : s₃.world.has sender = true := still rfl
              have inv₄ : Inv { s₃ with
                service.owners := recorded s₃.service.owners owner sender } := inv₃
              have muted₄ : Service.muted { s₃.service with
                  owners := recorded s₃.service.owners owner sender } sender = true :=
                muted_iff.mpr ⟨owner, recorded_holds _ owner (World.nonzero_of_has has)⟩
              have covered (ok : (apply sender [] { s₃ with
                    service.owners := recorded s₃.service.owners owner sender }).1.success = true) :=
                @applyFrom_deafens sender 128 (-1) {} _ inv₄ muted₄
                  (inv₃.1.sound.known_of_has has) ok
              have kept := (apply_spares sender sender [] _ inv₄).owners
              simp only [bind_run, modify_run] at succeeded ⊢
              split at succeeded
              · rename_i failed
                simp only [pure_run] at succeeded
                rw [succeeded] at failed
                cases failed
              · rename_i fine
                rw [if_neg fine]
                refine ⟨(muted_congr kept sender).trans muted₄, ?_⟩
                intro receiver slot known hasReceiver hasSender
                exact covered succeeded receiver (used₃ _ known) (by omega) hasReceiver hasSender
          | _ => cases succeeded
  | _ => cases succeeded

theorem Deafened.congr {speaker : Player} {w later : World}
    (same : speaker.sameConnection sender = true) (deafened : Deafened speaker w later) :
    Deafened sender w later := by
  intro receiver slot known hasReceiver hasSender
  rw [← (Player.sameConnection_iff.mp same).1]
  exact deafened receiver slot known hasReceiver
    (World.has_congr (Player.sameConnection_symm same) hasSender)

/-- A later part of the operation undoes nothing for a sender who is there. -/
theorem Deafened.then {w middle later : World} (deafened : Deafened sender w middle)
    (aged : Aged w middle) (knownSender : middle.known sender)
    (hushed : Hushed sender middle later) : Deafened sender w later := by
  intro receiver slot known hasReceiver hasSender
  exact hushed_unheard hushed (aged.used _ known) knownSender
    (fun there speaks => deafened receiver slot known there speaks) hasReceiver hasSender

theorem Deafened.after {w middle later : World} (aged : Aged w middle)
    (deafened : Deafened sender middle later) : Deafened sender w later :=
  fun receiver slot known => deafened receiver slot (aged.used _ known)

theorem apply_deafens {s : Sys} (inv : Inv s) (muted : s.service.muted sender = true)
    (known : s.world.known sender) {error : ErrorText}
    (succeeded : (apply sender error s).1.success = true) :
    Deafened sender s.world (apply sender error s).2.world := by
  intro receiver slot knownReceiver hasReceiver hasSender
  exact applyFrom_deafens inv muted known succeeded receiver knownReceiver (by omega) hasReceiver
    hasSender

/-- The last loop of `Refresh`. -/
theorem enforceAll_deafens : ∀ {senders : List (Int × Player)} {out : Outcome} {s : Sys} {slot : Int},
    (slot, sender) ∈ senders → Inv s → s.service.muted sender = true → s.world.known sender →
    (senders.foldlM enforce out s).1.success = true →
      Deafened sender s.world (senders.foldlM enforce out s).2.world := by
  intro senders
  induction senders with
  | nil => simp
  | cons item rest ih =>
      intro out s slot member inv muted known succeeded
      rw [List.foldlM_cons, bind_run] at succeeded ⊢
      have enforced := enforce_spares sender out item s inv
      have inv₁ := keeps_enforce out item s inv
      have known₁ := enforced.hushed.used _ known
      rcases List.mem_cons.mp member with rfl | later
      · have applied := enforceAll_success _ _ _ succeeded
        simp only [enforce, bind_run, pure_run, Bool.and_eq_true] at applied
        have deafened := apply_deafens inv muted known applied.2
        exact deafened.then enforced.hushed.toAged known₁
          (enforceAll_spares _ rest _ _ inv₁).hushed
      · have muted₁ := (muted_congr enforced.owners sender).trans muted
        exact (ih later inv₁ muted₁ known₁ succeeded).after enforced.hushed.toAged

/-- The sweeps so far have met the sender, if the sender is still there. -/
def Met (sender : Player) (s : Sys) (acc : Std.ExtTreeMap Int Player × Outcome) : Prop :=
  acc.2.success = true → s.world.has sender = true →
    ∃ speaker, acc.1[sender.slot]? = some speaker ∧ speaker.sameConnection sender = true

theorem sweep_met {s : Sys} (inv : Inv s) (known : s.world.known sender) {owner : Nat}
    {acc : Std.ExtTreeMap Int Player × Outcome} {slot : Int} {found : Player}
    (filed : found.slot = slot)
    (met : Met sender s acc ∨ found.sameConnection sender = true) :
    Met sender (sweep owner acc (slot, found) s).2 (sweep owner acc (slot, found) s).1 := by
  obtain ⟨looked, there, gone⟩ := current_spec inv.1.sound found
  have stayed := looked.moved.stayed sender known
  simp only [sweep, bind_run]
  generalize current found s = outcome at there gone stayed
  obtain ⟨result, s₁⟩ := outcome
  cases result with
  | notFound =>
      simp only [bind_run, modify_run, pure_run]
      intro succeeded has
      rcases met with met | same
      · exact met succeeded (stayed has)
      · have absent := gone rfl
        rw [World.has_congr (Player.sameConnection_symm same) has] at absent
        cases absent
  | ok =>
      simp only [pure_run]
      intro succeeded has
      by_cases at_ : slot = sender.slot
      · refine ⟨found, by simp [at_], ?_⟩
        exact World.has_unique (filed.trans at_) (there rfl) has
      · rcases met with met | same
        · obtain ⟨speaker, placed, same⟩ := met succeeded (stayed has)
          refine ⟨speaker, ?_, same⟩
          rw [Std.ExtTreeMap.getElem?_insert, if_neg]
          · exact placed
          · rw [Std.LawfulEqOrd.compare_eq_iff_eq]
            exact at_
        · exact absurd (filed.symm.trans (Player.sameConnection_iff.mp same).1) at_
  | _ =>
      intro succeeded
      cases succeeded

theorem foldlM_reaches {α β : Type} {f : β → α → M β} {U P : Sys → β → Prop} {a : α} :
    ∀ {list : List α}, a ∈ list → (∀ b ∈ list, ∀ s acc, U s acc → U (f acc b s).2 (f acc b s).1) →
      (∀ b ∈ list, ∀ s acc, U s acc → P s acc → P (f acc b s).2 (f acc b s).1) →
      (∀ s acc, U s acc → P (f acc a s).2 (f acc a s).1) →
      ∀ s acc, U s acc → P (list.foldlM f acc s).2 (list.foldlM f acc s).1 := by
  intro list
  induction list with
  | nil => simp
  | cons b rest ih =>
      intro member keepU keepP reach s acc holds
      rw [List.foldlM_cons, bind_run]
      have restU := fun c inRest => keepU c (List.mem_cons_of_mem _ inRest)
      have restP := fun c inRest => keepP c (List.mem_cons_of_mem _ inRest)
      have here := keepU b List.mem_cons_self s acc holds
      rcases List.mem_cons.mp member with rfl | later
      · exact (foldlM_rule (P := fun t acc => U t acc ∧ P t acc) rest
          (fun c inRest t acc both => ⟨restU c inRest t acc both.1, restP c inRest t acc both.1 both.2⟩)
          _ _ ⟨here, reach s acc holds⟩).2
      · exact ih later restU restP reach _ _ here

theorem sweepAll_met {s : Sys} (inv : Inv s) (filed : Filed s) {owner : Nat} {found : Player}
    (at_ : look s.service.owners owner sender.slot = some found)
    (same : found.sameConnection sender = true) :
    Met sender (sweepAll s.service.owners s).2 (sweepAll s.service.owners s).1 := by
  obtain ⟨players, owned, placed⟩ := Option.bind_eq_some_iff.mp at_
  have known : s.world.known sender := World.known_congr same (filed.inForce _ _ _ at_).2
  have inRange (id : Nat) (others : Std.ExtTreeMap Int Player compare)
      (member : (id, others) ∈ s.service.owners.toList) (slot : Int) (other : Player)
      (there : (slot, other) ∈ others.toList) : other.slot = slot :=
    (filed.inForce id slot other (mem_look member there)).1
  have keepU (id : Nat) (item : Int × Player) (t : Sys)
      (acc : Std.ExtTreeMap Int Player × Outcome) (holds : Inv t ∧ t.world.known sender) :
      Inv (sweep id acc item t).2 ∧ (sweep id acc item t).2.world.known sender :=
    ⟨keeps_sweep id acc item t holds.1, (sweep_hushed sender holds.1 id acc item).used
      sender holds.2⟩
  unfold sweepAll
  refine foldlM_reaches (U := fun t _ => Inv t ∧ t.world.known sender) (P := Met sender)
    (Std.ExtTreeMap.mem_toList_iff_getElem?_eq_some.mpr owned) ?_ ?_ ?_ s _ ⟨inv, known⟩
  · rintro ⟨id, others⟩ - t acc holds
    exact foldlM_rule (P := fun t _ => Inv t ∧ t.world.known sender) _
      (fun item _ t acc holds => keepU id item t acc holds) t acc holds
  · rintro ⟨id, others⟩ member t acc holds met
    refine (foldlM_rule (P := fun t acc => (Inv t ∧ t.world.known sender) ∧ Met sender t acc) _ ?_
      t acc ⟨holds, met⟩).2
    rintro ⟨slot, other⟩ there t acc ⟨holds, met⟩
    exact ⟨keepU id _ t acc holds, sweep_met holds.1 holds.2
      (inRange id others member slot other there) (Or.inl met)⟩
  · intro t acc holds
    refine foldlM_reaches (U := fun t _ => Inv t ∧ t.world.known sender) (P := Met sender)
      (Std.ExtTreeMap.mem_toList_iff_getElem?_eq_some.mpr placed) ?_ ?_ ?_ t acc holds
    · exact fun item _ t acc holds => keepU owner item t acc holds
    · rintro ⟨slot, other⟩ there t acc holds met
      exact sweep_met holds.1 holds.2 (inRange owner players
        (Std.ExtTreeMap.mem_toList_iff_getElem?_eq_some.mpr owned) slot other there) (Or.inl met)
    · exact fun t acc holds => sweep_met holds.1 holds.2
        (Player.sameConnection_iff.mp same).1 (Or.inr same)

/-- A refresh that succeeds, for a sender who is muted after it. -/
theorem refresh_deafens {s : Sys} (inv : Inv s) (filed : Filed s)
    (held : (refresh s).2.service.muted sender = true)
    (succeeded : (refresh s).1.success = true) :
    Deafened sender s.world (refresh s).2.world := by
  have sweptInv := (sweeps inv).inv
  have trimmed := sweepAll_trimmed filed inv
  have aged := ages_sweepAll s.service.owners s inv
  rw [refresh_run] at held succeeded ⊢
  have muted : (sweepAll s.service.owners s).2.service.muted sender = true := by
    rwa [muted_congr (congrArg Prod.fst (refreshFrom_books sweptInv _ _).1)] at held
  obtain ⟨owner, holds⟩ := muted_iff.mp muted
  obtain ⟨found, at_, same⟩ := holds_iff.mp holds
  have before : look s.service.owners owner sender.slot = some found := by
    rcases trimmed.entries owner sender.slot with same | ⟨gone, -⟩
    · exact same ▸ at_
    · rw [gone] at at_
      cases at_
  have met := sweepAll_met inv filed before same
  have known : s.world.known sender := World.known_congr same (filed.inForce _ _ _ before).2
  generalize sweepAll s.service.owners s = outcome at sweptInv aged succeeded muted met
  obtain ⟨⟨senders, out⟩, t⟩ := outcome
  have knownT : t.world.known sender := aged.used _ known
  simp only [refreshFrom, bind_run] at succeeded ⊢
  have success := enforceAll_success _ _ _ succeeded
  have restored := restore_spared sweptInv muted 0 none out.error
  have inv₂ := keeps_restore 0 none out.error t sweptInv
  have muted₂ := (muted_congr restored.owners sender).trans muted
  have known₂ := restored.hushed.used _ knownT
  intro receiver slot knownReceiver hasReceiver hasSender
  have spared := (enforceAll_spares sender senders.toList
    { (restore 0 none out.error t).1 with
      success := out.success && (restore 0 none out.error t).1.success } _ inv₂).hushed
  have there : t.world.has sender = true :=
    restored.hushed.stayed _ knownT (spared.stayed _ known₂ hasSender)
  obtain ⟨speaker, placed, same⟩ := met (Bool.and_eq_true_iff.mp success).1 there
  have back := Player.sameConnection_symm same
  have deafened := @enforceAll_deafens speaker _ _ _ _
    (Std.ExtTreeMap.mem_toList_iff_getElem?_eq_some.mpr placed) inv₂
    ((muted_same _ same).trans muted₂) (World.known_congr back known₂) succeeded
  exact (deafened.congr same) receiver slot
    (restored.hushed.used _ (aged.used _ knownReceiver)) hasReceiver hasSender

/-! ## The guarantee -/

/-- The operation puts the mute of the sender into effect at every receiver: with
the `Refresh` that undoes a refused suspension in the last case. -/
inductive Enforces (s : Sys) (sender : Player) : Label → Prop
  | set {owner : Nat} {replies : List Reply}
      (succeeded : (step s (.set owner sender true replies)).1.success = true) :
      Enforces s sender (.set owner sender true replies)
  | refresh {replies : List Reply} (succeeded : (step s (.refresh replies)).1.success = true)
      (held : (step s (.refresh replies)).2.service.muted sender = true) :
      Enforces s sender (.refresh replies)
  | resume {replies : List Reply} (succeeded : (step s (.resume replies)).1.success = true)
      (held : (step s (.resume replies)).2.service.muted sender = true) :
      Enforces s sender (.resume replies)
  | undone {replies : List Reply} (stopped : Stopped s (.suspend replies))
      (succeeded : (refresh (putInForce { s with replies })).1.success = true)
      (held : (step s (.suspend replies)).2.service.muted sender = true) :
      Enforces s sender (.suspend replies)

/-- A suspension that the host refuses, and then the `Refresh` that undoes it too. -/
def Refused (s : Sys) : Label → Prop
  | .suspend replies => Stopped s (.suspend replies) ∧
      (refresh (putInForce { s with replies })).1.success = false
  | _ => False

/-- The end of a suspension whose `Refresh` fails. -/
def Faltering (s : Sys) : Label → Prop
  | .resume replies => s.service.suspended = true ∧ (step s (.resume replies)).1.success = false
  | _ => False

/-- Somebody mutes the sender all the time, and no suspension is refused for good. -/
def Unbroken (sender : Player) : Sys → List Label → Prop
  | s, [] => s.service.muted sender = true
  | s, label :: rest =>
      s.service.muted sender = true ∧ ¬ Refused s label ∧ Unbroken sender (step s label).2 rest

/-- Somebody mutes the sender whenever there is no suspension; none is refused for
good, and each ends with a `Refresh` that succeeds. -/
def Upheld (sender : Player) : Sys → List Label → Prop
  | s, [] => s.service.suspended = false → s.service.muted sender = true
  | s, label :: rest => (s.service.suspended = false → s.service.muted sender = true) ∧
      ¬ Refused s label ∧ ¬ Faltering s label ∧ Upheld sender (step s label).2 rest

instance Stopped.decidable (s : Sys) : (label : Label) → Decidable (Stopped s label)
  | .suspend _ => inferInstanceAs (Decidable (_ ∧ _))
  | .set .. | .release .. | .refresh _ | .resume _ | .request .. | .disconnected .. | .move _ =>
      inferInstanceAs (Decidable False)

instance Refused.decidable (s : Sys) : (label : Label) → Decidable (Refused s label)
  | .suspend _ => inferInstanceAs (Decidable (_ ∧ _))
  | .set .. | .release .. | .refresh _ | .resume _ | .request .. | .disconnected .. | .move _ =>
      inferInstanceAs (Decidable False)

instance Faltering.decidable (s : Sys) : (label : Label) → Decidable (Faltering s label)
  | .resume _ => inferInstanceAs (Decidable (_ ∧ _))
  | .set .. | .release .. | .refresh _ | .suspend _ | .request .. | .disconnected .. | .move _ =>
      inferInstanceAs (Decidable False)

instance Upheld.decidable (sender : Player) :
    (s : Sys) → (rest : List Label) → Decidable (Upheld sender s rest)
  | s, [] => inferInstanceAs (Decidable (s.service.suspended = false → s.service.muted sender = true))
  | s, label :: rest =>
      have := Upheld.decidable sender (step s label).2 rest
      inferInstanceAs (Decidable (_ ∧ _ ∧ _ ∧ _))

theorem Unbroken.muted {s : Sys} {rest : List Label} (unbroken : Unbroken sender s rest) :
    s.service.muted sender = true := by
  cases rest with
  | nil => exact unbroken
  | cons label rest => exact unbroken.1

theorem Upheld.muted {s : Sys} {rest : List Label} (upheld : Upheld sender s rest)
    (active : s.service.suspended = false) : s.service.muted sender = true := by
  cases rest with
  | nil => exact upheld active
  | cons label rest => exact upheld.1 active

theorem Filed.known {s : Sys} (filed : Filed s) (muted : s.service.muted sender = true) :
    s.world.known sender := by
  obtain ⟨owner, holds⟩ := muted_iff.mp muted
  obtain ⟨found, at_, same⟩ := holds_iff.mp holds
  exact World.known_congr same (filed.inForce _ _ _ at_).2

/-- A refused suspension whose refresh succeeds. -/
theorem undone_deafens {s : Sys} (inv : Inv s) (filed : Filed s) {replies : List Reply}
    (stopped : Stopped s (.suspend replies))
    (succeeded : (refresh (putInForce { s with replies })).1.success = true)
    (held : (step s (.suspend replies)).2.service.muted sender = true) :
    Deafened sender s.world (step s (.suspend replies)).2.world := by
  obtain ⟨active, failed⟩ := stopped
  have ran : (step s (.suspend replies)).2 = (refresh (putInForce { s with replies })).2 :=
    suspend_refused (s := { s with replies }) active (Bool.eq_false_iff.mp failed)
  have inv₁ : Inv { s with replies } := inv
  have filed₁ : Filed { s with replies } := ⟨filed.inForce, filed.heldBack⟩
  obtain ⟨books, aged⟩ := putInForce_books inv₁
  rw [ran] at held ⊢
  exact (refresh_deafens (putInForce_inv inv₁) (filed₁.same_books aged books) held
    succeeded).after aged

theorem enforces_deafens {s : Sys} (inv : Inv s) (filed : Filed s) {label : Label}
    (enforces : Enforces s sender label) : Deafened sender s.world (step s label).2.world := by
  have ready : Inv { s with replies := label.replies } := inv
  have filed₀ : Filed { s with replies := label.replies } := ⟨filed.inForce, filed.heldBack⟩
  cases enforces with
  | set succeeded => exact (set_deafens ready succeeded).2
  | refresh succeeded held => exact refresh_deafens ready filed₀ held succeeded
  | resume succeeded held =>
      have deafened := refresh_deafens (resumed_inv ready) (resumed_filed filed₀) held succeeded
      rw [resumed_world] at deafened
      exact deafened
  | undone stopped succeeded held => exact undone_deafens inv filed stopped succeeded held

theorem enforces_muted {s : Sys} (inv : Inv s) {label : Label}
    (enforces : Enforces s sender label) : (step s label).2.service.muted sender = true := by
  have ready : Inv { s with replies := label.replies } := inv
  cases enforces with
  | set succeeded => exact (set_deafens ready succeeded).1
  | refresh succeeded held => exact held
  | resume succeeded held => exact held
  | undone stopped succeeded held => exact held

/-- While the sender is muted, nobody who was there begins to hear the sender. -/
theorem step_deafened {s : Sys} {w : World} (inv : Inv s) (filed : Filed s) {label : Label}
    (calm : ¬ Refused s label) (before : s.service.muted sender = true)
    (after : (step s label).2.service.muted sender = true) (aged : Aged w s.world)
    (deafened : Deafened sender w s.world) : Deafened sender w (step s label).2.world := by
  by_cases stopped : Stopped s label
  · cases label with
    | suspend replies =>
        have succeeded : (refresh (putInForce { s with replies })).1.success = true := by
          rw [← Bool.not_eq_false]
          exact fun failed => calm ⟨stopped, failed⟩
        exact (undone_deafens inv filed stopped succeeded after).after aged
    | _ => exact stopped.elim
  · exact deafened.then aged (filed.known before) (step_hushed inv stopped before after)

theorem unbroken_deafened {w : World} : ∀ {rest : List Label} {s t : Sys}, Inv s → Filed s →
    Transition.run next s rest = some t → Unbroken sender s rest → Aged w s.world →
      Deafened sender w s.world → Deafened sender w t.world := by
  intro rest
  induction rest with
  | nil =>
      intro s t inv filed ran unbroken aged deafened
      cases Option.some.inj ran
      exact deafened
  | cons label rest ih =>
      intro s t inv filed ran unbroken aged deafened
      obtain ⟨muted, calm, later⟩ := unbroken
      exact ih (step_inv inv label) (step_filed inv filed label) ran later
        (aged.trans (step_aged inv label))
        (step_deafened inv filed calm muted later.muted aged deafened)

/-- Only `Resume` ends a suspension and leaves somebody muted. -/
theorem suspended_ends {s : Sys} (inv : Inv s) (filed : Filed s) {label : Label}
    (suspended : s.service.suspended = true)
    (ends : (step s label).2.service.suspended = false)
    (held : (step s label).2.service.muted sender = true) : ∃ replies, label = .resume replies := by
  have ready : Inv { s with replies := label.replies } := inv
  have filed₀ : Filed { s with replies := label.replies } := ⟨filed.inForce, filed.heldBack⟩
  -- the books of every other operation but one have the suspension still
  have still (books : (step s label).2.service.suspended = s.service.suspended) :
      ∃ replies, label = .resume replies :=
    absurd (ends.symm.trans (books.trans suspended)) Bool.false_ne_true
  cases label with
  | set owner player muted replies =>
      refine still ?_
      cases muted with
      | true =>
          rcases set_mute_books ready owner player with ⟨books, -⟩ | ⟨books, -⟩
          · exact (books_eq books).2.2
          · exact (books_eq books).2.2
      | false =>
          rcases set_unmute_books ready owner player with ⟨books, -⟩ | books
          · exact (books_eq books).2.2
          · exact (books_eq books).2.2
  | release owner replies =>
      obtain ⟨owners, -, left⟩ := books_eq (release_books ready owner)
      by_cases nonzero : owner = 0
      · subst nonzero
        obtain ⟨holder, holds⟩ := muted_iff.mp held
        obtain ⟨found, at_, -⟩ := holds_iff.mp holds
        change look (release 0 { s with replies }).2.service.owners holder sender.slot = _ at at_
        rw [show (release 0 { s with replies }).2.service.owners = _ from owners, look_filter] at at_
        simp at at_
      · refine still (left.trans ?_)
        simp [Service.unpark, nonzero]
  | refresh replies => exact still (refresh_trimmed filed₀ ready).suspended
  | suspend replies =>
      refine still ?_
      have ran := suspend_again (s := { s with replies }) suspended
      change (suspend { s with replies }).2.service.suspended = _
      rw [ran]
      exact (books_eq (restore_books ready 0 none []).1).2.2
  | resume replies => exact ⟨replies, rfl⟩
  | request receiver speaker listening faults =>
      refine still (books_eq (request_books ready ?_ receiver speaker listening).1).2.2
      intro reply member
      obtain ⟨fault, -, rfl⟩ := List.mem_map.mp member
      rfl
  | disconnected slot connection => exact still rfl
  | move changes => exact still rfl

/-- Across suspensions: what matters is only that each ends well. -/
theorem upheld_deafened {w : World} : ∀ {rest : List Label} {s t : Sys}, Inv s → Filed s →
    Transition.run next s rest = some t → Upheld sender s rest → Aged w s.world →
      (s.service.suspended = false → Deafened sender w s.world) →
      t.service.suspended = false → Deafened sender w t.world := by
  intro rest
  induction rest with
  | nil =>
      intro s t inv filed ran upheld aged deafened
      cases Option.some.inj ran
      exact deafened
  | cons label rest ih =>
      intro s t inv filed ran upheld aged deafened
      obtain ⟨muted, calm, steady, later⟩ := upheld
      refine ih (step_inv inv label) (step_filed inv filed label) ran later
        (aged.trans (step_aged inv label)) ?_
      intro active
      have after := later.muted active
      cases suspended : s.service.suspended with
      | false =>
          exact step_deafened inv filed calm (muted suspended) after aged (deafened suspended)
      | true =>
          obtain ⟨replies, rfl⟩ := suspended_ends inv filed suspended active after
          have succeeded : (step s (.resume replies)).1.success = true := by
            rw [← Bool.not_eq_false]
            exact fun failed => steady ⟨suspended, failed⟩
          exact (enforces_deafens inv filed (.resume succeeded after)).after aged

/-- A sender is muted when some owner holds the mute.  Taking back one owner's
mutes leaves those of the others in force, asks for nobody to hear a sender they
mute and makes nobody do so.  From an operation that enforces a mute on, nobody
who was there hears the sender: as long as the mute is held without a break, and
across suspensions, outside which it is held, as long as each begins or is undone
and ends well. -/
theorem voice_enforced (history : List Label) (s : Sys)
    (ran : Transition.run next {} history = some s) :
    (∀ player, s.service.muted player = true ↔ ∃ owner, Holds s.service owner player) ∧
    (∀ label owner other player, label.takesBack owner → other ≠ owner →
      Holds s.service other player → (step s label).2.service.muted player = true ∧
        Quiet player s (step s label).2 ∧
        ∀ receiver, s.world.has receiver = true → s.world.has player = true →
          (step s label).2.world.has receiver = true → (step s label).2.world.has player = true →
            (step s label).2.world.listening receiver.slot player.slot = true →
              s.world.listening receiver.slot player.slot = true) ∧
    ∀ label sender, Enforces s sender label → (step s label).2.service.muted sender = true ∧
      ∀ rest t, Transition.run next (step s label).2 rest = some t →
        Unbroken sender (step s label).2 rest ∨
          Upheld sender (step s label).2 rest ∧ t.service.suspended = false →
          ∀ receiver, 0 ≤ receiver.slot → s.world.has receiver = true →
            t.world.has receiver = true → t.world.has sender = true →
              t.world.listening receiver.slot sender.slot = false := by
  obtain ⟨inv, filed⟩ := filed_run history s ran
  refine ⟨fun player => muted_iff, ?_, ?_⟩
  · intro label owner other player takes apart holds
    have still := muted_iff.mpr ⟨other, takesBack_holds inv takes apart holds⟩
    refine ⟨still, takesBack_quiet inv takes still, ?_⟩
    have calm : ¬ Stopped s label := by
      cases label with
      | suspend replies => exact takes.elim
      | _ => exact id
    have hushed := step_hushed inv calm (muted_iff.mpr ⟨other, holds⟩) still
    intro receiver hasReceiver hasPlayer
    exact hushed.deaf receiver (inv.1.sound.known_of_has hasReceiver)
      (inv.1.sound.known_of_has hasPlayer)
  · intro label sender enforces
    refine ⟨enforces_muted inv enforces, ?_⟩
    intro rest t continued held receiver slot has hasReceiver hasSender
    have deafened := enforces_deafens inv filed enforces
    have later := step_inv inv label
    have filed' := step_filed inv filed label
    have aged := step_aged inv label
    have quiet : Deafened sender s.world t.world := by
      rcases held with unbroken | ⟨upheld, active⟩
      · exact unbroken_deafened later filed' continued unbroken aged deafened
      · exact upheld_deafened later filed' continued upheld aged (fun _ => deafened) active
    exact quiet receiver slot (inv.1.sound.known_of_has has) hasReceiver hasSender

/-- Two players. -/
def company : List Label := [
  .move [.join { slot := 0, connection := 10 } fun _ _ => true,
    .join { slot := 1, connection := 11 } fun _ _ => true]]

/-- The host is busy once, when a pair is to be restored. -/
def hiccup : List Reply := [{ fault := some .busy }]

/-- Two owners mute the first player.  The game asks for the second to hear the
first, a suspension is refused and undone, one of the owners takes its mute back,
and a suspension begins and ends. -/
theorem voice_enforced_two_owners :
    ∃ s t, Transition.run next {} (company ++ [.set 8 { slot := 0, connection := 10 } true []]) =
        some s ∧
      Transition.run next (step s (.set 7 { slot := 0, connection := 10 } true [])).2
        [.request 1 0 true [], .suspend hiccup, .set 7 { slot := 0, connection := 10 } false [],
          .suspend [], .resume []] = some t ∧
      t.world.listening 1 0 = false :=
  ⟨_, _, rfl, rfl, ((voice_enforced
      (company ++ [.set 8 { slot := 0, connection := 10 } true []]) _ rfl).2.2
      (.set 7 { slot := 0, connection := 10 } true []) { slot := 0, connection := 10 }
      (.set (by decide +kernel))).2
      [.request 1 0 true [], .suspend hiccup, .set 7 { slot := 0, connection := 10 } false [],
        .suspend [], .resume []] _ rfl
      (.inr ⟨by decide +kernel, by decide +kernel⟩)
      { slot := 1, connection := 11 } (by decide) (by decide +kernel) (by decide +kernel)
      (by decide +kernel)⟩

/-- The host is busy when the first pair is to be restored, and again when the
refresh comes to the receiver whose pair was restored. -/
def refusals : List Reply :=
  hiccup ++ List.replicate 14 ({ } : Reply) ++ hiccup

/-- The sender stays muted and no suspension is in force, but a suspension the
host refused half way has made a receiver hear the sender. -/
theorem refused_suspend_heard :
    ∃ s t, Transition.run next {} company = some s ∧
      (step s (.set 7 { slot := 0, connection := 10 } true [])).1.success = true ∧
      Transition.run next (step s (.set 7 { slot := 0, connection := 10 } true [])).2
        [.suspend refusals] = some t ∧
      (step s (.set 7 { slot := 0, connection := 10 } true [])).2.service.muted
        { slot := 0, connection := 10 } = true ∧
      t.service.muted { slot := 0, connection := 10 } = true ∧ t.service.suspended = false ∧
      s.world.has { slot := 1, connection := 11 } = true ∧
      t.world.has { slot := 1, connection := 11 } = true ∧
      t.world.has { slot := 0, connection := 10 } = true ∧ t.world.listening 1 0 = true :=
  ⟨_, _, rfl, by decide +kernel, rfl, by decide +kernel, by decide +kernel, by decide +kernel,
    by decide +kernel, by decide +kernel, by decide +kernel, by decide +kernel⟩

end Source2Root.Voice
