import Source2Root.VoiceRestore

/-!
# What the parts of an operation leave alone

The writes and restores of the service edit the pairs and the engine, never who
mutes whom.  `Hushed` says of two worlds that no receiver has begun to hear a
sender; `Spared` adds that the mutes on record are the same.  The second half
says of every operation exactly which mutes are on record after it.
-/

set_option autoImplicit false

namespace Source2Root.Voice

/-! ## Who is muted -/

/-- The owner holds a mute of exactly this connection. -/
def Holds (v : Service) (owner : Nat) (player : Player) : Prop :=
  ∃ (players : Std.ExtTreeMap Int Player) (found : Player), v.owners[owner]? = some players ∧
    players[player.slot]? = some found ∧ found.sameConnection player = true

theorem muted_iff {v : Service} {player : Player} :
    v.muted player = true ↔ ∃ owner, Holds v owner player := by
  constructor
  · intro muted
    obtain ⟨⟨owner, players⟩, member, same⟩ := List.any_eq_true.mp muted
    have owned := Std.ExtTreeMap.mem_toList_iff_getElem?_eq_some.mp member
    cases at_ : players[player.slot]? with
    | none => simp [at_] at same
    | some found => exact ⟨owner, players, found, owned, at_, by simpa [at_] using same⟩
  · rintro ⟨owner, players, found, owned, at_, same⟩
    refine List.any_eq_true.mpr ⟨(owner, players), ?_, by simpa [at_] using same⟩
    exact Std.ExtTreeMap.mem_toList_iff_getElem?_eq_some.mpr owned

/-! ## Steps that do not make a receiver hear the sender -/

/-- Time has passed: a connection that is over does not return. -/
structure Aged (w later : World) : Prop where
  used : ∀ player, w.known player → later.known player
  stayed : ∀ player, w.known player → later.has player = true → w.has player = true

theorem Aged.refl (w : World) : Aged w w := ⟨fun _ => id, fun _ _ => id⟩

theorem Aged.trans {a b c : World} (ab : Aged a b) (bc : Aged b c) : Aged a c :=
  ⟨fun p known => bc.used p (ab.used p known),
    fun p known has => ab.stayed p known (bc.stayed p (ab.used p known) has)⟩

theorem Moved.aged {w later : World} (moved : Moved w later) : Aged w later :=
  ⟨moved.used, moved.stayed⟩

theorem Aged.hear (w : World) (receiver speaker : Int) (value : Bool) :
    Aged w (w.hear receiver speaker value) :=
  ⟨fun _ => id, fun _ _ => id⟩

theorem Wrote.aged {s later : Sys} {pair : Pair} {value : Bool} {result : KeelResult}
    (wrote : Wrote pair value s result later) : Aged s.world later.world := by
  obtain ⟨-, -, world, moved, effect⟩ := wrote
  rcases effect with ⟨-, written, -, -⟩ | ⟨-, same, -⟩
  · rw [written]
    exact moved.aged.trans (Aged.hear _ _ _ _)
  · rw [same]
    exact moved.aged

/-- No receiver who was there before and still is hears the sender who did not. -/
structure Hushed (sender : Player) (w later : World) : Prop extends Aged w later where
  deaf : ∀ receiver, w.known receiver → w.known sender → later.has receiver = true →
    later.has sender = true → later.listening receiver.slot sender.slot = true →
      w.listening receiver.slot sender.slot = true

variable {sender : Player}

theorem Hushed.refl (w : World) : Hushed sender w w :=
  ⟨Aged.refl w, fun _ _ _ _ _ => id⟩

theorem Hushed.trans {a b c : World} (ab : Hushed sender a b) (bc : Hushed sender b c) :
    Hushed sender a c := by
  refine ⟨ab.toAged.trans bc.toAged, ?_⟩
  intro receiver knownReceiver knownSender hasReceiver hasSender heard
  have between := bc.deaf receiver (ab.used _ knownReceiver) (ab.used _ knownSender)
    hasReceiver hasSender heard
  exact ab.deaf receiver knownReceiver knownSender
    (bc.stayed _ (ab.used _ knownReceiver) hasReceiver)
    (bc.stayed _ (ab.used _ knownSender) hasSender) between

theorem Moved.hushed {w later : World} (moved : Moved w later) : Hushed sender w later := by
  refine ⟨moved.aged, ?_⟩
  intro receiver knownReceiver knownSender hasReceiver hasSender heard
  rwa [(moved.kept _ _ knownReceiver knownSender hasReceiver hasSender).1] at heard

/-- An engine value that is set to "not heard", or for a sender of another
connection. -/
theorem Hushed.hear {w : World} {receiver speaker : Player} {value : Bool}
    (hasSpeaker : w.has speaker = true)
    (harmless : value = false ∨ speaker.sameConnection sender = false) :
    Hushed sender w (w.hear receiver.slot speaker.slot value) := by
  refine ⟨Aged.hear _ _ _ _, ?_⟩
  intro other knownOther knownSender hasOther hasSender heard
  simp only [World.hear] at heard
  split at heard
  · rename_i at_
    rcases harmless with rfl | apart
    · cases heard
    · have same := World.has_unique (w := w) at_.2.symm hasSpeaker hasSender
      rw [same] at apart
      cases apart
  · exact heard

/-- The mutes in force, those held back by a suspension, and whether there is one. -/
def Service.books (v : Service) : Owners × Owners × Bool := (v.owners, v.parked, v.suspended)

/-- The calls made since all ask for the sender not to be heard. -/
def Quiet (sender : Player) (s later : Sys) : Prop :=
  ∃ calls, later.calls = calls ++ s.calls ∧
    ∀ call ∈ calls, call.sender.sameConnection sender = true → call.listening = false

theorem Quiet.of_calls {s later : Sys} (same : later.calls = s.calls) : Quiet sender s later :=
  ⟨[], same, by simp⟩

theorem Quiet.trans {a b c : Sys} (ab : Quiet sender a b) (bc : Quiet sender b c) :
    Quiet sender a c := by
  obtain ⟨first, later, quiet⟩ := ab
  obtain ⟨second, latest, quiet'⟩ := bc
  refine ⟨second ++ first, by rw [latest, later, List.append_assoc], ?_⟩
  intro call member
  exact (List.mem_append.mp member).elim (quiet' call) (quiet call)

/-- The same for a part of an operation, which leaves the mutes on record alone. -/
structure Spared (sender : Player) (s later : Sys) : Prop where
  books : later.service.books = s.service.books
  hushed : Hushed sender s.world later.world
  quiet : Quiet sender s later

theorem Spared.owners {s later : Sys} (spared : Spared sender s later) :
    later.service.owners = s.service.owners :=
  congrArg Prod.fst spared.books

theorem Spared.refl (s : Sys) : Spared sender s s :=
  ⟨rfl, Hushed.refl _, Quiet.of_calls rfl⟩

theorem Spared.trans {a b c : Sys} (ab : Spared sender a b) (bc : Spared sender b c) :
    Spared sender a c :=
  ⟨bc.books.trans ab.books, ab.hushed.trans bc.hushed, ab.quiet.trans bc.quiet⟩

theorem Waited.spared {s later : Sys} (waited : Waited s later) : Spared sender s later :=
  ⟨by rw [waited.service], waited.moved.hushed, Quiet.of_calls waited.calls⟩

/-- A change of the pairs. -/
theorem Spared.of_world {s later : Sys} (books : later.service.books = s.service.books)
    (world : later.world = s.world) (calls : later.calls = s.calls) : Spared sender s later :=
  ⟨books, by rw [world]; exact Hushed.refl _, Quiet.of_calls calls⟩

/-- A write of "not heard", and any write for a sender of another connection. -/
theorem Wrote.spared {s later : Sys} {pair : Pair} {value : Bool} {result : KeelResult}
    (wrote : Wrote pair value s result later)
    (harmless : value = false ∨ pair.sender.sameConnection sender = false) :
    Spared sender s later := by
  obtain ⟨service, calls, world, moved, effect⟩ := wrote
  refine ⟨by rw [service], ?_, ?_⟩
  · rcases effect with ⟨-, written, -, hasSpeaker⟩ | ⟨-, same, -⟩
    · rw [written]
      exact moved.hushed.trans (Hushed.hear hasSpeaker harmless)
    · rw [same]
      exact moved.hushed
  · rcases calls with none_ | one
    · exact Quiet.of_calls none_
    · refine ⟨[_], one, ?_⟩
      intro call member same
      rw [List.mem_singleton.mp member] at same ⊢
      exact harmless.resolve_right (by simp [same])

theorem restrict_spared {s : Sys} (sound : s.world.Sound) (speaker : Player) (pair : Pair) (out : Outcome) :
    Spared sender s (restrict speaker pair out s).2 := by
  have wrote : Spared sender s (write pair false s).2 :=
    (write_spec sound pair false).spared (Or.inl rfl)
  simp only [restrict, bind_get_run]
  split
  · exact Spared.refl s
  · simp only [bind_run]
    split <;> exact wrote

/-- Whatever the state, `m` spares the sender. -/
def Spares {α : Type} (sender : Player) (m : M α) : Prop :=
  ∀ s, Inv s → Spared sender s (m s).2

theorem Spares.pure {α : Type} (a : α) : Spares sender (pure a : M α) := fun s _ => Spared.refl s

theorem Spares.bind {α β : Type} {m : M α} {f : α → M β} (keeps : Keeps m)
    (first : Spares sender m) (rest : ∀ a, Spares sender (f a)) : Spares sender (m >>= f) :=
  fun s inv => (first s inv).trans (rest _ _ (keeps s inv))

theorem Spares.of_waited {α : Type} {m : M α}
    (waits : ∀ s, s.world.Sound → Waited s (m s).2) : Spares sender m :=
  fun s inv => (waits s inv.1.sound).spared

theorem applyTo_spares (sender speaker receiver : Player) (out : Outcome) :
    Spares sender (applyTo speaker receiver out) := by
  intro s inv
  obtain ⟨looked, -, -⟩ := currentPair_spec inv.1.sound { receiver, sender := speaker }
  have lookedInv := looked.inv inv
  have lookedSpared : Spared sender s _ := looked.spared
  simp only [applyTo, bind_run]
  generalize currentPair { receiver, sender := speaker } s = outcome at looked lookedInv lookedSpared
  obtain ⟨result, s₁⟩ := outcome
  cases result with
  | ok =>
    simp only [bind_get_run]
    cases s₁.service.found (Pair.key { receiver, sender := speaker })
        { receiver, sender := speaker } with
    | some existing => exact lookedSpared.trans (restrict_spared lookedInv.1.sound speaker existing out)
    | none =>
        obtain ⟨reading, read⟩ := getListening_spec lookedInv.1.sound receiver speaker
        have readInv := reading.inv lookedInv
        have readSpared := lookedSpared.trans reading.spared
        simp only [bind_run]
        generalize getListening receiver speaker s₁ = outcome at reading read readInv readSpared
        obtain ⟨answer, s₂⟩ := outcome
        cases answer with
        | error result => exact readSpared
        | ok requested =>
            obtain ⟨checking, -, -⟩ :=
              currentPair_spec readInv.1.sound { receiver, sender := speaker, requested }
            have checkedSpared := readSpared.trans checking.spared
            have sound := checking.moved.sound readInv.1.sound
            simp only [bind_run]
            generalize currentPair { receiver, sender := speaker, requested } s₂ = outcome
              at checking checkedSpared sound
            obtain ⟨result, s₃⟩ := outcome
            cases result with
            | ok =>
                simp only [bind_run, modify_run]
                refine checkedSpared.trans (Spared.trans ?_ (restrict_spared ?_ speaker _ out))
                · exact Spared.of_world rfl rfl rfl
                · exact sound
            | _ => exact checkedSpared
  | _ => exact lookedSpared

theorem applyFrom_spares (sender speaker : Player) : ∀ (remaining : Nat) (after : Int) (out : Outcome),
    Spares sender (applyFrom speaker remaining after out) := by
  intro remaining
  induction remaining with
  | zero =>
      intro after out
      unfold applyFrom
      refine Spares.bind (Keeps.of_waited fun _ sound => nextPlayer_spec sound after)
        (Spares.of_waited fun _ sound => nextPlayer_spec sound after) ?_
      intro answer
      split <;> try split
      all_goals exact Spares.pure _
  | succ remaining ih =>
      intro after out
      unfold applyFrom
      refine Spares.bind (Keeps.of_waited fun _ sound => nextPlayer_spec sound after)
        (Spares.of_waited fun _ sound => nextPlayer_spec sound after) ?_
      intro answer
      split
      · exact Spares.pure _
      · exact Spares.pure _
      · split
        · exact Spares.pure _
        · exact Spares.bind (keeps_applyTo speaker _ out) (applyTo_spares _ speaker _ out)
            fun _ => ih _ _

theorem apply_spares (sender speaker : Player) (error : ErrorText) :
    Spares sender (apply speaker error) :=
  applyFrom_spares _ speaker 128 (-1) _

/-! ## A restore passes over a muted sender -/

theorem settle_books (v : Service) (key : Int × Int) (pair : Pair) :
    (v.settle key pair).books = v.books := by
  unfold Service.settle
  split
  · split <;> rfl
  · rfl

theorem restoreOne_books {s : Sys} (inv : Inv s) (owner : Nat) (only : Option Player)
    (out : Outcome) (item : (Int × Int) × Pair) :
    (restoreOne owner only out item s).2.service.books = s.service.books ∧
      Aged s.world (restoreOne owner only out item s).2.world := by
  obtain ⟨key, pair⟩ := item
  have wrote := putBack_spec inv.1.sound pair
  simp only [restoreOne, bind_get_run]
  split
  · exact ⟨rfl, Aged.refl _⟩
  · split
    · exact ⟨rfl, Aged.refl _⟩
    · simp only [bind_run]
      split
      · simp only [bind_run, modify_run, pure_run]
        exact ⟨by rw [settle_books, wrote.service], wrote.aged⟩
      · exact ⟨congrArg Service.books wrote.service, wrote.aged⟩

theorem restore_books {s : Sys} (inv : Inv s) (owner : Nat) (only : Option Player)
    (error : ErrorText) : (restore owner only error s).2.service.books = s.service.books ∧
      Aged s.world (restore owner only error s).2.world := by
  refine (foldlM_rule (P := fun t _ => Inv t ∧ t.service.books = s.service.books ∧
    Aged s.world t.world) s.service.pairs.toList ?_ s ({ error } : Outcome)
    ⟨inv, rfl, Aged.refl _⟩).2
  intro item _ t out ⟨tInv, same, aged⟩
  have one := restoreOne_books tInv owner only out item
  exact ⟨keeps_restoreOne owner only out item t tInv, one.1.trans same, aged.trans one.2⟩

theorem restore_owners {s : Sys} (inv : Inv s) (owner : Nat) (only : Option Player)
    (error : ErrorText) : (restore owner only error s).2.service.owners = s.service.owners :=
  congrArg Prod.fst (restore_books inv owner only error).1

theorem restoreOne_spared {s : Sys} (inv : Inv s) (muted : s.service.muted sender = true)
    (owner : Nat) (only : Option Player) (out : Outcome) (item : (Int × Int) × Pair) :
    Spared sender s (restoreOne owner only out item s).2 := by
  obtain ⟨key, pair⟩ := item
  simp only [restoreOne, bind_get_run]
  split
  · exact Spared.refl s
  · rename_i passed
    split
    · exact Spared.refl s
    · -- the loop is here only for a sender nobody mutes
      have unmuted : s.service.muted pair.sender = false := by
        rw [Bool.eq_false_iff]
        intro held
        simp [held] at passed
      have other : pair.sender.sameConnection sender = false := by
        rw [Bool.eq_false_iff]
        intro same
        rw [muted_same s.service same, muted] at unmuted
        cases unmuted
      have wrote : Spared sender s (putBack pair s).2 :=
        (putBack_spec inv.1.sound pair).spared (Or.inr other)
      simp only [bind_run]
      split
      · simp only [bind_run, modify_run, pure_run]
        exact wrote.trans (Spared.of_world (settle_books _ key pair) rfl rfl)
      · exact wrote

theorem restore_spared {s : Sys} (inv : Inv s) (muted : s.service.muted sender = true)
    (owner : Nat) (only : Option Player) (error : ErrorText) :
    Spared sender s (restore owner only error s).2 := by
  refine (foldlM_rule (P := fun t _ => Inv t ∧ Spared sender s t) s.service.pairs.toList ?_ s
    ({ error } : Outcome) ⟨inv, Spared.refl s⟩).2
  intro item _ t out ⟨tInv, spared⟩
  have still : t.service.muted sender = true := by rw [muted_congr spared.owners, muted]
  exact ⟨keeps_restoreOne owner only out item t tInv,
    spared.trans (restoreOne_spared tInv still owner only out item)⟩

theorem removed_spares (sender : Player) (owner : Nat) (other : Player) :
    Spares sender (removed owner other) := by
  intro s inv
  rw [removed_run]
  split
  · exact Spared.refl s
  · exact Spared.of_world rfl rfl rfl

theorem forM_spares {α : Type} {f : α → M PUnit} (keeps : ∀ a, Keeps (f a))
    (one : ∀ a, Spares sender (f a)) : ∀ list : List α, Spares sender (list.forM f) := by
  intro list
  induction list with
  | nil => exact Spares.pure _
  | cons a rest ih => exact Spares.bind (keeps a) (one a) fun _ => ih

theorem removedAll_spares (sender : Player) (gone : Owners) : Spares sender (removedAll gone) := by
  apply forM_spares
  · rintro ⟨id, players⟩
    exact Keeps.forM (fun (_, player) => keeps_removed id player) _
  · rintro ⟨id, players⟩
    exact forM_spares (fun (_, player) => keeps_removed id player)
      (fun (_, player) => removed_spares _ id player) _

/-! ## The mutes on record -/

/-- The owner's entry for the slot. -/
def look (owners : Owners) (owner : Nat) (slot : Int) : Option Player :=
  owners[owner]?.bind fun players => players[slot]?

theorem holds_iff {v : Service} {owner : Nat} {player : Player} :
    Holds v owner player ↔
      ∃ found, look v.owners owner player.slot = some found ∧ found.sameConnection player = true := by
  constructor
  · rintro ⟨players, found, owned, at_, same⟩
    exact ⟨found, by simp [look, owned, at_], same⟩
  · rintro ⟨found, at_, same⟩
    obtain ⟨players, owned, placed⟩ := Option.bind_eq_some_iff.mp at_
    exact ⟨players, found, owned, placed, same⟩

@[simp] theorem look_empty (owner : Nat) (slot : Int) : look ∅ owner slot = none := by
  simp [look]

/-- The owners when one more mute is on record. -/
def recorded (owners : Owners) (owner : Nat) (player : Player) : Owners :=
  owners.alter owner fun players => some ((players.getD ∅).insert player.slot player)

theorem look_recorded (owners : Owners) (owner id : Nat) (player : Player) (slot : Int) :
    look (recorded owners owner player) id slot =
      if id = owner ∧ slot = player.slot then some player else look owners id slot := by
  simp only [look, recorded, Std.ExtTreeMap.getElem?_alter, Std.LawfulEqOrd.compare_eq_iff_eq]
  by_cases owned : owner = id
  · subst owned
    simp only [if_true, Option.bind_some, Std.ExtTreeMap.getElem?_insert,
      Std.LawfulEqOrd.compare_eq_iff_eq, true_and]
    by_cases at_ : player.slot = slot
    · simp [at_]
    · rw [if_neg at_, if_neg (Ne.symm at_)]
      cases owners[owner]? <;> simp
  · rw [if_neg owned, if_neg fun both => owned both.1.symm]

theorem look_forget (owners : Owners) (owner id : Nat) (at_ slot : Int) :
    look (forget owners owner at_) id slot =
      if id = owner ∧ slot = at_ then none else look owners id slot := by
  simp only [look, forget, Std.ExtTreeMap.getElem?_alter, Std.LawfulEqOrd.compare_eq_iff_eq]
  by_cases owned : owner = id
  · subst owned
    simp only [if_true, true_and]
    cases placed : owners[owner]? with
    | none => simp
    | some players =>
        have erased : (if (players.erase at_).isEmpty = true then none
            else some (players.erase at_)).bind (fun left => left[slot]?) =
              (players.erase at_)[slot]? := by
          split
          · rename_i empty
            rw [Std.ExtTreeMap.isEmpty_iff.mp empty]
            simp
          · rfl
        simp only [Option.bind_some, erased, Std.ExtTreeMap.getElem?_erase,
          Std.LawfulEqOrd.compare_eq_iff_eq]
        by_cases same : at_ = slot
        · simp [same]
        · rw [if_neg same, if_neg (Ne.symm same)]
  · rw [if_neg owned, if_neg fun both => owned both.1.symm]

theorem look_filter (owners : Owners) (keep : Nat → Bool) (id : Nat) (slot : Int) :
    look (owners.filter fun id _ => keep id) id slot =
      if keep id then look owners id slot else none := by
  simp only [look, Std.ExtTreeMap.getElem?_filter']
  cases owners[id]? with
  | none => simp
  | some players => cases kept : keep id <;> simp [Option.filter]

theorem look_dropConnection (owners : Owners) (at_ : Int) (connection : Nat) (id : Nat)
    (slot : Int) : look (dropConnection owners at_ connection) id slot =
      (look owners id slot).filter fun player =>
        ¬ (slot = at_ ∧ player.connection = connection) := by
  simp only [look, dropConnection, Std.ExtTreeMap.getElem?_filter', Std.ExtTreeMap.getElem?_map]
  cases owners[id]? with
  | none => simp
  | some players =>
      simp only [Option.map_some, Option.bind_some]
      have found : (players.filter fun at' player =>
          decide ¬ (at' = at_ ∧ player.connection = connection))[slot]? =
            players[slot]?.filter fun player =>
              decide ¬ (slot = at_ ∧ player.connection = connection) :=
        Std.ExtTreeMap.getElem?_filter'
      rw [← found]
      cases empty : (players.filter fun at' player =>
          decide ¬ (at' = at_ ∧ player.connection = connection)).isEmpty with
      | true =>
          simp only [Option.filter, empty, Bool.not_true, Bool.false_eq_true, if_false]
          rw [Std.ExtTreeMap.isEmpty_iff.mp empty]
          simp
      | false => simp only [Option.filter, empty, Bool.not_false, if_true, Option.bind_some]

/-! ## What each operation does to them -/

theorem set_mute_books {s : Sys} (inv : Inv s) (owner : Nat) (player : Player) :
    ((set owner player true s).2.service.books = s.service.books ∧
        (set owner player true s).1.success = false) ∨
      (set owner player true s).2.service.books =
          (recorded s.service.owners owner player, s.service.parked, s.service.suspended) ∧
        (set owner player true s).2.world.known player := by
  have looked := (current_spec inv.1.sound player).1
  have inv₁ := looked.inv inv
  have same₁ : (current player s).2.service = s.service := looked.service
  simp only [set, bind_run]
  generalize current player s = outcome at inv₁ same₁
  obtain ⟨result, s₁⟩ := outcome
  cases result with
  | ok =>
      have reading := (getListening_spec inv₁.1.sound player player).1
      have inv₂ := reading.inv inv₁
      have same₂ : (getListening player player s₁).2.service = s.service :=
        reading.service.trans same₁
      simp only [if_true, bind_run]
      generalize getListening player player s₁ = outcome at inv₂ same₂
      obtain ⟨answer, s₂⟩ := outcome
      cases answer with
      | error result => exact Or.inl ⟨congrArg Service.books same₂, rfl⟩
      | ok value =>
          obtain ⟨checking, there, -⟩ := current_spec inv₂.1.sound player
          have inv₃ := checking.inv inv₂
          have same₃ : (current player s₂).2.service = s.service := checking.service.trans same₂
          simp only [bind_run]
          generalize current player s₂ = outcome at there inv₃ same₃
          obtain ⟨result, s₃⟩ := outcome
          cases result with
          | ok =>
              right
              simp only [bind_run, modify_run]
              have inv₄ : Inv { s₃ with
                service.owners := recorded s₃.service.owners owner player } := inv₃
              have applied := apply_spares player player [] _ inv₄
              have known := applied.hushed.used player (inv₃.1.sound.known_of_has (there rfl))
              have same : s₃.service = s.service := same₃
              rw [← same]
              split <;> exact ⟨applied.books, known⟩
          | _ => exact Or.inl ⟨congrArg Service.books same₃, rfl⟩
  | _ => exact Or.inl ⟨congrArg Service.books same₁, rfl⟩

theorem removed_books (owner : Nat) (player : Player) (s : Sys) :
    (removed owner player s).2.service.books = s.service.books := by
  rw [removed_run]
  split <;> rfl

theorem set_unmute_books {s : Sys} (inv : Inv s) (owner : Nat) (player : Player) :
    ((set owner player false s).2.service.books = s.service.books ∧
        (set owner player false s).1.success = false) ∨
      (set owner player false s).2.service.books =
        (forget s.service.owners owner player.slot, s.service.parked, s.service.suspended) := by
  have looked := (current_spec inv.1.sound player).1
  have inv₁ := looked.inv inv
  have same₁ : (current player s).2.service = s.service := looked.service
  simp only [set, bind_run]
  generalize current player s = outcome at inv₁ same₁
  obtain ⟨result, s₁⟩ := outcome
  cases result with
  | ok =>
      right
      simp only [Bool.false_eq_true, if_false, bind_run, modify_run]
      have inv₂ : Inv { s₁ with
        service.owners := forget s₁.service.owners owner player.slot } := inv₁
      have kept := (restore_books (keeps_removed owner player _ inv₂) owner (some player) []).1.trans
        (removed_books owner player _)
      have same : s₁.service = s.service := same₁
      rw [← same]
      exact kept
  | _ => exact Or.inl ⟨congrArg Service.books same₁, rfl⟩

theorem removedAll_books (gone : Owners) {s : Sys} (inv : Inv s) :
    (removedAll gone s).2.service.books = s.service.books :=
  (removedAll_spares default gone s inv).books

theorem release_books {s : Sys} (inv : Inv s) (owner : Nat) :
    (release owner s).2.service.books =
      (s.service.owners.filter fun id _ => ¬ (owner = 0 ∨ id = owner),
        (s.service.unpark owner).parked, (s.service.unpark owner).suspended) := by
  have inv₁ : Inv (released s owner) := unpark_inv inv owner
  rw [release_run, (restore_books (keeps_removedAll _ _ inv₁) owner none []).1,
    removedAll_books _ inv₁]
  have owners : (s.service.unpark owner).owners = s.service.owners := by
    unfold Service.unpark
    split <;> rfl
  simp only [released, Service.books, owners]

/-- Every mute on record is filed under the slot of a player who was once there. -/
structure Filed (s : Sys) : Prop where
  inForce : ∀ owner slot player, look s.service.owners owner slot = some player →
    player.slot = slot ∧ s.world.known player
  heldBack : ∀ owner slot player, look s.service.parked owner slot = some player →
    player.slot = slot ∧ s.world.known player

/-- `Refresh` forgets nothing but mutes of players who have left. -/
structure Trimmed (s later : Sys) : Prop where
  parked : later.service.parked = s.service.parked
  suspended : later.service.suspended = s.service.suspended
  aged : Aged s.world later.world
  entries : ∀ owner slot, look later.service.owners owner slot = look s.service.owners owner slot ∨
    look later.service.owners owner slot = none ∧
      ∀ found, look s.service.owners owner slot = some found → later.world.has found = false

theorem Trimmed.refl (s : Sys) : Trimmed s s :=
  ⟨rfl, rfl, Aged.refl _, fun _ _ => Or.inl rfl⟩

/-- What leaves the mutes alone keeps what is trimmed. -/
theorem Trimmed.later {s t later : Sys} (filed : Filed s) (trimmed : Trimmed s t)
    (books : later.service.books = t.service.books) (aged : Aged t.world later.world) :
    Trimmed s later := by
  have parked : later.service.parked = t.service.parked := congrArg (fun books => books.2.1) books
  have suspended : later.service.suspended = t.service.suspended :=
    congrArg (fun books => books.2.2) books
  have owners : later.service.owners = t.service.owners := congrArg Prod.fst books
  refine ⟨parked.trans trimmed.parked, suspended.trans trimmed.suspended,
    trimmed.aged.trans aged, ?_⟩
  intro owner slot
  rw [owners]
  rcases trimmed.entries owner slot with same | ⟨gone, absent⟩
  · exact Or.inl same
  · refine Or.inr ⟨gone, fun found at_ => ?_⟩
    rw [Bool.eq_false_iff]
    intro has
    have known := trimmed.aged.used found (filed.inForce owner slot found at_).2
    have before := aged.stayed found known has
    rw [absent found at_] at before
    cases before

theorem sweep_trimmed {s t : Sys} (filed : Filed s) (inv : Inv t) (trimmed : Trimmed s t)
    {owner : Nat} {acc : Std.ExtTreeMap Int Player × Outcome} {slot : Int} {found : Player}
    (at_ : look s.service.owners owner slot = some found) :
    Trimmed s (sweep owner acc (slot, found) t).2 := by
  obtain ⟨looked, -, gone⟩ := current_spec inv.1.sound found
  have waited := trimmed.later filed (congrArg Service.books looked.service) looked.moved.aged
  simp only [sweep, bind_run]
  generalize current found t = outcome at gone waited
  obtain ⟨result, t₁⟩ := outcome
  cases result with
  | notFound =>
      simp only [bind_run, modify_run, pure_run]
      refine ⟨waited.parked, waited.suspended, waited.aged, ?_⟩
      intro id at'
      simp only [look_forget]
      by_cases this : id = owner ∧ at' = slot
      · rw [if_pos this, this.1, this.2]
        refine Or.inr ⟨rfl, fun other same => ?_⟩
        rw [at_] at same
        cases same
        exact gone rfl
      · rw [if_neg this]
        exact waited.entries id at'
  | _ => exact waited

theorem mem_look {owners : Owners} {owner : Nat} {slot : Int}
    {players : Std.ExtTreeMap Int Player compare} {found : Player} (owned : (owner, players) ∈ owners.toList)
    (there : (slot, found) ∈ players.toList) : look owners owner slot = some found := by
  have placed := Std.ExtTreeMap.mem_toList_iff_getElem?_eq_some.mp owned
  have entry := Std.ExtTreeMap.mem_toList_iff_getElem?_eq_some.mp there
  simp [look, placed, entry]

theorem sweepAll_trimmed {s : Sys} (filed : Filed s) (inv : Inv s) :
    Trimmed s (sweepAll s.service.owners s).2 := by
  unfold sweepAll
  refine (foldlM_rule (P := fun t _ => Inv t ∧ Trimmed s t) _ ?_ s _ ⟨inv, Trimmed.refl s⟩).2
  rintro ⟨owner, players⟩ owned t acc start
  refine foldlM_rule (P := fun t _ => Inv t ∧ Trimmed s t) _ ?_ t acc start
  rintro ⟨slot, found⟩ there t acc ⟨tInv, trimmed⟩
  exact ⟨keeps_sweep owner acc _ t tInv,
    sweep_trimmed filed tInv trimmed (mem_look owned there)⟩

theorem enforce_spares (sender : Player) (out : Outcome) (item : Int × Player) :
    Spares sender (enforce out item) :=
  Spares.bind (keeps_apply item.2 _) (apply_spares _ item.2 _) fun _ => Spares.pure _

theorem enforceAll_spares (sender : Player) : ∀ (senders : List (Int × Player)) (out : Outcome),
    Spares sender (senders.foldlM enforce out) := by
  intro senders
  induction senders with
  | nil => exact fun out => Spares.pure out
  | cons item rest ih =>
      intro out
      rw [List.foldlM_cons]
      exact Spares.bind (keeps_enforce out item) (enforce_spares _ out item) ih

/-- `Refresh` after its sweeps. -/
def refreshFrom (senders : Std.ExtTreeMap Int Player) (swept : Outcome) : M Outcome := do
  let restored ← restore 0 none swept.error
  senders.toList.foldlM enforce { restored with success := swept.success && restored.success }

theorem refresh_run (s : Sys) :
    refresh s = refreshFrom (sweepAll s.service.owners s).1.1 (sweepAll s.service.owners s).1.2
      (sweepAll s.service.owners s).2 := rfl

theorem refreshFrom_books {s : Sys} (inv : Inv s) (senders : Std.ExtTreeMap Int Player)
    (swept : Outcome) : (refreshFrom senders swept s).2.service.books = s.service.books ∧
      Aged s.world (refreshFrom senders swept s).2.world := by
  simp only [refreshFrom, bind_run]
  have restored := restore_books inv 0 none swept.error
  have enforced := enforceAll_spares default senders.toList
    { (restore 0 none swept.error s).1 with
      success := swept.success && (restore 0 none swept.error s).1.success } _
    (keeps_restore 0 none swept.error s inv)
  exact ⟨enforced.books.trans restored.1, restored.2.trans enforced.hushed.toAged⟩

theorem refresh_trimmed {s : Sys} (filed : Filed s) (inv : Inv s) : Trimmed s (refresh s).2 := by
  have swept := sweepAll_trimmed filed inv
  have rest := refreshFrom_books (sweeps inv).inv (sweepAll s.service.owners s).1.1
    (sweepAll s.service.owners s).1.2
  rw [refresh_run]
  exact swept.later filed rest.1 rest.2

/-! ## Time passes in every operation -/

def Ages {α : Type} (m : M α) : Prop := ∀ s, Inv s → Aged s.world (m s).2.world

theorem Ages.pure {α : Type} (a : α) : Ages (pure a : M α) := fun s _ => Aged.refl s.world

theorem Ages.bind {α β : Type} {m : M α} {f : α → M β} (keeps : Keeps m) (first : Ages m)
    (rest : ∀ a, Ages (f a)) : Ages (m >>= f) :=
  fun s inv => (first s inv).trans (rest _ _ (keeps s inv))

theorem Ages.of_waited {α : Type} {m : M α}
    (waits : ∀ s, s.world.Sound → Waited s (m s).2) : Ages m :=
  fun s inv => (waits s inv.1.sound).moved.aged

theorem ages_current (player : Player) : Ages (current player) :=
  Ages.of_waited fun _ sound => (current_spec sound player).1

theorem ages_set (owner : Nat) (player : Player) (muted : Bool) :
    Ages (set owner player muted) := by
  unfold set
  apply Ages.bind (keeps_current player) (ages_current player)
  intro result
  cases result with
  | ok =>
      cases muted with
      | false =>
          intro s inv
          simp only [Bool.false_eq_true, if_false, bind_run, modify_run]
          have inv₁ : Inv { s with
            service.owners := forget s.service.owners owner player.slot } := inv
          have taken := removed_spares player owner player _ inv₁
          exact taken.hushed.toAged.trans
            (restore_books (keeps_removed owner player _ inv₁) owner (some player) []).2
      | true =>
          apply Ages.bind (keeps_getListening player player)
            (Ages.of_waited fun _ sound => (getListening_spec sound player player).1)
          intro heard
          cases heard with
          | error result => exact Ages.pure _
          | ok value =>
              apply Ages.bind (keeps_current player) (ages_current player)
              intro checked
              cases checked with
              | ok =>
                  intro s inv
                  simp only [bind_run, modify_run]
                  have inv₁ : Inv { s with
                    service.owners := recorded s.service.owners owner player } := inv
                  have applied := (apply_spares player player [] _ inv₁).hushed.toAged
                  split <;> exact applied
              | _ => exact Ages.pure _
  | _ => exact Ages.pure _

theorem ages_release (owner : Nat) : Ages (release owner) := by
  intro s inv
  have inv₁ : Inv (released s owner) := unpark_inv inv owner
  rw [release_run]
  exact (removedAll_spares default _ _ inv₁).hushed.toAged.trans
    (restore_books (keeps_removedAll _ _ inv₁) owner none []).2

theorem ages_sweepAll (owners : Owners) : Ages (sweepAll owners) := by
  intro s inv
  unfold sweepAll
  refine (foldlM_rule (P := fun t _ => Inv t ∧ Aged s.world t.world) _ ?_ s _
    ⟨inv, Aged.refl _⟩).2
  rintro ⟨owner, players⟩ - t acc start
  refine foldlM_rule (P := fun t _ => Inv t ∧ Aged s.world t.world) _ ?_ t acc start
  rintro item - t acc ⟨tInv, aged⟩
  refine ⟨keeps_sweep owner acc item t tInv, aged.trans ?_⟩
  have looked := ages_current item.2 t tInv
  simp only [sweep, bind_run]
  generalize current item.2 t = outcome at looked
  obtain ⟨result, t₁⟩ := outcome
  cases result <;> exact looked

theorem ages_refresh : Ages refresh := by
  intro s inv
  rw [refresh_run]
  exact (ages_sweepAll _ s inv).trans (refreshFrom_books (sweeps inv).inv _ _).2

/-- A service that mutes nobody. -/
def lifted (s : Sys) : Sys := { s with service := { s.service with owners := ∅ } }

theorem suspend_run {s : Sys} (active : s.service.suspended = false) :
    suspend s =
      if (restore 0 none [] (lifted s)).1.success then
        ((restore 0 none [] (lifted s)).1, { (restore 0 none [] (lifted s)).2 with
          service.parked := s.service.owners, service.suspended := true })
      else
        ((restore 0 none [] (lifted s)).1, (refresh { (restore 0 none [] (lifted s)).2 with
          service.owners := s.service.owners }).2) := by
  simp only [suspend, bind_get_run, active, Bool.false_eq_true, if_false]
  simp only [bind_run, modify_run]
  split
  · rename_i done
    exact (if_pos done).symm
  · rename_i failed
    exact (if_neg failed).symm

theorem suspend_again {s : Sys} (suspended : s.service.suspended = true) :
    suspend s = restore 0 none [] s := by
  simp only [suspend, bind_get_run, suspended, if_true]

theorem ages_suspend : Ages suspend := by
  intro s inv
  cases suspended : s.service.suspended with
  | true =>
      rw [suspend_again suspended]
      exact (restore_books inv 0 none []).2
  | false =>
      have restored := (restore_books (s := lifted s) inv 0 none []).2
      have after : Inv { (restore 0 none [] (lifted s)).2 with service.owners := s.service.owners } :=
        keeps_restore 0 none [] (lifted s) inv
      rw [suspend_run suspended]
      split
      · exact restored
      · exact restored.trans (ages_refresh _ after)

/-- The mutes held back, if there is a suspension, are in force again. -/
def resumed (s : Sys) : Sys :=
  if s.service.suspended then
    { s with service := { s.service with owners := s.service.parked, parked := ∅, suspended := false } }
  else s

theorem resume_run (s : Sys) : resume s = refresh (resumed s) := rfl

theorem resumed_inv {s : Sys} (inv : Inv s) : Inv (resumed s) := by
  unfold resumed
  split <;> exact inv

theorem resumed_world (s : Sys) : (resumed s).world = s.world := by
  unfold resumed
  split <;> rfl

theorem request_books {s : Sys} (inv : Inv s) (still : Still s) (receiver speaker : Int)
    (listening : Bool) : (request receiver speaker listening s).2.service.books = s.service.books ∧
      Aged s.world (request receiver speaker listening s).2.world := by
  obtain ⟨world, observed, refused⟩ := filter_still still inv.2 receiver speaker listening
  simp only [request, bind_run]
  generalize filter receiver speaker listening s = outcome at world observed refused
  obtain ⟨⟨result, value⟩, later⟩ := outcome
  have same : later.world = s.world := world
  by_cases ok : result = .ok
  · obtain ⟨hearer, talker, -, -, answer⟩ := observed ok
    have service : later.service = _ := congrArg Prod.snd answer
    simp only [if_pos ok, bind_run, modify_run, pure_run, same, service]
    refine ⟨?_, ⟨fun _ => id, fun _ _ => id⟩⟩
    unfold Service.observe
    dsimp only
    split <;> rfl
  · have service : later.service = s.service := refused ok
    simp only [if_neg ok, pure_run, same, service]
    exact ⟨trivial, Aged.refl _⟩

theorem step_aged {s : Sys} (inv : Inv s) (label : Label) :
    Aged s.world (step s label).2.world := by
  have ready : Inv { s with replies := label.replies } := inv
  cases label with
  | set owner player muted replies => exact ages_set owner player muted _ ready
  | release owner replies => exact ages_release owner _ ready
  | refresh replies => exact ages_refresh _ ready
  | suspend replies => exact ages_suspend _ ready
  | resume replies =>
      have later := ages_refresh _ (resumed_inv ready)
      rw [resumed_world] at later
      exact later
  | request receiver speaker listening faults =>
      refine (request_books ready ?_ receiver speaker listening).2
      intro reply member
      obtain ⟨fault, -, rfl⟩ := List.mem_map.mp member
      rfl
  | disconnected slot connection => exact (depart_gone inv.1.sound slot connection).1.aged
  | move changes => exact (moved_moves changes inv.1.sound).aged

theorem Filed.of_books {s later : Sys} (filed : Filed s) (aged : Aged s.world later.world)
    (inForce : ∀ owner slot player, look later.service.owners owner slot = some player →
      look s.service.owners owner slot = some player ∨ look s.service.parked owner slot = some player)
    (heldBack : ∀ owner slot player, look later.service.parked owner slot = some player →
      look s.service.owners owner slot = some player ∨
        look s.service.parked owner slot = some player) : Filed later := by
  have known (owner : Nat) (slot : Int) (player : Player)
      (before : look s.service.owners owner slot = some player ∨
        look s.service.parked owner slot = some player) :
      player.slot = slot ∧ later.world.known player := by
    rcases before with at_ | at_
    · exact (filed.inForce owner slot player at_).imp_right (aged.used player)
    · exact (filed.heldBack owner slot player at_).imp_right (aged.used player)
  exact ⟨fun owner slot player at_ => known owner slot player (inForce owner slot player at_),
    fun owner slot player at_ => known owner slot player (heldBack owner slot player at_)⟩

theorem Filed.same_books {s later : Sys} (filed : Filed s) (aged : Aged s.world later.world)
    (books : later.service.books = s.service.books) : Filed later := by
  obtain ⟨owners, parked, -⟩ : later.service.owners = s.service.owners ∧
      later.service.parked = s.service.parked ∧
        later.service.suspended = s.service.suspended := by simpa [Service.books] using books
  apply filed.of_books aged
  · rw [owners]
    exact fun _ _ _ => Or.inl
  · rw [parked]
    exact fun _ _ _ => Or.inr

theorem Filed.trimmed {s later : Sys} (filed : Filed s) (trimmed : Trimmed s later) :
    Filed later := by
  apply filed.of_books trimmed.aged
  · intro owner slot player at_
    rcases trimmed.entries owner slot with same | ⟨gone, -⟩
    · exact Or.inl (same ▸ at_)
    · rw [gone] at at_
      cases at_
  · rw [trimmed.parked]
    exact fun _ _ _ => Or.inr

theorem resumed_filed {s : Sys} (filed : Filed s) : Filed (resumed s) := by
  unfold resumed
  split
  · exact ⟨filed.heldBack, by simp⟩
  · exact filed

theorem books_eq {s : Sys} {owners parked : Owners} {suspended : Bool}
    (books : s.service.books = (owners, parked, suspended)) :
    s.service.owners = owners ∧ s.service.parked = parked ∧ s.service.suspended = suspended := by
  simpa [Service.books] using books

/-- The state in which a refused suspension refreshes. -/
def putInForce (s : Sys) : Sys :=
  { (restore 0 none [] (lifted s)).2 with service.owners := s.service.owners }

theorem putInForce_inv {s : Sys} (inv : Inv s) : Inv (putInForce s) :=
  keeps_restore 0 none [] (lifted s) inv

theorem putInForce_books {s : Sys} (inv : Inv s) :
    (putInForce s).service.books = s.service.books ∧ Aged s.world (putInForce s).world := by
  obtain ⟨books, aged⟩ := restore_books (s := lifted s) inv 0 none []
  obtain ⟨-, parked, suspended⟩ := books_eq books
  refine ⟨?_, aged⟩
  simp only [putInForce, Service.books, parked, suspended]
  rfl

/-- A suspension that succeeds leaves nobody muted and holds every mute back. -/
theorem suspended_of_success {s : Sys} (inv : Inv s) (active : s.service.suspended = false)
    (succeeded : (suspend s).1.success = true) :
    (suspend s).2.service.books = (∅, s.service.owners, true) := by
  obtain ⟨owners, -, -⟩ := books_eq (restore_books (s := lifted s) inv 0 none []).1
  rw [suspend_run active] at succeeded ⊢
  split at succeeded
  · rename_i done
    rw [if_pos done]
    simp only [Service.books, owners]
    rfl
  · rename_i failed
    exact absurd succeeded failed

theorem suspend_refused {s : Sys} (active : s.service.suspended = false)
    (failed : (suspend s).1.success ≠ true) : (suspend s).2 = (refresh (putInForce s)).2 := by
  rw [suspend_run active] at failed ⊢
  split at failed
  · rename_i done
    exact absurd done failed
  · rename_i refused
    rw [if_neg refused]
    rfl

theorem step_filed {s : Sys} (inv : Inv s) (filed : Filed s) (label : Label) :
    Filed (step s label).2 := by
  have ready : Inv { s with replies := label.replies } := inv
  have filed₀ : Filed { s with replies := label.replies } := ⟨filed.inForce, filed.heldBack⟩
  have aged := step_aged inv label
  cases label with
  | set owner player muted replies =>
      cases muted with
      | true =>
          rcases set_mute_books ready owner player with ⟨same, -⟩ | ⟨books, known⟩
          · exact filed.same_books aged same
          · obtain ⟨owners, parked, -⟩ := books_eq books
            constructor
            · intro id slot found at_
              change look (set owner player true _).2.service.owners id slot = some found at at_
              rw [owners, look_recorded] at at_
              split at at_
              · rename_i this
                cases at_
                exact ⟨this.2.symm, known⟩
              · exact (filed.inForce id slot found at_).imp_right (aged.used found)
            · intro id slot found at_
              change look (set owner player true _).2.service.parked id slot = some found at at_
              rw [parked] at at_
              exact (filed.heldBack id slot found at_).imp_right (aged.used found)
      | false =>
          rcases set_unmute_books ready owner player with ⟨same, -⟩ | books
          · exact filed.same_books aged same
          · obtain ⟨owners, parked, -⟩ := books_eq books
            apply filed.of_books aged
            · intro id slot found at_
              change look (set owner player false _).2.service.owners id slot = some found at at_
              rw [owners, look_forget] at at_
              split at at_
              · cases at_
              · exact Or.inl at_
            · intro id slot found at_
              change look (set owner player false _).2.service.parked id slot = some found at at_
              rw [parked] at at_
              exact Or.inr at_
  | release owner replies =>
      obtain ⟨owners, parked, -⟩ := books_eq (release_books ready owner)
      apply filed.of_books aged
      · intro id slot found at_
        change look (release owner _).2.service.owners id slot = some found at at_
        rw [owners, look_filter] at at_
        split at at_
        · exact Or.inl at_
        · cases at_
      · intro id slot found at_
        change look (release owner _).2.service.parked id slot = some found at at_
        rw [parked] at at_
        simp only [Service.unpark] at at_
        split at at_
        · simp only [look, Std.ExtTreeMap.getElem?_erase] at at_
          split at at_
          · cases at_
          · exact Or.inr at_
        · simp at at_
  | refresh replies => exact filed₀.trimmed (refresh_trimmed filed₀ ready)
  | suspend replies =>
      cases suspended : s.service.suspended with
      | true =>
          have ran := suspend_again (s := { s with replies }) suspended
          refine filed.same_books aged ?_
          change (suspend { s with replies }).2.service.books = _
          rw [ran]
          exact (restore_books ready 0 none []).1
      | false =>
          change Filed (suspend { s with replies }).2
          by_cases succeeded : (suspend { s with replies }).1.success = true
          · obtain ⟨owners, parked, -⟩ := books_eq
              (suspended_of_success (s := { s with replies }) inv suspended succeeded)
            apply filed.of_books aged
            · intro id slot found at_
              change look (suspend { s with replies }).2.service.owners id slot = some found at at_
              rw [owners, look_empty] at at_
              cases at_
            · intro id slot found at_
              change look (suspend { s with replies }).2.service.parked id slot = some found at at_
              rw [parked] at at_
              exact Or.inl at_
          · rw [suspend_refused (s := { s with replies }) suspended succeeded]
            obtain ⟨books, aged⟩ := putInForce_books (s := { s with replies }) inv
            have back := filed₀.same_books aged books
            exact back.trimmed (refresh_trimmed back (putInForce_inv (s := { s with replies }) inv))
  | resume replies =>
      have back := resumed_filed filed₀
      exact back.trimmed (refresh_trimmed back (resumed_inv ready))
  | request receiver speaker listening faults =>
      refine filed.same_books aged (request_books ready ?_ receiver speaker listening).1
      intro reply member
      obtain ⟨fault, -, rfl⟩ := List.mem_map.mp member
      rfl
  | disconnected slot connection =>
      apply filed.of_books aged
      · intro id at' found there
        change look (dropConnection s.service.owners slot connection) id at' = some found at there
        rw [look_dropConnection, Option.filter_eq_some_iff] at there
        exact Or.inl there.1
      · intro id at' found there
        change look (dropConnection s.service.parked slot connection) id at' = some found at there
        rw [look_dropConnection, Option.filter_eq_some_iff] at there
        exact Or.inr there.1
  | move changes => exact filed.same_books aged rfl

theorem filed_start : Filed {} := ⟨by simp, by simp⟩

theorem filed_run : ∀ history s, Transition.run next {} history = some s → Inv s ∧ Filed s := by
  refine Transition.history_induction (P := fun _ s => Inv s ∧ Filed s) ⟨inv_start, filed_start⟩ ?_
  intro history s label later both stepped
  cases Option.some.inj stepped
  exact ⟨step_inv both.1 label, step_filed both.1 both.2 label⟩

end Source2Root.Voice
