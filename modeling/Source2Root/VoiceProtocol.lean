import Source2Root.Transition
import Source2Root.Voice

/-!
# No lost restore

For every pair of current connections the service either remembers the last
value requested from outside, or the engine's value is that value.  `Matched`
is this statement about one world and one table of pairs; `Moved` says what the
environment can change while the service waits for the host.
-/

set_option autoImplicit false

namespace Source2Root.Voice

/-! ## What the environment can change -/

def World.known (w : World) (player : Player) : Prop := (player.slot, player.connection) ∈ w.used

structure World.Sound (w : World) : Prop where
  placed : ∀ (slot : Int) (player : Player), w.players[slot]? = some player → player.slot = slot
  nonzero : ∀ (slot : Int) (player : Player), w.players[slot]? = some player → player.connection ≠ 0
  used : ∀ (slot : Int) (player : Player), w.players[slot]? = some player →
    (slot, player.connection) ∈ w.used
  live : ∀ connection ∈ w.used, connection.2 ≠ 0

theorem World.has_iff {w : World} {player : Player} :
    w.has player = true ↔
      ∃ found, w.players[player.slot]? = some found ∧ player.sameConnection found = true := by
  unfold World.has
  cases w.players[player.slot]? <;> simp

theorem World.Sound.known_of_has {w : World} (sound : w.Sound) {player : Player}
    (has : w.has player = true) : w.known player := by
  obtain ⟨found, at_, same⟩ := World.has_iff.mp has
  rw [Player.sameConnection_iff] at same
  unfold World.known
  rw [same.2.2]
  exact sound.used _ _ at_

/-- Two players who are both there on one slot are one connection. -/
theorem World.has_unique {w : World} {a b : Player} (slot : a.slot = b.slot)
    (hasA : w.has a = true) (hasB : w.has b = true) : a.sameConnection b = true := by
  obtain ⟨found, atA, sameA⟩ := World.has_iff.mp hasA
  obtain ⟨other, atB, sameB⟩ := World.has_iff.mp hasB
  rw [slot, atB] at atA
  cases atA
  exact Player.sameConnection_trans sameA (Player.sameConnection_symm sameB)

theorem World.has_congr {w : World} {a b : Player} (same : a.sameConnection b = true)
    (has : w.has a = true) : w.has b = true := by
  obtain ⟨found, at_, matches_⟩ := World.has_iff.mp has
  refine World.has_iff.mpr ⟨found, ?_, Player.sameConnection_trans
    (Player.sameConnection_symm same) matches_⟩
  rw [← (Player.sameConnection_iff.mp same).1]
  exact at_

theorem World.known_congr {w : World} {a b : Player} (same : a.sameConnection b = true)
    (known : w.known a) : w.known b := by
  rw [Player.sameConnection_iff] at same
  unfold World.known at known ⊢
  rw [← same.1, ← same.2.2]
  exact known

/-- Connections come and go; a connection that is over never returns, and a new
one finds the engine's value as the last requested one. -/
structure Moved (w later : World) : Prop where
  sound : w.Sound → later.Sound
  used : ∀ player, w.known player → later.known player
  stayed : ∀ player, w.known player → later.has player = true → w.has player = true
  kept : ∀ r s : Player, w.known r → w.known s → later.has r = true → later.has s = true →
    later.listening r.slot s.slot = w.listening r.slot s.slot ∧
      later.requested r.slot s.slot = w.requested r.slot s.slot
  fresh : ∀ r s : Player, later.has r = true → later.has s = true →
    ¬ (w.known r ∧ w.known s) → later.listening r.slot s.slot = later.requested r.slot s.slot

theorem Moved.refl {w : World} (sound : w.Sound) : Moved w w where
  sound := id
  used := fun _ => id
  stayed := fun _ _ => id
  kept := fun _ _ _ _ _ _ => ⟨rfl, rfl⟩
  fresh := fun _ _ r s new => absurd ⟨sound.known_of_has r, sound.known_of_has s⟩ new

theorem Moved.trans {a b c : World} (ab : Moved a b) (bc : Moved b c) : Moved a c := by
  refine ⟨fun sound => bc.sound (ab.sound sound), fun p known => bc.used p (ab.used p known),
    fun p known has => ab.stayed p known (bc.stayed p (ab.used p known) has), ?_, ?_⟩
  · intro r s knownR knownS hasR hasS
    have second := bc.kept r s (ab.used r knownR) (ab.used s knownS) hasR hasS
    have first := ab.kept r s knownR knownS (bc.stayed r (ab.used r knownR) hasR)
      (bc.stayed s (ab.used s knownS) hasS)
    exact ⟨second.1.trans first.1, second.2.trans first.2⟩
  · intro r s hasR hasS new
    by_cases known : b.known r ∧ b.known s
    · have second := bc.kept r s known.1 known.2 hasR hasS
      rw [second.1, second.2]
      exact ab.fresh r s (bc.stayed r known.1 hasR) (bc.stayed s known.2 hasS) new
    · exact bc.fresh r s hasR hasS known

theorem moved_leave {w : World} (sound : w.Sound) (slot : Int) : Moved w (w.move (.leave slot)) := by
  have stayed (player : Player) (has : (w.move (.leave slot)).has player = true) :
      w.has player = true := by
    obtain ⟨found, at_, same⟩ := World.has_iff.mp has
    simp only [World.move, Std.ExtTreeMap.getElem?_erase] at at_
    split at at_
    · cases at_
    · exact World.has_iff.mpr ⟨found, at_, same⟩
  have there (at_ : Int) (player : Player)
      (found : (w.move (.leave slot)).players[at_]? = some player) :
      w.players[at_]? = some player := by
    simp only [World.move, Std.ExtTreeMap.getElem?_erase] at found
    split at found
    · cases found
    · exact found
  refine ⟨fun _ => ⟨?_, ?_, ?_, sound.live⟩, fun _ => id, fun player _ => stayed player,
    fun _ _ _ _ _ _ => ⟨rfl, rfl⟩, ?_⟩
  · exact fun at_ player found => sound.placed at_ player (there at_ player found)
  · exact fun at_ player found => sound.nonzero at_ player (there at_ player found)
  · exact fun at_ player found => sound.used at_ player (there at_ player found)
  · intro r s hasR hasS new
    exact absurd ⟨sound.known_of_has (stayed r hasR), sound.known_of_has (stayed s hasS)⟩ new

theorem moved_join {w : World} (sound : w.Sound) (player : Player)
    (listening : Int → Int → Bool) : Moved w (w.move (.join player listening)) := by
  by_cases refused : player.connection = 0 ∨ (player.slot, player.connection) ∈ w.used
  · have same : w.move (.join player listening) = w := by simp [World.move, refused]
    rw [same]
    exact Moved.refl sound
  · obtain ⟨live, unused⟩ := not_or.mp refused
    have new (p : Player) (known : w.known p) (slot : p.slot = player.slot) :
        (w.move (.join player listening)).has p = false := by
      rw [Bool.eq_false_iff]
      intro has
      obtain ⟨found, at_, same⟩ := World.has_iff.mp has
      simp only [World.move, refused, if_false, slot, Std.ExtTreeMap.getElem?_insert_self,
        Option.some.injEq] at at_
      subst at_
      rw [Player.sameConnection_iff] at same
      unfold World.known at known
      rw [same.1, same.2.2] at known
      exact unused known
    have old (p : Player) (slot : p.slot ≠ player.slot) :
        (w.move (.join player listening)).has p = w.has p := by
      simp [World.has, World.move, refused, Std.ExtTreeMap.getElem?_insert, Ne.symm slot]
    have apart (p : Player) (known : w.known p)
        (has : (w.move (.join player listening)).has p = true) : p.slot ≠ player.slot := by
      intro slot
      rw [new p known slot] at has
      cases has
    refine ⟨fun _ => ⟨?_, ?_, ?_, ?_⟩, ?_, ?_, ?_, ?_⟩
    · intro slot found at_
      simp only [World.move, refused, if_false, Std.ExtTreeMap.getElem?_insert] at at_
      split at at_
      · rename_i same
        cases at_
        simpa using same
      · exact sound.placed slot found at_
    · intro slot found at_
      simp only [World.move, refused, if_false, Std.ExtTreeMap.getElem?_insert] at at_
      split at at_
      · cases at_
        exact live
      · exact sound.nonzero slot found at_
    · intro slot found at_
      simp only [World.move, refused, if_false, Std.ExtTreeMap.getElem?_insert] at at_ ⊢
      split at at_
      · rename_i same
        cases at_
        have slot_eq : player.slot = slot := by simpa using same
        simp [slot_eq]
      · exact List.mem_cons_of_mem _ (sound.used slot found at_)
    · intro connection member
      simp only [World.move, refused, if_false, List.mem_cons] at member
      rcases member with rfl | old
      · exact live
      · exact sound.live connection old
    · intro p known
      simp only [World.known, World.move, refused, if_false]
      exact List.mem_cons_of_mem _ known
    · intro p known has
      rw [← old p (apart p known has)]
      exact has
    · intro r s knownR knownS hasR hasS
      simp [World.move, refused, apart r knownR hasR, apart s knownS hasS]
    · intro r s hasR hasS unknown
      by_cases touched : r.slot = player.slot ∨ s.slot = player.slot
      · simp only [World.move, refused, if_false]
        rcases touched with same | same <;> simp [same]
      · obtain ⟨farR, farS⟩ := not_or.mp touched
        rw [old r farR] at hasR
        rw [old s farS] at hasS
        exact absurd ⟨sound.known_of_has hasR, sound.known_of_has hasS⟩ unknown

theorem moved_moves (changes : List Move) : ∀ {w : World}, w.Sound →
    Moved w (changes.foldl World.move w) := by
  induction changes with
  | nil => intro w sound; exact Moved.refl sound
  | cons change rest ih =>
      intro w sound
      have first : Moved w (w.move change) := by
        cases change with
        | leave slot => exact moved_leave sound slot
        | join player listening => exact moved_join sound player listening
      exact first.trans (ih (first.sound sound))

/-! ## Host calls -/

section Runs

variable {α β : Type}

theorem bind_run (m : M α) (f : α → M β) (s : Sys) : (m >>= f) s = f (m s).1 (m s).2 := rfl

theorem pure_run (a : α) (s : Sys) : (pure a : M α) s = (a, s) := rfl

theorem bind_get_run (f : Sys → M β) (s : Sys) : ((get : M Sys) >>= f) s = f s s := rfl

theorem modify_run (f : Sys → Sys) (s : Sys) : (modify f : M PUnit) s = ((), f s) := rfl

end Runs

/-- The service waited for the host and changed nothing itself. -/
structure Waited (s later : Sys) : Prop where
  service : later.service = s.service
  moved : Moved s.world later.world
  calls : later.calls = s.calls

theorem Waited.refl {s : Sys} (sound : s.world.Sound) : Waited s s := ⟨rfl, Moved.refl sound, rfl⟩

theorem Waited.trans {a b c : Sys} (ab : Waited a b) (bc : Waited b c) : Waited a c :=
  ⟨bc.service.trans ab.service, ab.moved.trans bc.moved, bc.calls.trans ab.calls⟩

theorem turn_spec {s : Sys} (sound : s.world.Sound) : Waited s (turn s).2 := by
  unfold turn
  cases s.replies with
  | nil => exact Waited.refl sound
  | cons reply rest => exact ⟨rfl, moved_moves reply.moves sound, rfl⟩

theorem fault_ne_notFound (fault : Fault) : fault.result ≠ .notFound := by
  cases fault <;> simp [Fault.result]

theorem fault_ne_ok (fault : Fault) : fault.result ≠ .ok := by
  cases fault <;> simp [Fault.result]

theorem current_spec {s : Sys} (sound : s.world.Sound) (player : Player) :
    Waited s (current player s).2 ∧
      ((current player s).1 = .ok → (current player s).2.world.has player = true) ∧
      ((current player s).1 = .notFound → (current player s).2.world.has player = false) := by
  have waited := turn_spec sound
  simp only [current, lookup, bind_run]
  cases (turn s).1 with
  | some fault =>
      simp only [pure_run]
      exact ⟨waited, fun ok => absurd ok (fault_ne_ok fault),
        fun missing => absurd missing (fault_ne_notFound fault)⟩
  | none =>
      simp only [bind_get_run, pure_run, World.lookup]
      cases found : (turn s).2.world.players[player.slot]? with
      | none => simp [World.has, found, pure_run, waited]
      | some there =>
          simp only [pure_run, World.has, found]
          cases player.sameConnection there <;> simp [waited]

theorem currentPair_spec {s : Sys} (sound : s.world.Sound) (pair : Pair) :
    Waited s (currentPair pair s).2 ∧
      ((currentPair pair s).1 = .ok → ∃ middle, Moved s.world middle ∧
        Moved middle (currentPair pair s).2.world ∧ middle.has pair.receiver = true ∧
        (currentPair pair s).2.world.has pair.sender = true) ∧
      ((currentPair pair s).1 = .notFound →
        s.world.known pair.receiver → ¬ ((currentPair pair s).2.world.has pair.receiver = true ∧
          (currentPair pair s).2.world.has pair.sender = true)) := by
  obtain ⟨first, receiverOk, receiverGone⟩ := current_spec sound pair.receiver
  obtain ⟨second, senderOk, senderGone⟩ :=
    current_spec (first.moved.sound sound) pair.sender
  have final : (currentPair pair s).2 = (current pair.sender (current pair.receiver s).2).2 := by
    simp only [currentPair, bind_run]
    split <;> rfl
  have answer : (currentPair pair s).1 =
      if (current pair.receiver s).1 = .notFound ∨
          (current pair.sender (current pair.receiver s).2).1 = .notFound then .notFound
      else if (current pair.receiver s).1 ≠ .ok then (current pair.receiver s).1
      else (current pair.sender (current pair.receiver s).2).1 := by
    simp only [currentPair, bind_run]
    split <;> rfl
  rw [final, answer]
  refine ⟨first.trans second, ?_, ?_⟩
  · intro ok
    have both : (current pair.receiver s).1 = .ok ∧
        (current pair.sender (current pair.receiver s).2).1 = .ok := by
      split at ok
      · cases ok
      · split at ok <;> simp_all
    exact ⟨_, first.moved, second.moved, receiverOk both.1, senderOk both.2⟩
  · intro missing known ⟨hasReceiver, hasSender⟩
    split at missing
    · rename_i gone
      rcases gone with gone | gone
      · have still := second.moved.stayed pair.receiver (first.moved.used _ known) hasReceiver
        rw [receiverGone gone] at still
        cases still
      · rw [senderGone gone] at hasSender
        cases hasSender
    · rename_i there
      split at missing
      · exact there (Or.inl missing)
      · exact there (Or.inr missing)

theorem getListening_spec {s : Sys} (sound : s.world.Sound) (receiver sender : Player) :
    Waited s (getListening receiver sender s).2 ∧
      ∀ value, (getListening receiver sender s).1 = .ok value →
        (getListening receiver sender s).2.world.has receiver = true ∧
        (getListening receiver sender s).2.world.has sender = true ∧
        value = (getListening receiver sender s).2.world.listening receiver.slot sender.slot := by
  have waited := turn_spec sound
  simp only [getListening, bind_run]
  cases (turn s).1 with
  | some fault => simp [pure_run, waited]
  | none =>
      simp only [bind_get_run]
      by_cases both : ((turn s).2.world.has receiver && (turn s).2.world.has sender) = true
      · have there := Bool.and_eq_true_iff.mp both
        simp only [both, if_true, pure_run, Except.ok.injEq]
        exact ⟨waited, fun value same => ⟨there.1, there.2, same.symm⟩⟩
      · rw [if_neg both]
        exact ⟨waited, fun value same => by simp [pure_run] at same⟩

theorem nextPlayer_spec {s : Sys} (sound : s.world.Sound) (after : Int) :
    Waited s (nextPlayer after s).2 := by
  have waited := turn_spec sound
  simp only [nextPlayer, bind_run]
  cases (turn s).1 with
  | some fault => exact waited
  | none =>
      generalize (turn s).2 = later at waited
      simp only [bind_get_run]
      cases later.world.players.toList.find? fun entry => after < entry.1 <;> exact waited

/-- A write that succeeds sets the engine's value of two connections that are
there; one that fails changes nothing, and is "not found" only when one of the
two is gone. -/
structure Wrote (pair : Pair) (value : Bool) (s : Sys) (result : KeelResult) (later : Sys) :
    Prop where
  service : later.service = s.service
  calls : later.calls = s.calls ∨
    later.calls = { receiver := pair.receiver, sender := pair.sender, listening := value } :: s.calls
  effect : ∃ world, Moved s.world world ∧
    ((result = .ok ∧ later.world = world.hear pair.receiver.slot pair.sender.slot value ∧
        world.has pair.receiver = true ∧ world.has pair.sender = true) ∨
      (result ≠ .ok ∧ later.world = world ∧
        (result = .notFound → s.world.known pair.receiver →
          ¬ (world.has pair.receiver = true ∧ world.has pair.sender = true))))

theorem filter_writing {s : Sys} (writing : s.service.writing = true) (receiver sender : Int)
    (listening : Bool) : filter receiver sender listening s = ((.ok, listening), s) := by
  simp only [filter, bind_get_run, writing, if_true, pure_run]

theorem setListening_spec {s : Sys} (sound : s.world.Sound) (writing : s.service.writing = true)
    (pair : Pair) (value : Bool) :
    Wrote pair value s (setListening pair.receiver pair.sender value s).1
      (setListening pair.receiver pair.sender value s).2 := by
  simp only [setListening, bind_run, modify_run]
  obtain ⟨told, called⟩ : ∃ told : Sys, told = { s with calls :=
    { receiver := pair.receiver, sender := pair.sender, listening := value } :: s.calls } := ⟨_, rfl⟩
  have service : told.service = s.service := by rw [called]
  have world : told.world = s.world := by rw [called]
  have waited := turn_spec (world ▸ sound : told.world.Sound)
  have still : (turn told).2.service.writing = true := by rw [waited.service, service, writing]
  have moved : Moved s.world (turn told).2.world := world ▸ waited.moved
  have calls : (turn told).2.calls =
      { receiver := pair.receiver, sender := pair.sender, listening := value } :: s.calls := by
    rw [waited.calls, called]
  rw [← called]
  cases (turn told).1 with
  | some fault =>
      exact ⟨waited.service.trans service, Or.inr calls, _, moved, Or.inr ⟨fault_ne_ok fault, rfl,
        fun missing => absurd missing (fault_ne_notFound fault)⟩⟩
  | none =>
      simp only [bind_get_run]
      by_cases both : ((turn told).2.world.has pair.receiver &&
          (turn told).2.world.has pair.sender) = true
      · simp only [both, if_true, bind_run, filter_writing still, ne_eq, not_true_eq_false,
          if_false, modify_run, pure_run]
        exact ⟨waited.service.trans service, Or.inr calls, _, moved,
          Or.inl ⟨rfl, rfl, Bool.and_eq_true_iff.mp both⟩⟩
      · rw [if_neg both]
        exact ⟨waited.service.trans service, Or.inr calls, _, moved, Or.inr ⟨by simp [pure_run], rfl,
          fun _ _ there => both (Bool.and_eq_true_iff.mpr there)⟩⟩

theorem write_spec {s : Sys} (sound : s.world.Sound) (pair : Pair) (value : Bool) :
    Wrote pair value s (write pair value s).1 (write pair value s).2 := by
  obtain ⟨waited, -, gone⟩ := currentPair_spec sound pair
  simp only [write, bind_run]
  by_cases found : (currentPair pair s).1 = .ok
  · simp only [found, ne_eq, not_true_eq_false, if_false, bind_get_run]
    simp only [bind_run, modify_run, pure_run]
    obtain ⟨service, calls, world, moved, effect⟩ := setListening_spec
      (s := { (currentPair pair s).2 with service.writing := true })
      (waited.moved.sound sound) rfl pair value
    refine ⟨?_, ?_, world, waited.moved.trans moved, ?_⟩
    · rw [service, ← waited.service]
    · rw [← waited.calls]
      exact calls
    · rcases effect with ok | ⟨failed, same, missing⟩
      · exact Or.inl ok
      · exact Or.inr ⟨failed, same, fun notFound known =>
          missing notFound (waited.moved.used _ known)⟩
  · simp only [found, ne_eq, not_false_eq_true, if_true, pure_run]
    exact ⟨waited.service, Or.inl waited.calls, _, waited.moved, Or.inr ⟨found, rfl, gone⟩⟩

/-! ## The pairs and the engine -/

abbrev Pairs := Std.ExtTreeMap (Int × Int) Pair keyOrder

/-- The entry for exactly these two connections. -/
def entry (pairs : Pairs) (receiver sender : Player) : Option Pair :=
  pairs[(receiver.slot, sender.slot)]?.filter fun pair =>
    pair.receiver.sameConnection receiver && pair.sender.sameConnection sender

theorem entry_eq_some {pairs : Pairs} {receiver sender : Player} {pair : Pair} :
    entry pairs receiver sender = some pair ↔
      pairs[(receiver.slot, sender.slot)]? = some pair ∧
        pair.receiver.sameConnection receiver = true ∧ pair.sender.sameConnection sender = true := by
  simp [entry, Option.filter_eq_some_iff]

/-- The last value requested from outside, as far as the service and the engine
know it. -/
def remembered (w : World) (pairs : Pairs) (receiver sender : Player) : Bool :=
  match entry pairs receiver sender with
  | some pair => pair.requested
  | none => w.listening receiver.slot sender.slot

structure Matched (w : World) (pairs : Pairs) : Prop where
  sound : w.Sound
  keyed : ∀ (key : Int × Int) (pair : Pair), pairs[key]? = some pair → pair.key = key
  known : ∀ (key : Int × Int) (pair : Pair), pairs[key]? = some pair →
    w.known pair.receiver ∧ w.known pair.sender
  agrees : ∀ receiver sender, w.has receiver = true → w.has sender = true →
    remembered w pairs receiver sender = w.requested receiver.slot sender.slot

theorem Matched.moved {w later : World} {pairs : Pairs} (matched : Matched w pairs)
    (moved : Moved w later) : Matched later pairs := by
  refine ⟨moved.sound matched.sound, matched.keyed, ?_, ?_⟩
  · intro key pair at_
    have known := matched.known key pair at_
    exact ⟨moved.used _ known.1, moved.used _ known.2⟩
  · intro receiver sender hasReceiver hasSender
    by_cases known : w.known receiver ∧ w.known sender
    · have before := matched.agrees receiver sender (moved.stayed _ known.1 hasReceiver)
        (moved.stayed _ known.2 hasSender)
      have kept := moved.kept receiver sender known.1 known.2 hasReceiver hasSender
      rw [kept.2, ← before]
      unfold remembered
      rw [kept.1]
    · have none_ : entry pairs receiver sender = none := by
        rw [Option.eq_none_iff_forall_ne_some]
        intro pair found
        obtain ⟨at_, sameReceiver, sameSender⟩ := entry_eq_some.mp found
        have old := matched.known _ pair at_
        exact known ⟨World.known_congr sameReceiver old.1, World.known_congr sameSender old.2⟩
      unfold remembered
      rw [none_]
      exact moved.fresh receiver sender hasReceiver hasSender known

/-- An entry for two connections that are there is the entry of any two players
found on its slots. -/
theorem entry_of_same {w : World} {pairs : Pairs} {pair left : Pair}
    (at_ : pairs[pair.key]? = some left) (same : left.same pair = true)
    (hasReceiver : w.has pair.receiver = true) (hasSender : w.has pair.sender = true)
    {receiver sender : Player} (key : (receiver.slot, sender.slot) = pair.key)
    (thereReceiver : w.has receiver = true) (thereSender : w.has sender = true) :
    entry pairs receiver sender = some left := by
  simp only [Pair.key, Prod.mk.injEq] at key
  simp only [Pair.same, Bool.and_eq_true] at same
  refine entry_eq_some.mpr ⟨?_, ?_, ?_⟩
  · simpa [Pair.key, key.1, key.2] using at_
  · exact Player.sameConnection_trans same.1
      (World.has_unique key.1.symm hasReceiver thereReceiver)
  · exact Player.sameConnection_trans same.2 (World.has_unique key.2.symm hasSender thereSender)

theorem Matched.hear {w : World} {pairs : Pairs} (matched : Matched w pairs) {pair left : Pair}
    (at_ : pairs[pair.key]? = some left) (same : left.same pair = true)
    (hasReceiver : w.has pair.receiver = true) (hasSender : w.has pair.sender = true)
    (value : Bool) :
    Matched (w.hear pair.receiver.slot pair.sender.slot value) pairs := by
  refine ⟨⟨matched.sound.placed, matched.sound.nonzero, matched.sound.used, matched.sound.live⟩, matched.keyed,
    matched.known, ?_⟩
  intro receiver sender thereReceiver thereSender
  have before := matched.agrees receiver sender thereReceiver thereSender
  by_cases key : (receiver.slot, sender.slot) = pair.key
  · have found := entry_of_same at_ same hasReceiver hasSender key thereReceiver thereSender
    unfold remembered at before ⊢
    rw [found] at before ⊢
    exact before
  · have apart : ¬ (receiver.slot = pair.receiver.slot ∧ sender.slot = pair.sender.slot) := by
      simpa [Pair.key] using key
    unfold remembered at before ⊢
    simp only [World.hear, apart, if_false]
    exact before

theorem entry_erase {pairs : Pairs} {key : Int × Int} {receiver sender : Player} :
    entry (pairs.erase key) receiver sender =
      if (receiver.slot, sender.slot) = key then none else entry pairs receiver sender := by
  unfold entry
  rw [Std.ExtTreeMap.getElem?_erase]
  by_cases same : (receiver.slot, sender.slot) = key
  · simp [same]
  · simp [same, Ne.symm same]

theorem Matched.erase_fields {w : World} {pairs : Pairs} (matched : Matched w pairs)
    (key : Int × Int) :
    (∀ (k : Int × Int) (pair : Pair), (pairs.erase key)[k]? = some pair → pair.key = k) ∧
      ∀ (k : Int × Int) (pair : Pair), (pairs.erase key)[k]? = some pair →
        w.known pair.receiver ∧ w.known pair.sender := by
  have there (k : Int × Int) (pair : Pair) (at_ : (pairs.erase key)[k]? = some pair) :
      pairs[k]? = some pair := by
    rw [Std.ExtTreeMap.getElem?_erase] at at_
    split at at_
    · cases at_
    · exact at_
  exact ⟨fun k pair at_ => matched.keyed k pair (there k pair at_),
    fun k pair at_ => matched.known k pair (there k pair at_)⟩

/-- The engine has the remembered value again, so the entry can go. -/
theorem Matched.settle {w : World} {pairs : Pairs} (matched : Matched w pairs) {pair left : Pair}
    (at_ : pairs[pair.key]? = some left) (same : left.same pair = true)
    (hasReceiver : w.has pair.receiver = true) (hasSender : w.has pair.sender = true) :
    Matched (w.hear pair.receiver.slot pair.sender.slot left.requested)
      (pairs.erase pair.key) := by
  refine ⟨⟨matched.sound.placed, matched.sound.nonzero, matched.sound.used, matched.sound.live⟩,
    (matched.erase_fields pair.key).1, (matched.erase_fields pair.key).2, ?_⟩
  intro receiver sender thereReceiver thereSender
  have before := matched.agrees receiver sender thereReceiver thereSender
  unfold remembered at before ⊢
  rw [entry_erase]
  by_cases key : (receiver.slot, sender.slot) = pair.key
  · have found := entry_of_same at_ same hasReceiver hasSender key thereReceiver thereSender
    rw [found] at before
    have slots : receiver.slot = pair.receiver.slot ∧ sender.slot = pair.sender.slot := by
      simpa [Pair.key] using key
    rw [if_pos key]
    simpa [World.hear, slots] using before
  · have apart : ¬ (receiver.slot = pair.receiver.slot ∧ sender.slot = pair.sender.slot) := by
      simpa [Pair.key] using key
    simp only [key, if_false, World.hear, apart]
    exact before

/-- An entry with a connection that is over can go. -/
theorem Matched.retire {w : World} {pairs : Pairs} (matched : Matched w pairs) {pair left : Pair}
    (at_ : pairs[pair.key]? = some left) (same : left.same pair = true)
    (gone : ¬ (w.has pair.receiver = true ∧ w.has pair.sender = true)) :
    Matched w (pairs.erase pair.key) := by
  refine ⟨matched.sound, (matched.erase_fields pair.key).1, (matched.erase_fields pair.key).2, ?_⟩
  intro receiver sender thereReceiver thereSender
  have before := matched.agrees receiver sender thereReceiver thereSender
  unfold remembered at before ⊢
  rw [entry_erase]
  by_cases key : (receiver.slot, sender.slot) = pair.key
  · have none_ : entry pairs receiver sender = none := by
      rw [Option.eq_none_iff_forall_ne_some]
      intro other found
      obtain ⟨there, sameReceiver, sameSender⟩ := entry_eq_some.mp found
      rw [key, at_] at there
      cases there
      simp only [Pair.same, Bool.and_eq_true] at same
      exact gone ⟨
        World.has_congr (Player.sameConnection_trans (Player.sameConnection_symm sameReceiver)
          same.1) thereReceiver,
        World.has_congr (Player.sameConnection_trans (Player.sameConnection_symm sameSender)
          same.2) thereSender⟩
    rw [none_] at before
    simp only [key, if_true]
    exact before
  · simp only [key, if_false]
    exact before

theorem entry_insert {pairs : Pairs} {pair : Pair} {receiver sender : Player} :
    entry (pairs.insert pair.key pair) receiver sender =
      if (receiver.slot, sender.slot) = pair.key then
        (some pair).filter fun pair =>
          pair.receiver.sameConnection receiver && pair.sender.sameConnection sender
      else entry pairs receiver sender := by
  unfold entry
  rw [Std.ExtTreeMap.getElem?_insert]
  by_cases same : (receiver.slot, sender.slot) = pair.key
  · simp [same]
  · simp [same, Ne.symm same]

theorem Matched.insert_fields {w : World} {pairs : Pairs} (matched : Matched w pairs) {pair : Pair}
    (known : w.known pair.receiver ∧ w.known pair.sender) :
    (∀ (k : Int × Int) (p : Pair), (pairs.insert pair.key pair)[k]? = some p → p.key = k) ∧
      ∀ (k : Int × Int) (p : Pair), (pairs.insert pair.key pair)[k]? = some p →
        w.known p.receiver ∧ w.known p.sender := by
  constructor <;> intro k p at_ <;> rw [Std.ExtTreeMap.getElem?_insert] at at_ <;>
    split at at_ <;> rename_i same
  · cases at_
    exact Std.LawfulEqCmp.eq_of_compare same
  · exact matched.keyed k p at_
  · cases at_
    exact known
  · exact matched.known k p at_

/-- A new entry agrees with the engine when the value was read while no entry
stood for the pair; it displaces no entry of connections that are still there. -/
theorem Matched.insert {w : World} {pairs : Pairs} (matched : Matched w pairs) {pair : Pair}
    (known : w.known pair.receiver ∧ w.known pair.sender)
    (agrees : w.has pair.receiver = true → w.has pair.sender = true →
      pair.requested = w.requested pair.receiver.slot pair.sender.slot)
    (displaces : ∀ receiver sender, (receiver.slot, sender.slot) = pair.key →
      w.has receiver = true → w.has sender = true →
      pair.receiver.sameConnection receiver = true ∧ pair.sender.sameConnection sender = true ∨
        entry pairs receiver sender = none) :
    Matched w (pairs.insert pair.key pair) := by
  refine ⟨matched.sound, (matched.insert_fields known).1, (matched.insert_fields known).2, ?_⟩
  intro receiver sender thereReceiver thereSender
  have before := matched.agrees receiver sender thereReceiver thereSender
  unfold remembered at before ⊢
  rw [entry_insert]
  by_cases key : (receiver.slot, sender.slot) = pair.key
  · rw [if_pos key]
    by_cases same : (pair.receiver.sameConnection receiver && pair.sender.sameConnection sender) = true
    · rw [Option.filter_some, if_pos same]
      have both := Bool.and_eq_true_iff.mp same
      simp only [Pair.key, Prod.mk.injEq] at key
      rw [key.1, key.2]
      exact agrees (World.has_congr (Player.sameConnection_symm both.1) thereReceiver)
        (World.has_congr (Player.sameConnection_symm both.2) thereSender)
    · rw [Option.filter_some, if_neg same]
      rcases displaces receiver sender key thereReceiver thereSender with both | none_
      · exact absurd (Bool.and_eq_true_iff.mpr both) same
      · rw [none_] at before
        exact before
  · rw [if_neg key]
    exact before

/-- A request of the game for two connections that are there, remembered. -/
theorem Matched.record {w : World} {pairs : Pairs} (matched : Matched w pairs) (pair : Pair)
    (hasReceiver : w.has pair.receiver = true) (hasSender : w.has pair.sender = true)
    (value : Bool) :
    Matched ((w.request pair.receiver.slot pair.sender.slot pair.requested).hear
      pair.receiver.slot pair.sender.slot value) (pairs.insert pair.key pair) := by
  have known := And.intro (matched.sound.known_of_has hasReceiver)
    (matched.sound.known_of_has hasSender)
  refine ⟨⟨matched.sound.placed, matched.sound.nonzero, matched.sound.used, matched.sound.live⟩,
    (matched.insert_fields known).1, (matched.insert_fields known).2, ?_⟩
  intro receiver sender thereReceiver thereSender
  have before := matched.agrees receiver sender thereReceiver thereSender
  unfold remembered at before ⊢
  rw [entry_insert]
  by_cases key : (receiver.slot, sender.slot) = pair.key
  · have slots : receiver.slot = pair.receiver.slot ∧ sender.slot = pair.sender.slot := by
      simpa [Pair.key] using key
    have same : (pair.receiver.sameConnection receiver && pair.sender.sameConnection sender) = true :=
      Bool.and_eq_true_iff.mpr ⟨World.has_unique slots.1.symm hasReceiver thereReceiver,
        World.has_unique slots.2.symm hasSender thereSender⟩
    rw [if_pos key, Option.filter_some, if_pos same]
    simp [World.hear, World.request, slots]
  · have apart : ¬ (receiver.slot = pair.receiver.slot ∧ sender.slot = pair.sender.slot) := by
      simpa [Pair.key] using key
    rw [if_neg key]
    simp only [World.hear, World.request, apart, if_false]
    exact before

/-- A request of the game that passes the service. -/
theorem Matched.pass {w : World} {pairs : Pairs} (matched : Matched w pairs) {pair : Pair}
    (none_ : ∀ receiver sender, (receiver.slot, sender.slot) = pair.key →
      w.has receiver = true → w.has sender = true → entry pairs receiver sender = none)
    (value : Bool) :
    Matched ((w.request pair.receiver.slot pair.sender.slot value).hear
      pair.receiver.slot pair.sender.slot value) pairs := by
  refine ⟨⟨matched.sound.placed, matched.sound.nonzero, matched.sound.used, matched.sound.live⟩, matched.keyed,
    matched.known, ?_⟩
  intro receiver sender thereReceiver thereSender
  have before := matched.agrees receiver sender thereReceiver thereSender
  unfold remembered at before ⊢
  by_cases key : (receiver.slot, sender.slot) = pair.key
  · have slots : receiver.slot = pair.receiver.slot ∧ sender.slot = pair.sender.slot := by
      simpa [Pair.key] using key
    rw [none_ receiver sender key thereReceiver thereSender]
    simp [World.hear, World.request, slots]
  · have apart : ¬ (receiver.slot = pair.receiver.slot ∧ sender.slot = pair.sender.slot) := by
      simpa [Pair.key] using key
    simp only [World.hear, World.request, apart, if_false]
    exact before

theorem Matched.map {w : World} {pairs : Pairs} (matched : Matched w pairs) (f : Pair → Pair)
    (receiver : ∀ pair, (f pair).receiver = pair.receiver)
    (sender : ∀ pair, (f pair).sender = pair.sender)
    (requested : ∀ pair, (f pair).requested = pair.requested) :
    Matched w (pairs.map fun _ pair => f pair) := by
  have there (key : Int × Int) (pair : Pair)
      (at_ : (pairs.map fun _ pair => f pair)[key]? = some pair) :
      ∃ old, pairs[key]? = some old ∧ f old = pair := by
    rw [Std.ExtTreeMap.getElem?_map] at at_
    exact Option.map_eq_some_iff.mp at_
  refine ⟨matched.sound, ?_, ?_, ?_⟩
  · intro key pair at_
    obtain ⟨old, found, rfl⟩ := there key pair at_
    simpa [Pair.key, receiver, sender] using matched.keyed key old found
  · intro key pair at_
    obtain ⟨old, found, rfl⟩ := there key pair at_
    rw [receiver, sender]
    exact matched.known key old found
  · intro hearer speaker thereReceiver thereSender
    have before := matched.agrees hearer speaker thereReceiver thereSender
    unfold remembered entry at before ⊢
    rw [Std.ExtTreeMap.getElem?_map]
    cases found : pairs[(hearer.slot, speaker.slot)]? with
    | none => simpa [found] using before
    | some old =>
        rw [found] at before
        simp only [Option.map_some, Option.filter_some, receiver, sender] at before ⊢
        by_cases same : (old.receiver.sameConnection hearer && old.sender.sameConnection speaker) = true
        · simp only [if_pos same, requested] at before ⊢
          exact before
        · simp only [if_neg same] at before ⊢
          exact before

/-- Entries of a connection that is over can go. -/
theorem Matched.filter {w : World} {pairs : Pairs} (matched : Matched w pairs) (p : Pair → Bool)
    (kept : ∀ pair, w.has pair.receiver = true → w.has pair.sender = true → p pair = true) :
    Matched w (pairs.filter fun _ pair => p pair) := by
  have look (key : Int × Int) :
      (pairs.filter fun _ pair => p pair)[key]? = pairs[key]?.filter p := by
    rw [Std.ExtTreeMap.getElem?_filter]
    simp [Option.pfilter_eq_filter]
  refine ⟨matched.sound, ?_, ?_, ?_⟩
  · intro key pair at_
    rw [look, Option.filter_eq_some_iff] at at_
    exact matched.keyed key pair at_.1
  · intro key pair at_
    rw [look, Option.filter_eq_some_iff] at at_
    exact matched.known key pair at_.1
  · intro receiver sender thereReceiver thereSender
    have before := matched.agrees receiver sender thereReceiver thereSender
    unfold remembered entry at before ⊢
    rw [look]
    cases found : pairs[(receiver.slot, sender.slot)]? with
    | none => simpa [found] using before
    | some old =>
        rw [found] at before
        by_cases same : (old.receiver.sameConnection receiver && old.sender.sameConnection sender) = true
        · have both := Bool.and_eq_true_iff.mp same
          have keep := kept old
            (World.has_congr (Player.sameConnection_symm both.1) thereReceiver)
            (World.has_congr (Player.sameConnection_symm both.2) thereSender)
          simpa [Option.filter_some, keep] using before
        · simp only [Option.filter_some, if_neg same] at before
          cases keep : p old <;> simpa [Option.filter_some, same, keep] using before

/-! ## The operations -/

/-- Between two operations the service is not writing. -/
def Inv (s : Sys) : Prop := Matched s.world s.service.pairs ∧ s.service.writing = false

theorem Waited.inv {s later : Sys} (waited : Waited s later) (inv : Inv s) : Inv later := by
  unfold Inv
  rw [waited.service]
  exact ⟨inv.1.moved waited.moved, inv.2⟩

def Keeps {α : Type} (m : M α) : Prop := ∀ s, Inv s → Inv (m s).2

theorem Keeps.pure {α : Type} (a : α) : Keeps (pure a : M α) := fun _ inv => inv

theorem Keeps.bind {α β : Type} {m : M α} {f : α → M β} (first : Keeps m)
    (rest : ∀ a, Keeps (f a)) : Keeps (m >>= f) :=
  fun s inv => rest _ _ (first s inv)

theorem Keeps.get {β : Type} {f : Sys → M β} (rest : ∀ s, Keeps (f s)) :
    Keeps ((MonadState.get : M Sys) >>= f) :=
  fun s inv => rest s s inv

theorem Keeps.modify {f : Sys → Sys} (same : ∀ s, Inv s → Inv (f s)) :
    Keeps (modify f : M PUnit) := same

theorem Keeps.foldlM {α β : Type} {f : β → α → M β} (one : ∀ b a, Keeps (f b a)) :
    ∀ (list : List α) (b : β), Keeps (list.foldlM f b) := by
  intro list
  induction list with
  | nil => exact fun b => Keeps.pure b
  | cons a rest ih =>
      intro b
      rw [List.foldlM_cons]
      exact (one b a).bind ih

theorem Keeps.forM {α : Type} {f : α → M PUnit} (one : ∀ a, Keeps (f a)) :
    ∀ list : List α, Keeps (list.forM f) := by
  intro list
  induction list with
  | nil => exact Keeps.pure _
  | cons a rest ih => exact (one a).bind fun _ => ih

theorem Keeps.of_waited {α : Type} {m : M α}
    (waits : ∀ s, s.world.Sound → Waited s (m s).2) : Keeps m :=
  fun s inv => (waits s inv.1.sound).inv inv

theorem keeps_current (player : Player) : Keeps (current player) :=
  Keeps.of_waited fun _ sound => (current_spec sound player).1

theorem keeps_getListening (receiver sender : Player) : Keeps (getListening receiver sender) :=
  Keeps.of_waited fun _ sound => (getListening_spec sound receiver sender).1

theorem Wrote.inv {s later : Sys} {pair left : Pair} {value : Bool} {result : KeelResult}
    (wrote : Wrote pair value s result later) (inv : Inv s)
    (at_ : s.service.pairs[pair.key]? = some left) (same : left.same pair = true) : Inv later := by
  obtain ⟨service, -, world, moved, effect⟩ := wrote
  have there := inv.1.moved moved
  unfold Inv
  rw [service]
  refine ⟨?_, inv.2⟩
  rcases effect with ⟨-, same_world, hasReceiver, hasSender⟩ | ⟨-, same_world, -⟩
  · rw [same_world]
    exact there.hear at_ same hasReceiver hasSender value
  · rw [same_world]
    exact there

theorem restrict_inv {s : Sys} (inv : Inv s) {sender : Player} {pair left : Pair} {out : Outcome}
    (at_ : s.service.pairs[pair.key]? = some left) (same : left.same pair = true) :
    Inv (restrict sender pair out s).2 := by
  have wrote := (write_spec inv.1.sound pair false).inv inv at_ same
  simp only [restrict, bind_get_run]
  split
  · exact inv
  · simp only [bind_run]
    split <;> exact wrote

theorem pair_same_self {pair : Pair} (receiver : pair.receiver.connection ≠ 0)
    (sender : pair.sender.connection ≠ 0) : pair.same pair = true := by
  simp [Pair.same, Player.sameConnection, receiver, sender]

theorem World.nonzero_of_has {w : World} {player : Player} (has : w.has player = true) :
    player.connection ≠ 0 := by
  obtain ⟨found, -, same⟩ := World.has_iff.mp has
  exact (Player.sameConnection_iff.mp same).2.1

/-- The value read for a pair without an entry is entered while both were there
before and after the read, so nobody else's entry is overwritten. -/
theorem enter_inv {s read last : Sys} (inv : Inv s) (pair : Pair)
    (absent : s.service.found pair.key pair = none)
    (reading : Waited s read) (hasReceiver : read.world.has pair.receiver = true)
    (hasSender : read.world.has pair.sender = true)
    (value : pair.requested = read.world.listening pair.receiver.slot pair.sender.slot)
    (checking : Waited read last) {middle : World} (before : Moved read.world middle)
    (after : Moved middle last.world) (stillReceiver : middle.has pair.receiver = true)
    (stillSender : last.world.has pair.sender = true) :
    Inv { last with service.pairs := last.service.pairs.insert pair.key pair } := by
  obtain ⟨readInv, idle⟩ := reading.inv inv
  have knownReceiver := readInv.sound.known_of_has hasReceiver
  have knownSender := readInv.sound.known_of_has hasSender
  have same_pairs : last.service.pairs = read.service.pairs := by rw [checking.service]
  have there := readInv.moved checking.moved
  have no_entry : entry read.service.pairs pair.receiver pair.sender = none := by
    unfold Service.found at absent
    rw [reading.service]
    simpa [entry, Pair.same, Pair.key] using absent
  refine ⟨?_, by rw [checking.service]; exact idle⟩
  simp only [same_pairs]
  refine there.insert ⟨checking.moved.used _ knownReceiver, checking.moved.used _ knownSender⟩ ?_ ?_
  · intro has _
    have kept := checking.moved.kept _ _ knownReceiver knownSender has stillSender
    have agreed := readInv.agrees _ _ hasReceiver hasSender
    unfold remembered at agreed
    rw [no_entry] at agreed
    rw [kept.2, value]
    exact agreed
  · intro receiver sender key hasThem hasThat
    simp only [Pair.key, Prod.mk.injEq] at key
    by_cases found : entry read.service.pairs receiver sender = none
    · exact Or.inr found
    · obtain ⟨left, found⟩ := Option.ne_none_iff_exists'.mp found
      obtain ⟨at_, sameReceiver, sameSender⟩ := entry_eq_some.mp found
      have known := readInv.known _ left at_
      have knownThem := World.known_congr sameReceiver known.1
      have hadThem : middle.has receiver = true :=
        after.stayed _ (before.used _ knownThem) hasThem
      exact Or.inl ⟨World.has_unique key.1.symm stillReceiver hadThem,
        World.has_unique key.2.symm stillSender hasThat⟩

theorem keeps_applyTo (sender receiver : Player) (out : Outcome) :
    Keeps (applyTo sender receiver out) := by
  intro s inv
  obtain ⟨looked, -, -⟩ := currentPair_spec inv.1.sound { receiver, sender }
  have lookedInv := looked.inv inv
  simp only [applyTo, bind_run]
  generalize currentPair { receiver, sender } s = outcome at lookedInv
  obtain ⟨result, s₁⟩ := outcome
  cases result with
  | ok =>
    simp only [bind_get_run]
    cases found : s₁.service.found (Pair.key { receiver, sender }) { receiver, sender } with
    | some existing =>
        obtain ⟨at_, same⟩ := Option.filter_eq_some_iff.mp found
        have key := lookedInv.1.keyed _ existing at_
        simp only [Pair.same, Bool.and_eq_true, Player.sameConnection_iff] at same
        rw [← key] at at_
        exact restrict_inv lookedInv at_ (pair_same_self same.1.2.1 same.2.2.1)
    | none =>
        obtain ⟨reading, read⟩ := getListening_spec lookedInv.1.sound receiver sender
        have readInv := reading.inv lookedInv
        simp only [bind_run]
        generalize getListening receiver sender s₁ = outcome at reading read readInv
        obtain ⟨answer, s₂⟩ := outcome
        cases answer with
        | error result => exact readInv
        | ok requested =>
            obtain ⟨hasReceiver, hasSender, value⟩ := read requested rfl
            obtain ⟨checking, checked, -⟩ :=
              currentPair_spec readInv.1.sound { receiver, sender, requested }
            have checkedInv := checking.inv readInv
            simp only [bind_run]
            generalize currentPair { receiver, sender, requested } s₂ = outcome at checking checked checkedInv
            obtain ⟨result, s₃⟩ := outcome
            cases result with
            | ok =>
                obtain ⟨middle, before, after, stillReceiver, stillSender⟩ := checked rfl
                have entered := enter_inv lookedInv { receiver, sender, requested } found
                  reading hasReceiver hasSender value checking before after stillReceiver stillSender
                simp only [bind_run, modify_run]
                exact restrict_inv entered Std.ExtTreeMap.getElem?_insert_self
                  (pair_same_self (World.nonzero_of_has hasReceiver)
                    (World.nonzero_of_has hasSender))
            | _ => exact checkedInv
  | _ => exact lookedInv

theorem keeps_applyFrom (sender : Player) : ∀ (remaining : Nat) (after : Int) (out : Outcome),
    Keeps (applyFrom sender remaining after out) := by
  intro remaining
  induction remaining with
  | zero =>
      intro after out
      unfold applyFrom
      refine Keeps.bind (Keeps.of_waited fun _ sound => nextPlayer_spec sound after) ?_
      intro answer
      split <;> try split
      all_goals exact Keeps.pure _
  | succ remaining ih =>
      intro after out
      unfold applyFrom
      refine Keeps.bind (Keeps.of_waited fun _ sound => nextPlayer_spec sound after) ?_
      intro answer
      split
      · exact Keeps.pure _
      · exact Keeps.pure _
      · split
        · exact Keeps.pure _
        · exact (keeps_applyTo sender _ out).bind fun _ => ih _ _

theorem keeps_apply (sender : Player) (error : ErrorText) : Keeps (apply sender error) :=
  keeps_applyFrom sender 128 (-1) _

theorem keeps_removed (owner : Nat) (sender : Player) : Keeps (removed owner sender) := by
  unfold removed
  apply Keeps.get
  intro s
  split
  · exact Keeps.pure _
  · apply Keeps.modify
    intro s inv
    refine ⟨inv.1.map (fun pair =>
      if pair.sender.sameConnection sender then { pair with restoreOwner := owner } else pair)
      ?_ ?_ ?_, inv.2⟩
    all_goals
      intro pair
      split <;> rfl

/-- The state after the end of the loop body of `Restore` for one entry. -/
theorem drop_inv {s later : Sys} {pair left : Pair} {result : KeelResult}
    (at_ : s.service.pairs[pair.key]? = some left) (same : left.same pair = true) (inv : Inv s)
    (wrote : Wrote pair pair.requested s result later)
    (done : result = .ok ∨ result = .notFound) (equal : left.requested = pair.requested) :
    Inv { later with service.pairs := later.service.pairs.erase pair.key } := by
  obtain ⟨service, -, world, moved, effect⟩ := wrote
  have there := inv.1.moved moved
  refine ⟨?_, by simpa [service] using inv.2⟩
  simp only [service]
  rcases effect with ⟨-, same_world, hasReceiver, hasSender⟩ | ⟨failed, same_world, gone⟩
  · rw [same_world, ← equal]
    exact there.settle at_ same hasReceiver hasSender
  · rw [same_world]
    have known := inv.1.known _ left at_
    simp only [Pair.same, Bool.and_eq_true] at same
    exact there.retire at_ (by simp [Pair.same, same])
      (gone (done.resolve_left failed) (World.known_congr same.1 known.1))

theorem putBack_spec {s : Sys} (sound : s.world.Sound) (pair : Pair) :
    Wrote pair pair.requested s (putBack pair s).1 (putBack pair s).2 := by
  obtain ⟨looked, -, gone⟩ := currentPair_spec sound pair
  simp only [putBack, bind_run]
  by_cases found : (currentPair pair s).1 = .ok
  · rw [if_pos found]
    obtain ⟨service, calls, world, moved, effect⟩ :=
      write_spec (looked.moved.sound sound) pair pair.requested
    rw [looked.calls] at calls
    refine ⟨service.trans looked.service, calls, world, looked.moved.trans moved, ?_⟩
    rcases effect with ok | ⟨failed, same, missing⟩
    · exact Or.inl ok
    · exact Or.inr ⟨failed, same, fun notFound known =>
        missing notFound (looked.moved.used _ known)⟩
  · rw [if_neg found]
    exact ⟨looked.service, Or.inl looked.calls, _, looked.moved, Or.inr ⟨found, rfl, gone⟩⟩

theorem keeps_restoreOne (owner : Nat) (sender : Option Player) (out : Outcome)
    (item : (Int × Int) × Pair) : Keeps (restoreOne owner sender out item) := by
  intro s inv
  obtain ⟨key, pair⟩ := item
  simp only [restoreOne, bind_get_run]
  split
  · exact inv
  · cases found : s.service.found key pair with
    | none => exact inv
    | some left =>
        obtain ⟨at_, same⟩ := Option.filter_eq_some_iff.mp found
        have key_eq : pair.key = key := by
          rw [← inv.1.keyed _ left at_]
          simp only [Pair.same, Bool.and_eq_true, Player.sameConnection_iff] at same
          simp [Pair.key, same]
        subst key_eq
        have wrote := putBack_spec inv.1.sound pair
        have later := wrote.inv inv at_ same
        simp only [Option.isNone_some, Bool.false_eq_true, if_false, bind_run]
        generalize putBack pair s = outcome at wrote later
        obtain ⟨result, s₁⟩ := outcome
        split
        · rename_i done
          simp only [bind_run, modify_run, pure_run, Service.settle]
          have still : s₁.service.found pair.key pair = some left := by
            rw [wrote.service, found]
          rw [still]
          by_cases equal : left.requested = pair.requested
          · simp only [if_pos equal]
            exact drop_inv at_ same inv wrote done equal
          · simp only [if_neg equal]
            exact later
        · exact later

theorem keeps_restore (owner : Nat) (sender : Option Player) (error : ErrorText) :
    Keeps (restore owner sender error) :=
  Keeps.get fun _ => Keeps.foldlM (keeps_restoreOne owner sender) _ _

theorem keeps_set (owner : Nat) (player : Player) (muted : Bool) :
    Keeps (set owner player muted) := by
  unfold set
  refine (keeps_current player).bind fun result => ?_
  cases result with
  | ok =>
      cases muted
      · exact Keeps.bind (Keeps.modify fun _ inv => inv) fun _ =>
          (keeps_removed owner player).bind fun _ => keeps_restore owner _ _
      · refine (keeps_getListening player player).bind fun heard => ?_
        cases heard with
        | error _ => exact Keeps.pure _
        | ok _ =>
            refine (keeps_current player).bind fun checked => ?_
            cases checked with
            | ok =>
                refine Keeps.bind (Keeps.modify fun _ inv => inv) fun _ =>
                  (keeps_apply player _).bind fun out => ?_
                split <;> exact Keeps.pure _
            | _ => exact Keeps.pure _
  | _ => exact Keeps.pure _

theorem keeps_removedAll (gone : Owners) : Keeps (removedAll gone) := by
  apply Keeps.forM
  rintro ⟨id, players⟩
  apply Keeps.forM
  rintro ⟨slot, player⟩
  exact keeps_removed id player

theorem unpark_inv {s : Sys} (inv : Inv s) (owner : Nat) :
    Inv { s with service := s.service.unpark owner } := by
  unfold Service.unpark
  split <;> exact inv

theorem keeps_release (owner : Nat) : Keeps (release owner) := by
  unfold release
  refine Keeps.bind (Keeps.modify fun s inv => unpark_inv inv owner) fun _ => Keeps.get fun _ =>
    Keeps.bind (Keeps.modify fun _ inv => inv) fun _ =>
      (keeps_removedAll _).bind fun _ => keeps_restore owner none _

theorem keeps_sweep (owner : Nat) (acc : Std.ExtTreeMap Int Player × Outcome)
    (item : Int × Player) : Keeps (sweep owner acc item) := by
  unfold sweep
  refine (keeps_current item.2).bind fun result => ?_
  cases result with
  | notFound => exact Keeps.bind (Keeps.modify fun _ inv => inv) fun _ => Keeps.pure _
  | _ => exact Keeps.pure _

theorem keeps_sweepAll (owners : Owners) : Keeps (sweepAll owners) := by
  apply Keeps.foldlM
  rintro acc ⟨owner, players⟩
  exact Keeps.foldlM (keeps_sweep owner) _ _

theorem keeps_enforce (out : Outcome) (item : Int × Player) : Keeps (enforce out item) :=
  (keeps_apply item.2 _).bind fun _ => Keeps.pure _

theorem keeps_refresh : Keeps refresh := by
  unfold refresh
  apply Keeps.get
  intro s
  apply (keeps_sweepAll _).bind
  intro swept
  apply (keeps_restore 0 none _).bind
  intro restored
  exact Keeps.foldlM keeps_enforce _ _

theorem keeps_suspend : Keeps suspend := by
  unfold suspend
  apply Keeps.get
  intro s
  split
  · exact keeps_restore 0 none _
  · apply Keeps.bind
    · exact Keeps.modify fun _ inv => inv
    · intro _
      apply (keeps_restore 0 none _).bind
      intro out
      split
      · exact Keeps.bind (Keeps.modify fun _ inv => inv) fun _ => Keeps.pure _
      · exact Keeps.bind (Keeps.modify fun _ inv => inv) fun _ =>
          keeps_refresh.bind fun _ => Keeps.pure _

theorem keeps_resume : Keeps resume := by
  unfold resume
  refine Keeps.bind (Keeps.modify fun s inv => ?_) fun _ => keeps_refresh
  split <;> exact inv

/-- The environment changes nothing while the engine asks the service. -/
def Still (s : Sys) : Prop := ∀ reply ∈ s.replies, reply.moves = []

theorem turn_still {s : Sys} (still : Still s) :
    Still (turn s).2 ∧ (turn s).2.world = s.world ∧ (turn s).2.service = s.service := by
  unfold turn
  cases replies : s.replies with
  | nil => exact ⟨still, rfl, rfl⟩
  | cons reply rest =>
      have quiet : reply.moves = [] := still reply (by simp [replies])
      refine ⟨fun r member => still r (by simp [replies, show r ∈ rest from member]), ?_, rfl⟩
      simp [quiet]

theorem lookup_still {s : Sys} (still : Still s) (slot : Int) :
    Still (lookup slot s).2 ∧ (lookup slot s).2.world = s.world ∧
      (lookup slot s).2.service = s.service ∧
      (∀ player, (lookup slot s).1 = .ok player → s.world.players[slot]? = some player) ∧
      (lookup slot s).1 ≠ .error .ok := by
  obtain ⟨quiet, world, service⟩ := turn_still still
  simp only [lookup, bind_run]
  cases (turn s).1 with
  | some fault => simp [pure_run, quiet, world, service, fault_ne_ok]
  | none =>
      simp only [bind_get_run, pure_run, World.lookup, world]
      cases s.world.players[slot]? <;> simp [quiet, service]

theorem World.Sound.has_of_placed {w : World} (sound : w.Sound) {slot : Int} {player : Player}
    (at_ : w.players[slot]? = some player) : w.has player = true := by
  have placed := sound.placed slot player at_
  refine World.has_iff.mpr ⟨player, ?_, ?_⟩
  · rw [placed]
    exact at_
  · simp [Player.sameConnection, sound.nonzero slot player at_]

theorem observe_matched {w : World} {v : Service} (matched : Matched w v.pairs) (pair : Pair)
    (hasReceiver : w.has pair.receiver = true) (hasSender : w.has pair.sender = true) :
    Matched ((w.request pair.receiver.slot pair.sender.slot pair.requested).hear
      pair.receiver.slot pair.sender.slot (v.observe pair.key pair).1)
      (v.observe pair.key pair).2.pairs := by
  unfold Service.observe
  dsimp only
  split
  · rename_i passes
    apply matched.pass
    intro receiver sender key thereReceiver thereSender
    have absent : v.found pair.key pair = none := by
      simpa using (Bool.and_eq_true_iff.mp passes).2
    simp only [Pair.key, Prod.mk.injEq] at key
    rw [Option.eq_none_iff_forall_ne_some]
    intro left found
    obtain ⟨at_, sameReceiver, sameSender⟩ := entry_eq_some.mp found
    have present : v.found pair.key pair = some left := by
      refine Option.filter_eq_some_iff.mpr ⟨?_, ?_⟩
      · simpa [Pair.key, key.1, key.2] using at_
      · simp only [Pair.same, Bool.and_eq_true]
        exact ⟨Player.sameConnection_trans sameReceiver
            (World.has_unique key.1 thereReceiver hasReceiver),
          Player.sameConnection_trans sameSender
            (World.has_unique key.2 thereSender hasSender)⟩
    rw [absent] at present
    cases present
  · let entered : Pair :=
      { pair with restoreOwner := ((v.found pair.key pair).map Pair.restoreOwner).getD 0 }
    exact matched.record entered hasReceiver hasSender _

/-- The service's answer to a request of the game. -/
theorem filter_still {s : Sys} (still : Still s) (idle : s.service.writing = false)
    (receiver sender : Int) (listening : Bool) :
    (filter receiver sender listening s).2.world = s.world ∧
      ((filter receiver sender listening s).1.1 = .ok → ∃ hearer speaker,
        s.world.players[receiver]? = some hearer ∧ s.world.players[sender]? = some speaker ∧
          ((filter receiver sender listening s).1.2, (filter receiver sender listening s).2.service) =
            s.service.observe (receiver, sender)
              { receiver := hearer, sender := speaker, requested := listening }) ∧
      ((filter receiver sender listening s).1.1 ≠ .ok →
        (filter receiver sender listening s).2.service = s.service) := by
  obtain ⟨quiet, world, service, hearerAt, hearerOk⟩ := lookup_still still receiver
  simp only [filter, bind_get_run, idle, Bool.false_eq_true, if_false]
  simp only [bind_run]
  generalize lookup receiver s = outcome at quiet world service hearerAt hearerOk
  obtain ⟨hearer, s₁⟩ := outcome
  cases hearer with
  | error result =>
      exact ⟨world, fun ok => absurd (congrArg Except.error ok) hearerOk, fun _ => service⟩
  | ok hearer =>
      obtain ⟨-, world', service', speakerAt, speakerOk⟩ := lookup_still quiet sender
      simp only [bind_run]
      generalize lookup sender s₁ = outcome at world' service' speakerAt speakerOk
      obtain ⟨speaker, s₂⟩ := outcome
      rw [world] at world' speakerAt
      rw [service] at service'
      cases speaker with
      | error result =>
          exact ⟨world', fun ok => absurd (congrArg Except.error ok) speakerOk, fun _ => service'⟩
      | ok speaker =>
          have same : s₂.service = s.service := service'
          simp only [bind_get_run, same]
          refine ⟨world', fun _ => ?_, fun failed => absurd rfl failed⟩
          exact ⟨hearer, speaker, hearerAt hearer rfl, speakerAt speaker rfl, rfl⟩

theorem observe_writing (v : Service) (key : Int × Int) (pair : Pair) :
    (v.observe key pair).2.writing = v.writing := by
  unfold Service.observe
  dsimp only
  split <;> rfl

theorem request_inv {s : Sys} (inv : Inv s) (still : Still s) (receiver sender : Int)
    (listening : Bool) : Inv (request receiver sender listening s).2 := by
  obtain ⟨world, observed, refused⟩ := filter_still still inv.2 receiver sender listening
  simp only [request, bind_run]
  generalize filter receiver sender listening s = outcome at world observed refused
  obtain ⟨⟨result, value⟩, later⟩ := outcome
  by_cases ok : result = .ok
  · obtain ⟨hearer, speaker, hearerAt, speakerAt, same⟩ := observed ok
    obtain ⟨rfl, service⟩ := Prod.mk.inj same
    change later.service = _ at service
    have slots : hearer.slot = receiver ∧ speaker.slot = sender :=
      ⟨inv.1.sound.placed _ _ hearerAt, inv.1.sound.placed _ _ speakerAt⟩
    obtain ⟨rfl, rfl⟩ := slots
    simp only [if_pos ok, bind_run, modify_run, pure_run]
    refine ⟨?_, ?_⟩
    · have matched := observe_matched inv.1
        { receiver := hearer, sender := speaker, requested := listening }
        (inv.1.sound.has_of_placed hearerAt) (inv.1.sound.has_of_placed speakerAt)
      rw [show later.world = s.world from world, service]
      exact matched
    · rw [service]
      exact (observe_writing _ _ _).trans inv.2
  · simp only [if_neg ok, pure_run]
    unfold Inv
    rw [show later.service = s.service from refused ok, show later.world = s.world from world]
    exact inv

theorem disconnected_inv {s : Sys} (inv : Inv s) (slot : Int) (connection : Nat)
    (gone : ∀ player, s.world.has player = true → player.slot = slot →
      player.connection ≠ connection) : Inv (disconnected slot connection s).2 := by
  simp only [disconnected, modify_run]
  refine ⟨inv.1.filter _ ?_, inv.2⟩
  intro pair hasReceiver hasSender
  have receiver := gone pair.receiver hasReceiver
  have sender := gone pair.sender hasSender
  simp only [decide_eq_true_eq, not_or, not_and]
  exact ⟨receiver, sender⟩

theorem depart_gone {w : World} (sound : w.Sound) (slot : Int) (connection : Nat) :
    Moved w (w.depart slot connection) ∧
      ∀ player, (w.depart slot connection).has player = true → player.slot = slot →
        player.connection ≠ connection := by
  unfold World.depart
  cases at_ : w.players[slot]? with
  | none =>
      refine ⟨Moved.refl sound, ?_⟩
      rintro player has rfl
      obtain ⟨found, there, -⟩ := World.has_iff.mp has
      rw [at_] at there
      cases there
  | some other =>
      by_cases same : other.connection = connection
      · simp only [if_pos same]
        refine ⟨moved_leave sound slot, ?_⟩
        rintro player has rfl
        obtain ⟨found, there, -⟩ := World.has_iff.mp has
        simp [World.move] at there
      · simp only [if_neg same]
        refine ⟨Moved.refl sound, ?_⟩
        rintro player has rfl equal
        obtain ⟨found, there, matches_⟩ := World.has_iff.mp has
        rw [at_] at there
        cases there
        exact same ((Player.sameConnection_iff.mp matches_).2.2.symm.trans equal)

theorem step_inv {s : Sys} (inv : Inv s) (label : Label) : Inv (step s label).2 := by
  have ready : Inv { s with replies := label.replies } := inv
  unfold step
  cases label with
  | set owner player muted replies => exact keeps_set owner player muted _ ready
  | release owner replies => exact keeps_release owner _ ready
  | refresh replies => exact keeps_refresh _ ready
  | suspend replies => exact keeps_suspend _ ready
  | resume replies => exact keeps_resume _ ready
  | request receiver sender listening faults =>
      refine request_inv ready ?_ receiver sender listening
      intro reply member
      obtain ⟨fault, -, rfl⟩ := List.mem_map.mp member
      rfl
  | disconnected slot connection =>
      obtain ⟨moved, gone⟩ := depart_gone inv.1.sound slot connection
      exact disconnected_inv (s := { s with
        world := s.world.depart slot connection, replies := [] })
        ⟨inv.1.moved moved, inv.2⟩ slot connection gone
  | move changes => exact ⟨inv.1.moved (moved_moves changes inv.1.sound), inv.2⟩

theorem inv_start : Inv {} := by
  refine ⟨⟨⟨?_, ?_, ?_, ?_⟩, ?_, ?_, ?_⟩, rfl⟩
  all_goals simp [World.has]

theorem inv_run : ∀ history s, Transition.run next {} history = some s → Inv s := by
  refine Transition.history_induction (P := fun _ s => Inv s) inv_start ?_
  intro history s label later inv stepped
  cases Option.some.inj stepped
  exact step_inv inv label

end Source2Root.Voice
