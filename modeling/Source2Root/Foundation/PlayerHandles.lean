import Source2Root.Foundation.Safety

/-!
# Handles for several players at once

`MakePlayerHandles` counts in advance what the handles will take, and every handle
asks for room again.  The two counts differ by the callbacks of the script, and only
the second one meets the end of the handle table.
-/

set_option autoImplicit false

namespace Source2Root

namespace Foundation

open Reentrant Handles

variable {s : State} {a : Addr}

/-! ## What the functions compute -/

theorem get_bind {β : Type} {f : State → M β} : (Foundation.get >>= f) s = f s s := rfl

/-- The handle is one for the connection of the player. -/
def State.matches (s : State) (owner : Nat) (player : Player) (id : HandleId) : Bool :=
  (s.player id owner).any (·.sameConnection player)

/-- The script has a handle for the connection of the player. -/
def State.knows (s : State) (a : Addr) (player : Player) : Bool :=
  (s.handles.owned (s.owner a) PlayerType).any (s.matches (s.owner a) player)

/-- How many handles would be new. -/
def State.missing (s : State) (a : Addr) (players : List Player) : Nat :=
  players.countP fun player => !s.knows a player

theorem matches_iff {owner : Nat} {player : Player} {id : HandleId} :
    s.matches owner player id = true ↔
      ∃ known, s.player id owner = some known ∧ known.sameConnection player = true := by
  simp [State.matches, Option.any_eq_true]

theorem player_owned {id : HandleId} {owner : Nat} {player : Player}
    (there : s.player id owner = some player) : id ∈ s.handles.owned owner PlayerType := by
  have found := get_iff.mp (State.player_get there)
  exact mem_owned_iff.mpr ⟨_, found, by simp [Binding.matches]⟩

theorem knows_iff {player : Player} : s.knows a player = true ↔
    ∃ id known, s.player id (s.owner a) = some known ∧ known.sameConnection player = true := by
  simp only [State.knows, List.any_eq_true, matches_iff]
  constructor
  · rintro ⟨id, -, known, there, same⟩
    exact ⟨id, known, there, same⟩
  · rintro ⟨id, known, there, same⟩
    exact ⟨id, player_owned there, known, there, same⟩

theorem findPlayer_eq (owner : Nat) (player : Player) {ids : List HandleId}
    (live : ∀ id ∈ ids, ∃ known, s.player id owner = some known) :
    findPlayer owner player ids s = .done (.ok (ids.find? (s.matches owner player))) s := by
  induction ids with
  | nil => rfl
  | cons id rest ih =>
      obtain ⟨known, there⟩ := live id (List.mem_cons_self ..)
      have later := ih fun other member => live other (List.mem_cons_of_mem _ member)
      unfold findPlayer
      show (Foundation.expect Lookup.player (s.player id owner) >>= _ : M _) s = _
      rw [there]
      show (ite (known.sameConnection player = true) _ _ : M _) s = _
      have here : s.matches owner player id = known.sameConnection player := by
        rw [State.matches, there, Option.any_some]
      rw [List.find?_cons, here]
      cases known.sameConnection player with
      | true => rfl
      | false => exact later

theorem State.players_live (reach : Reach s) (owner : Nat) :
    ∀ id ∈ s.handles.owned owner PlayerType, ∃ known, s.player id owner = some known :=
  fun _ member => State.player_live reach (contains_of_owned (by decide) member)

theorem missing_cons (player : Player) (rest : List Player) : s.missing a (player :: rest) =
    s.missing a rest + if s.knows a player then 0 else 1 := by
  unfold State.missing
  rw [List.countP_cons]
  cases s.knows a player <;> rfl

theorem missingPlayers_eq (reach : Reach s) (a : Addr) (players : List Player) :
    missingPlayers (s.owner a) (s.handles.owned (s.owner a) PlayerType) players s =
      .done (.ok (s.missing a players)) s := by
  induction players with
  | nil => rfl
  | cons player rest ih =>
      have known : s.knows a player =
          ((s.handles.owned (s.owner a) PlayerType).find?
            (s.matches (s.owner a) player)).isSome := by
        rw [State.knows, Bool.eq_iff_iff, List.find?_isSome]
        simp
      unfold missingPlayers State.missing
      rw [done_bind (findPlayer_eq (s.owner a) player (State.players_live reach _)),
        done_bind ih, List.countP_cons, ← known]
      cases s.knows a player <;> rfl

/-- The script may have new things, up to the quota. -/
structure State.Awake (s : State) (a : Addr) : Prop where
  state : s.state a = .running ∨ s.state a = .loading ∧ s.active a ≠ 0
  loaded : s.vm a = true

theorem playerHandle_known (reach : Reach s) {player : Player} (known : s.knows a player = true) :
    ∃ id, playerHandle a player s = .done (.ok id) s ∧
      s.matches (s.owner a) player id = true := by
  obtain ⟨id, member, same⟩ := List.any_eq_true.mp known
  cases found : (s.handles.owned (s.owner a) PlayerType).find? (s.matches (s.owner a) player) with
  | none => exact absurd same (List.find?_eq_none.mp found id member)
  | some first =>
      refine ⟨first, ?_, List.find?_some found⟩
      unfold playerHandle
      show (findPlayer (s.owner a) player (s.handles.owned (s.owner a) PlayerType) >>= _ : M _) s = _
      rw [done_bind (findPlayer_eq (s.owner a) player (State.players_live reach _)), found]
      rfl

theorem limit_eq (awake : s.Awake a) : limit a s =
    .done (if s.load a < 128 then .ok () else .error .nativeError) s := by
  unfold limit
  show (ite (s.state a ≠ .loading ∧ s.state a ≠ .running) _ _ : M Unit) s = _
  rw [if_neg]
  · show (ite (s.load a ≥ 128) _ _ : M Unit) s = _
    by_cases room : s.load a < 128
    · rw [if_neg (Nat.not_le_of_lt room), if_pos room]
      rfl
    · rw [if_pos (Nat.le_of_not_lt room), if_neg room]
      rfl
  · rcases awake.state with running | ⟨loading, -⟩
    · exact fun none_ => none_.2 running
    · exact fun none_ => none_.1 loading

/-- Nobody of the script's is for the connection: a new handle is asked for. -/
theorem playerHandle_new (reach : Reach s) {player : Player} (new : s.knows a player = false) :
    playerHandle a player s = (limit a >>= fun _ => addHandle (s.owner a) (.player player)) s := by
  have none_ : (s.handles.owned (s.owner a) PlayerType).find? (s.matches (s.owner a) player) =
      none := by
    refine List.find?_eq_none.mpr fun id member same => ?_
    rw [State.knows, List.any_eq_false] at new
    exact new id member same
  unfold playerHandle
  show (findPlayer (s.owner a) player (s.handles.owned (s.owner a) PlayerType) >>= _ : M _) s = _
  rw [done_bind (findPlayer_eq (s.owner a) player (State.players_live reach _)), none_]

theorem addHandle_ok {owner : Nat} {value : Resource} {id : HandleId} {handles : Handles Resource}
    (added : s.handles.add owner value.type value = .ok (id, handles)) :
    addHandle owner value s = .done (.ok id) { s with handles } := by
  unfold addHandle
  rw [get_bind, added]
  rfl

theorem addHandle_error {owner : Nat} {value : Resource} {refusal : Refusal}
    (refused : s.handles.add owner value.type value = .error refusal) :
    addHandle owner value s = .done (.error .runtimeError) s := by
  unfold addHandle
  rw [get_bind, refused]
  rfl

/-! ## One handle more -/

theorem player_iff {id : HandleId} {owner : Nat} {player : Player} :
    s.player id owner = some player ↔
      s.handles.look id = some { owner, type := PlayerType, value := .player player } := by
  rw [← get_iff]
  exact ⟨State.player_get, State.player_of_get⟩

section Added

variable {player other : Player} {id : HandleId} {handles : Handles Resource}

theorem player_added (added : s.handles.add (s.owner a) PlayerType (.player player) =
    .ok (id, handles)) {number : HandleId} {known : Player} :
    State.player { s with handles } number (s.owner a) = some known ↔
      (number = id ∧ known = player) ∨ s.player number (s.owner a) = some known := by
  obtain ⟨-, absent, after⟩ := look_add added
  rw [player_iff, player_iff]
  show handles.look number = _ ↔ _
  rw [after]
  by_cases here : number = id
  · rw [if_pos here, here, absent]
    simp [eq_comm]
  · rw [if_neg here]
    simp [here]

theorem knows_added (added : s.handles.add (s.owner a) PlayerType (.player player) =
    .ok (id, handles)) (apart : player.sameConnection other = false) :
    State.knows { s with handles } a other = s.knows a other := by
  rw [Bool.eq_iff_iff, knows_iff, knows_iff]
  constructor
  · rintro ⟨number, known, there, same⟩
    rcases (player_added added).mp there with ⟨-, rfl⟩ | old
    · rw [apart] at same
      cases same
    · exact ⟨number, known, old, same⟩
  · rintro ⟨number, known, there, same⟩
    exact ⟨number, known, (player_added added).mpr (Or.inr there), same⟩

theorem load_added (added : s.handles.add (s.owner a) PlayerType (.player player) =
    .ok (id, handles)) : State.load { s with handles } a = s.load a + 1 := by
  obtain ⟨-, absent, after⟩ := look_add added
  have one : (handles.owned (s.owner a) 0).length = (s.handles.owned (s.owner a) 0).length + 1 := by
    have same : (handles.owned (s.owner a) 0).Perm (id :: s.handles.owned (s.owner a) 0) := by
      refine (List.perm_ext_iff_of_nodup (owned_nodup ..) ?_).mpr fun number => ?_
      · refine List.nodup_cons.mpr ⟨fun member => ?_, owned_nodup ..⟩
        obtain ⟨b, found, -⟩ := mem_owned_all.mp member
        rw [absent] at found
        cases found
      · rw [List.mem_cons, mem_owned_all, mem_owned_all, after]
        by_cases here : number = id
        · simp [here]
        · simp [here]
    exact same.length_eq
  show (handles.owned (s.owner a) 0).length + (s.commandsOf a).size + (s.eventsOf a).size +
    (s.callbacksOf a).card = _
  rw [one]
  unfold State.load
  omega

theorem missing_added {players : List Player} (added : s.handles.add (s.owner a) PlayerType
    (.player player) = .ok (id, handles))
    (apart : ∀ other ∈ players, player.sameConnection other = false) :
    State.missing { s with handles } a players = s.missing a players := by
  unfold State.missing
  refine List.countP_congr fun other member => ?_
  rw [knows_added added (apart other member)]

end Added

/-! ## The loop -/

section Loop

variable {owned created output : List HandleId} {player : Player} {rest players : List Player}

theorem addPlayers_next (owned created output : List HandleId) (rest : List Player)
    {id : HandleId} {t : State}
    (ends : playerHandle a player s = .done (.ok id) t) : ∃ created',
      addPlayers a owned (player :: rest) created output s =
        addPlayers a owned rest created' (output ++ [id]) t := by
  refine ⟨if id ∈ owned then created else created ++ [id], ?_⟩
  rw [addPlayers, done_bind (done_try ends)]

theorem removeHandle_error {id : HandleId} {owner type : Nat} {refusal : Refusal}
    (refused : s.handles.remove id owner type = .error refusal) :
    removeHandle id owner type s = .done (.error .runtimeError) s := by
  unfold removeHandle
  rw [get_bind, refused]
  rfl

theorem removeHandle_ok {id : HandleId} {owner type : Nat} {value : Resource}
    {handles : Handles Resource} (removed : s.handles.remove id owner type = .ok (value, handles))
    (plain : State.holders [value] = []) :
    removeHandle id owner type s = .done (.ok ()) (s.detached handles [value]) := by
  unfold removeHandle
  rw [get_bind, removed]
  show destroyAll [value] (s.detached handles [value]) = _
  rw [destroyAll_plain plain]
  rfl

/-- The handles that were made are taken back without anybody noticing. -/
theorem takeBack_silent (ids : List HandleId) : ∀ {s : State}, Reach s →
    Silent (ids.forM fun id => removeHandle id (s.owner a) PlayerType : M Unit) s := by
  induction ids with
  | nil => exact fun _ => ⟨.ok (), _, rfl⟩
  | cons id rest ih =>
      intro s reach
      show Silent (removeHandle id (s.owner a) PlayerType >>= fun _ =>
        rest.forM fun id => removeHandle id (s.owner a) PlayerType) s
      cases removed : s.handles.remove id (s.owner a) PlayerType with
      | error _ => exact ⟨_, _, raise_bind (removeHandle_error removed)⟩
      | ok pair =>
          obtain ⟨value, handles⟩ := pair
          have plain : State.holders [value] = [] := by
            refine holders_plain fun v member => ?_
            rw [List.mem_singleton.mp member]
            have kind := reach.held.typed id _ (look_remove removed).1
            exact fun is => absurd (is.symm.trans kind.symm) (by simp only; decide)
          have act : Act .quiet s (s.detached handles [value]) :=
            .removeHandle a id PlayerType value handles (by decide) (fun is => by cases is) removed
          obtain ⟨outcome, t, ends⟩ := ih (reach.act act)
          exact ⟨outcome, t, (done_bind (removeHandle_ok removed plain)).trans ends⟩

theorem addPlayers_stops (reach : Reach s) {x : Raised}
    (ends : playerHandle a player s = .done (.error x) s) : ∃ y t,
      addPlayers a owned (player :: rest) created output s = .done (.error y) t := by
  obtain ⟨outcome, t, back⟩ := takeBack_silent created reach
  rw [addPlayers]
  cases outcome with
  | ok _ =>
      refine ⟨x, t, raise_bind ((raise_try ends).trans ?_)⟩
      rw [get_bind, done_bind back]
      rfl
  | error y =>
      refine ⟨y, t, raise_bind ((raise_try ends).trans ?_)⟩
      rw [get_bind, raise_bind back]

theorem playerHandle_adds (reach : Reach s) (awake : s.Awake a) (new : s.knows a player = false)
    (quota : s.load a < 128) (spare : s.handles.spare ≠ 0) : ∃ id handles,
      playerHandle a player s = .done (.ok id) { s with handles } ∧
        s.handles.add (s.owner a) PlayerType (.player player) = .ok (id, handles) := by
  have real : s.owner a ≠ 0 := reach.real a (Or.inl awake.loaded)
  obtain ⟨id, handles, added⟩ := add_succeeds (Resource.player player) real
    (by decide : PlayerType ≠ 0) spare
  refine ⟨id, handles, ?_, added⟩
  rw [playerHandle_new reach new, done_bind ((limit_eq awake).trans (by rw [if_pos quota]))]
  exact addHandle_ok added

theorem playerHandle_refuses (reach : Reach s) (awake : s.Awake a) (new : s.knows a player = false)
    (full : 128 ≤ s.load a ∨ s.handles.spare = 0) : ∃ x,
      playerHandle a player s = .done (.error x) s := by
  rw [playerHandle_new reach new]
  by_cases quota : s.load a < 128
  · obtain ⟨refusal, refused⟩ := add_fails (s.owner a) PlayerType
      (Resource.player player) (full.resolve_left (by omega))
    rw [done_bind ((limit_eq awake).trans (by rw [if_pos quota]))]
    exact ⟨_, addHandle_error refused⟩
  · exact ⟨_, raise_bind ((limit_eq awake).trans (by rw [if_neg quota]))⟩

theorem forall₂_mono {A B : Type} {R R' : A → B → Prop} {xs : List A} {ys : List B}
    (related : List.Forall₂ R xs ys) (weaker : ∀ y ∈ ys, ∀ x, R x y → R' x y) :
    List.Forall₂ R' xs ys := by
  induction related with
  | nil => exact .nil
  | cons first _ ih =>
      exact .cons (weaker _ (List.mem_cons_self ..) _ first)
        (ih fun y member => weaker y (List.mem_cons_of_mem _ member))

/-- The loop succeeds exactly when there is room for what is missing, by the quota and
in the table. -/
theorem addPlayers_ends (players : List Player) : ∀ {s : State} (created output : List HandleId),
    Reach s → s.Awake a → players.Pairwise (fun p q => p.sameConnection q = false) →
      (s.missing a players = 0 ∨
        s.load a + s.missing a players ≤ 128 ∧ s.missing a players ≤ s.handles.spare) →
      ∃ ids handles, addPlayers a owned players created output s =
          .done (.ok (output ++ ids)) { s with handles } ∧
        State.load { s with handles } a = s.load a + s.missing a players ∧
        (∀ id known, s.player id (s.owner a) = some known →
          State.player { s with handles } id (s.owner a) = some known) ∧
        List.Forall₂ (fun id player => State.HasPlayer { s with handles } a id player ∧
          (s.knows a player = true → s.matches (s.owner a) player id = true)) ids players := by
  induction players with
  | nil =>
      intro s created output reach awake distinct room
      exact ⟨[], s.handles, by rw [List.append_nil]; rfl, rfl, fun id known there => there, .nil⟩
  | cons player rest ih =>
      intro s created output reach awake distinct room
      obtain ⟨apart, distinct⟩ := List.pairwise_cons.mp distinct
      have counted := missing_cons (s := s) (a := a) player rest
      cases known : s.knows a player with
      | true =>
          rw [known, if_pos rfl, Nat.add_zero] at counted
          obtain ⟨id, ends, same⟩ := playerHandle_known reach known
          obtain ⟨created', next⟩ := addPlayers_next owned created output rest ends
          rw [counted] at room ⊢
          obtain ⟨ids, handles, run, load, kept, served⟩ := ih created' (output ++ [id]) reach
            awake distinct room
          refine ⟨id :: ids, handles, ?_, load, kept, .cons ⟨?_, fun _ => same⟩ served⟩
          · rw [next, run, List.append_assoc, List.singleton_append]
          · obtain ⟨found, there, is⟩ := matches_iff.mp same
            obtain ⟨slot, -, connection⟩ := Player.sameConnection_iff.mp is
            exact ⟨found, kept id found there, slot, connection⟩
      | false =>
          rw [known, if_neg Bool.false_ne_true] at counted
          obtain ⟨quota, spare⟩ := room.resolve_left (by omega)
          obtain ⟨id, left, ends, added⟩ := playerHandle_adds reach awake known (by omega)
            (by omega)
          have reach' := reach.act (.addHandle a (.player player) id left
            ⟨awake.state, by omega⟩ awake.loaded (Or.inl ⟨player, rfl⟩) added)
          have others := missing_added added apart
          have one := spare_add added
          have load := load_added added
          obtain ⟨created', next⟩ := addPlayers_next owned created output rest ends
          obtain ⟨ids, handles, run, grown, kept, served⟩ := ih created'
            (output ++ [id]) reach' ⟨awake.state, awake.loaded⟩ distinct
            (Or.inr ⟨by omega, by show _ ≤ left.spare; omega⟩)
          have mine := (player_added added).mpr (Or.inl ⟨rfl, rfl⟩)
          refine ⟨id :: ids, handles, ?_, ?_, fun number found there => ?_, .cons ⟨?_, ?_⟩ ?_⟩
          · rw [next, run, List.append_assoc, List.singleton_append]
          · rw [counted]
            have total : State.load { s with handles } a = _ := grown
            omega
          · exact kept number found ((player_added added).mpr (Or.inr there))
          · exact ⟨player, kept id player mine, rfl, rfl⟩
          · exact fun yes => absurd (known.symm.trans yes) Bool.false_ne_true
          · refine forall₂_mono served fun other member number both => ⟨both.1, fun yes => ?_⟩
            have still : State.knows { s with handles := left } a other = true :=
              (knows_added added (apart other member)).trans yes
            obtain ⟨found, there, same⟩ := matches_iff.mp (both.2 still)
            rcases (player_added added).mp there with ⟨-, rfl⟩ | old
            · exact absurd ((apart other member).symm.trans same) Bool.false_ne_true
            · exact matches_iff.mpr ⟨found, old, same⟩

/-- Where the quota or the table does not allow what is missing, the loop raises. -/
theorem addPlayers_raises (owned : List HandleId) (players : List Player) :
    ∀ {s : State} (created output : List HandleId), Reach s → s.Awake a →
      players.Pairwise (fun p q => p.sameConnection q = false) →
      s.missing a players ≠ 0 →
      (128 < s.load a + s.missing a players ∨ s.handles.spare < s.missing a players) →
      ∃ x t, addPlayers a owned players created output s = .done (.error x) t := by
  induction players with
  | nil => exact fun _ _ _ _ _ none_ => absurd rfl none_
  | cons player rest ih =>
      intro s created output reach awake distinct some_ full
      obtain ⟨apart, distinct⟩ := List.pairwise_cons.mp distinct
      rw [missing_cons] at some_ full
      cases known : s.knows a player with
      | true =>
          rw [known, if_pos rfl, Nat.add_zero] at some_ full
          obtain ⟨id, ends, same⟩ := playerHandle_known reach known
          obtain ⟨created', next⟩ := addPlayers_next owned created output rest ends
          obtain ⟨x, t, raised⟩ := ih created' (output ++ [id]) reach awake distinct some_ full
          exact ⟨x, t, next.trans raised⟩
      | false =>
          rw [known, if_neg Bool.false_ne_true] at full
          by_cases room : s.load a < 128 ∧ s.handles.spare ≠ 0
          · obtain ⟨id, left, ends, added⟩ := playerHandle_adds reach awake known room.1 room.2
            have reach' := reach.act (.addHandle a (.player player) id left
              ⟨awake.state, room.1⟩ awake.loaded (Or.inl ⟨player, rfl⟩) added)
            have others := missing_added added apart
            have one := spare_add added
            have load := load_added added
            obtain ⟨created', next⟩ := addPlayers_next owned created output rest ends
            obtain ⟨x, t, raised⟩ := ih created' (output ++ [id]) reach'
              ⟨awake.state, awake.loaded⟩ distinct (by omega)
              (by show 128 < State.load { s with handles := left } a + _ ∨ left.spare < _; omega)
            exact ⟨x, t, next.trans raised⟩
          · have none_ : 128 ≤ s.load a ∨ s.handles.spare = 0 := by
              by_contra some_
              obtain ⟨quota, spare⟩ := not_or.mp some_
              exact room ⟨Nat.lt_of_not_le quota, spare⟩
            obtain ⟨x, ends⟩ := playerHandle_refuses reach awake known none_
            exact addPlayers_stops reach ends

end Loop

/-! ## All or nothing -/

/-- What follows in `MakePlayerHandles` once the players who left are forgotten. -/
def handOut (a : Addr) (players : List Player) : M (Except String (List HandleId)) := do
  let s ← Foundation.get
  let owned := s.handles.owned (s.owner a) PlayerType
  let missing ← missingPlayers (s.owner a) owned players
  if (s.handles.owned (s.owner a) 0).length + (s.commandsOf a).size + (s.eventsOf a).size +
      missing > 128 then return .error "Plugin resource limit (128) reached."
  return .ok (← addPlayers a owned players [] [])

theorem makePlayerHandles_eq (a : Addr) (players : List Player) {capacity : Int}
    (fits : players.length ≤ capacity % 2 ^ 64) :
    makePlayerHandles a players capacity = reconcilePlayers >>= fun _ => handOut a players := by
  unfold makePlayerHandles
  rw [if_neg (not_lt.mpr fits)]
  rfl

/-- Either every player has a handle, in order, with new ones for exactly those without,
or the quota does not allow it and nothing was made. -/
inductive AllOrNothing (s : State) (a : Addr) (players : List Player) :
    Except Raised (Except String (List HandleId)) → State → Prop where
  | made (ids : List HandleId) (t : State) (allowed : s.load a + s.missing a players ≤ 128)
      (new : t.load a = s.load a + s.missing a players)
      (served : List.Forall₂ (fun id player => t.HasPlayer a id player ∧
        (s.knows a player = true → s.matches (s.owner a) player id = true)) ids players) :
      AllOrNothing s a players (.ok (.ok ids)) t
  | refused (text : String) (full : 128 < s.load a + s.missing a players) :
      AllOrNothing s a players (.ok (.error text)) s

/-- What the advance check counts. -/
def State.counted (s : State) (a : Addr) : Nat :=
  (s.handles.owned (s.owner a) 0).length + (s.commandsOf a).size + (s.eventsOf a).size

/-- The advance check already refuses, or there is room for the new handles with the
callbacks counted too, and the table has it. -/
def State.Agrees (s : State) (a : Addr) (players : List Player) : Prop :=
  128 < s.counted a + s.missing a players ∨
    s.load a + s.missing a players ≤ 128 ∧ s.missing a players ≤ s.handles.spare

theorem handOut_ends (reach : Reach s) (awake : s.Awake a) {players : List Player}
    (distinct : players.Pairwise fun p q => p.sameConnection q = false) :
    ∃ outcome t, handOut a players s = .done outcome t ∧
      (AllOrNothing s a players outcome t ↔ s.Agrees a players) := by
  have within := reach.load_le_quota a
  have more : s.counted a ≤ s.load a := Nat.le_add_right _ _
  have start : handOut a players s = (ite (128 < s.counted a + s.missing a players)
      (Pure.pure (.error "Plugin resource limit (128) reached."))
      (addPlayers a (s.handles.owned (s.owner a) PlayerType) players [] [] >>= fun ids =>
        Pure.pure (.ok ids)) : M (Except String (List HandleId))) s := by
    unfold handOut
    rw [get_bind, done_bind (missingPlayers_eq reach a players)]
    rfl
  rw [start]
  by_cases refused : 128 < s.counted a + s.missing a players
  · rw [if_pos refused]
    exact ⟨_, _, rfl, fun _ => Or.inl refused, fun _ => .refused _ (by omega)⟩
  · rw [if_neg refused]
    by_cases room : s.load a + s.missing a players ≤ 128 ∧ s.missing a players ≤ s.handles.spare
    · obtain ⟨ids, handles, run, grown, -, served⟩ := addPlayers_ends players [] [] reach awake
        distinct (Or.inr room)
      refine ⟨_, _, done_bind run, fun _ => Or.inr room, fun _ => ?_⟩
      exact .made ids _ room.1 grown served
    · have some_ : s.missing a players ≠ 0 := by
        intro none_
        rw [none_] at room
        exact room ⟨within, Nat.zero_le _⟩
      obtain ⟨x, t, raised⟩ := addPlayers_raises (s.handles.owned (s.owner a) PlayerType)
        players [] [] reach awake distinct some_ (by omega)
      refine ⟨_, _, raise_bind raised, fun all => (nomatch all), fun agrees => ?_⟩
      exact absurd agrees (not_or.mpr ⟨refused, room⟩)

variable {start : State} {stack : Stack}

/-- Once the players who left are forgotten, a list of distinct players is served all or
nothing, without an exception and with nobody else running, exactly when the two counts
of room agree. -/
theorem player_handles_agree (boot : Boot start) (reached : Reached start s stack)
    (awake : s.state a = .running ∨ s.state a = .loading ∧ s.active a ≠ 0)
    {players : List Player} {capacity : Int} (fits : players.length ≤ capacity % 2 ^ 64)
    (distinct : players.Pairwise fun p q => p.sameConnection q = false) :
    makePlayerHandles a players capacity = (reconcilePlayers >>= fun _ => handOut a players) ∧
      (reconcilePlayers s).Wp (fun _ => False) Later fun outcome t => outcome = .ok () ∧
        ∃ outcome t', handOut a players t = .done outcome t' ∧
          (AllOrNothing t a players outcome t' ↔ t.Agrees a players) := by
  have reach := reached.reach boot
  have loaded : s.vm a = true := by
    rcases awake with running | ⟨-, active⟩
    · exact (reach.living.home a (Or.inl running)).1
    · exact reach.living.loaded active
  refine ⟨makePlayerHandles_eq a players fits, ?_⟩
  refine Tree.Wp.mono (reconcilePlayers_runs (E := False) (Within.start reach))
    fun outcome t fine => ?_
  obtain ⟨within, forgot, never⟩ := fine
  cases outcome with
  | error x => exact (never x rfl).elim
  | ok value =>
      have active : t.active = s.active := congrArg Calls.active within.later.calls
      obtain ⟨h, d, n, l, j, m, g, w, v, rfl⟩ := forgot value rfl
      refine ⟨rfl, handOut_ends within.reach ⟨?_, loaded⟩ distinct⟩
      exact awake.imp id fun ⟨loading, inside⟩ => ⟨loading, inside⟩

/-! ## The callbacks the advance check leaves out -/

def guest : Player := { slot := 0, connection := 1 }

def visitor : Player := { slot := 1, connection := 2 }

/-- While it starts, a script has asked for the players and got a handle for one. -/
def meeting : History :=
  starting ++ [.start (.native 1 (.findTargets 1)), .reply { players := [guest] }]

theorem player_handles_agree_meeting : ∃ s stack, Reached (State.boot 0 ['!'] ['/']) s stack ∧
    s.state 1 = .loading ∧ s.active 1 ≠ 0 ∧ s.knows 1 guest = true ∧
      s.missing 1 [guest, visitor] = 1 ∧
      (reconcilePlayers s).Wp (fun _ => False) Later fun outcome t => outcome = .ok () ∧
        ∃ outcome t', handOut 1 [guest, visitor] t = .done outcome t' ∧
          (AllOrNothing t 1 [guest, visitor] outcome t' ↔ t.Agrees 1 [guest, visitor]) := by
  obtain ⟨s, stack, reached, seen⟩ := @History.reached meeting
    (fun s => decide (s.state 1 = .loading ∧ s.active 1 ≠ 0 ∧ s.knows 1 guest = true ∧
      s.missing 1 [guest, visitor] = 1)) (by decide +kernel)
  obtain ⟨loading, active, known, missing⟩ := of_decide_eq_true seen
  have agree := player_handles_agree boot_boot reached (Or.inr ⟨loading, active⟩)
    (by decide : (([guest, visitor].length : Nat) : Int) ≤ 2 % 2 ^ 64)
    (List.pairwise_pair.mpr (by decide))
  exact ⟨s, stack, reached, loading, active, known, missing, agree.2⟩

/-- A script is loaded, and while it starts a native that it uses captures callbacks up
to the quota. -/
def capturing : History :=
  [.start (.service (.registerContextNative 5
      { name := "Clans_Each", service := "clans", version := 1 })),
    .start (.report (.load { directory := "a" })), .reply { manifest := some { id := "a" } },
    .reply {}, .reply {}, .reply {}, .reply {}, .reply {}, .reply {},
    .start (.native 1 (.extension 1))] ++
    List.replicate 128 (.start (.context 1 1 (.captureCallback 0)))

def raises {α : Type} : Tree State Reply Raised α → Bool
  | .done (.error _) _ => true
  | _ => false

/-- One player, no handle, no command and no listener: the advance check lets the script
go on, and the first handle raises. -/
theorem player_handles_raise : ∃ s stack, Reached (State.boot 0 ['!'] ['/']) s stack ∧
    s.state 1 = .loading ∧ s.active 1 ≠ 0 ∧ s.counted 1 + s.missing 1 [guest] = 1 ∧
      raises (makePlayerHandles 1 [guest] 1 s) = true := by
  obtain ⟨s, stack, reached, seen⟩ := @History.reached capturing
    (fun s => decide (s.state 1 = .loading ∧ s.active 1 ≠ 0 ∧
      s.counted 1 + s.missing 1 [guest] = 1 ∧ raises (makePlayerHandles 1 [guest] 1 s) = true))
    (by decide +kernel)
  exact ⟨s, stack, reached, of_decide_eq_true seen⟩

end Foundation

end Source2Root
