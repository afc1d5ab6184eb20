import Mathlib
import Source2Root.Transition
import Source2Root.Prefs
import Source2Root.PrefsLedger
import Source2Root.PrefsDurability

/-!
# What a waiting request is told

A request for a player's cache or save is answered once the cache is ready or the
account's error text is not empty.  The text should tell that the last load or
the last save failed and is not being retried.  Both paths write one field, so
this holds exactly as long as no step of one path clears or keeps the text of
the other; `Breaks` lists these steps.
-/

set_option autoImplicit false

namespace Source2Root.Prefs

open Transition

/-- The account's last load failed and no load of it is queued. -/
def LoadStands (s : State) (id : Nat) : Prop :=
  s.ghost.loadFailed id = true ∧ ∀ account, Task.load account id ∉ s.jobs

/-- The account's last save failed and no save of it is queued. -/
def SaveStands (s : State) (id : Nat) : Prop :=
  s.ghost.saveFailed id = true ∧ ∀ account batch, Task.save account id batch ∉ s.jobs

/-- The error text of every cached account tells of a standing failure. -/
def Truthful (s : State) : Prop :=
  ∀ id account : Nat, s.accounts[id]? = some account →
    ((s.accountAt account).error ≠ "" ↔ LoadStands s id ∨ SaveStands s id)

/-! ## The steps that break it -/

/-- A load that `Load` would queue now takes over from the one that failed, and
the text of that failure would stay. -/
def LoadBreaks (s : State) (id account : Nat) : Prop :=
  s.pending < queueCapacity ∧ (s.accountAt account).loading = false ∧
    s.ghost.loadFailed id = true ∧
    ¬ (s.ghost.saveFailed id = true ∧ (s.accountAt account).saving = false)

/-- A save that `Save` would queue now clears the text of a load that failed. -/
def SaveBreaks (s : State) (id account : Nat) : Prop :=
  s.pending < queueCapacity ∧ (s.accountAt account).saving = false ∧
    s.ghost.loadFailed id = true ∧ (s.accountAt account).loading = false

def Breaks (s : State) : Label → Prop
  | .setIdentity id cookie text now =>
      ∃ definition account, checkIdentity s id cookie text now = .ok definition ∧
        s.accounts[id]? = some account ∧ (s.accountAt account).revision ≠ maxRevision ∧
        SaveBreaks s id account
  | .retryLoad player =>
      ∃ account, current s player = .ok account ∧ (s.accountAt account).state = .failed ∧
        LoadBreaks s player.account account
  | .refresh player =>
      ∃ account, current s player = .ok account ∧ (s.accountAt account).saving = false ∧
        (s.accountAt account).dirty.isEmpty = true ∧ LoadBreaks s player.account account
  | .saveNext =>
      ∃ id rest stopping account, s.owner = .saving (id :: rest) stopping ∧
        s.accounts[id]? = some account ∧ (s.accountAt account).writeFailed = false ∧
        (s.accountAt account).dirty.isEmpty = false ∧ SaveBreaks s id account
  | .retryNext =>
      ∃ id rest account, s.owner = .retrying (id :: rest) ∧ s.accounts[id]? = some account ∧
        (s.accountAt account).dirty.isEmpty = false ∧ SaveBreaks s id account
  | .deliver =>
      -- A failure without a text, or a success that clears the other path's failure.
      match s.ready with
      | (.load account id, .loaded _) :: _ =>
          s.ghost.saveFailed id = true ∧ (s.accountAt account).saving = false
      | (.save account id _, .saved) :: _ =>
          s.ghost.loadFailed id = true ∧ (s.accountAt account).loading = false
      | (.load _ _, outcome) :: _ | (.save _ _ _, outcome) :: _ => message outcome = ""
      | _ => False
  | _ => False

/-! ## One account -/

/-- The same by the account's own flags. -/
def Told (s : State) (id account : Nat) : Prop :=
  (s.accountAt account).error ≠ "" ↔
    (s.ghost.loadFailed id = true ∧ (s.accountAt account).loading = false) ∨
      (s.ghost.saveFailed id = true ∧ (s.accountAt account).saving = false)

def AllTold (s : State) : Prop :=
  ∀ id account : Nat, s.accounts[id]? = some account → Told s id account

theorem mem_jobs_iff {s : State} {task : Task} (owned : task.owner ≠ none) :
    task ∈ s.jobs ↔ task ∈ s.ledger.jobs := by
  refine ⟨mem_ledger_jobs owned, fun member => ?_⟩
  unfold Ledger.jobs State.ledger at member
  unfold State.jobs
  rcases List.mem_append.mp member with done | flying
  · obtain ⟨job, kept, rfl⟩ := List.mem_map.mp done
    exact List.mem_append_left _ (List.mem_append_left _
      (List.mem_map.mpr ⟨job, (List.mem_filter.mp kept).1, rfl⟩))
  · rcases List.mem_append.mp (List.mem_filter.mp flying).1 with running | waiting
    · exact List.mem_append_left _ (List.mem_append_right _ running)
    · exact List.mem_append_right _ waiting

theorem load_mem_jobs {s : State} {account id : Nat} :
    Task.load account id ∈ s.jobs ↔ Task.load account id ∈ s.ledger.jobs :=
  mem_jobs_iff (by simp [Task.owner])

theorem save_mem_jobs {s : State} {account id : Nat} {batch : Values} :
    Task.save account id batch ∈ s.jobs ↔ Task.save account id batch ∈ s.ledger.jobs :=
  mem_jobs_iff (by simp [Task.owner])

theorem loadStands_iff {s : State} (inv : Inv s.ledger) {id account : Nat}
    (found : s.accounts[id]? = some account) :
    LoadStands s id ↔ s.ghost.loadFailed id = true ∧ (s.accountAt account).loading = false := by
  unfold LoadStands
  refine and_congr_right fun _ => ?_
  have flag : (s.accountAt account).loading = true ↔ Task.load account id ∈ s.ledger.jobs :=
    (inv.cached id account found).loading
  constructor
  · intro idle
    rw [← Bool.not_eq_true, flag, ← load_mem_jobs]
    exact idle account
  · intro idle object member
    have queued := load_mem_jobs.mp member
    have same : s.accounts[id]? = some object := inv.owned _ queued object id false rfl
    rw [found] at same
    cases same
    rw [flag.mpr queued] at idle
    cases idle

theorem saveStands_iff {s : State} (inv : Inv s.ledger) {id account : Nat}
    (found : s.accounts[id]? = some account) :
    SaveStands s id ↔ s.ghost.saveFailed id = true ∧ (s.accountAt account).saving = false := by
  unfold SaveStands
  refine and_congr_right fun _ => ?_
  have flag : (s.accountAt account).saving = true ↔
      ∃ batch, Task.save account id batch ∈ s.ledger.jobs :=
    (inv.cached id account found).saving
  constructor
  · intro idle
    rw [← Bool.not_eq_true, flag]
    rintro ⟨batch, queued⟩
    exact idle account batch (save_mem_jobs.mpr queued)
  · intro idle object batch member
    have queued := save_mem_jobs.mp member
    have same : s.accounts[id]? = some object := inv.owned _ queued object id true rfl
    rw [found] at same
    cases same
    rw [flag.mpr ⟨batch, queued⟩] at idle
    cases idle

theorem truthful_iff {s : State} (inv : Inv s.ledger) :
    Truthful s ↔ AllTold s := by
  unfold Truthful AllTold Told
  refine forall_congr' fun id => forall_congr' fun account => forall_congr' fun found => ?_
  rw [loadStands_iff inv found, saveStands_iff inv found]

/-- A step that changes nothing but one cached account. -/
structure Touches (s s' : State) (id account : Nat) : Prop where
  accounts : s'.accounts = s.accounts
  others : ∀ other, other ≠ account → s'.accountAt other = s.accountAt other
  loadFailed : ∀ id', id' ≠ id → s'.ghost.loadFailed id' = s.ghost.loadFailed id'
  saveFailed : ∀ id', id' ≠ id → s'.ghost.saveFailed id' = s.ghost.saveFailed id'

theorem Touches.refl (s : State) (id account : Nat) : Touches s s id account :=
  ⟨rfl, fun _ _ => rfl, fun _ _ => rfl, fun _ _ => rfl⟩

theorem Touches.trans {s t u : State} {id account : Nat} (first : Touches s t id account)
    (second : Touches t u id account) : Touches s u id account where
  accounts := second.accounts.trans first.accounts
  others := fun other differ => (second.others other differ).trans (first.others other differ)
  loadFailed := fun id' differ => (second.loadFailed id' differ).trans (first.loadFailed id' differ)
  saveFailed := fun id' differ => (second.saveFailed id' differ).trans (first.saveFailed id' differ)

/-- Only the touched account can go wrong. -/
theorem Touches.told {s s' : State} {id account : Nat} (touches : Touches s s' id account)
    (inv : Inv s.ledger) (found : s.accounts[id]? = some account)
    (told : AllTold s) : AllTold s' ↔ Told s' id account := by
  constructor
  · intro all
    exact all id account (touches.accounts ▸ found)
  · intro here id' other found'
    rw [touches.accounts] at found'
    by_cases same : other = account
    · rw [same] at found' ⊢
      rw [inv.injective id' id account found' found]
      exact here
    · have differ : id' ≠ id := by
        rintro rfl
        rw [found] at found'
        exact same (Option.some.inj found').symm
      unfold Told
      rw [touches.others other same, touches.loadFailed id' differ, touches.saveFailed id' differ]
      exact told id' other found'

theorem load_touches (s : State) (id account : Nat) : Touches s (load s id account) id account where
  accounts := (load_accounts s id account).1
  others := fun _ differ => load_other s id differ
  loadFailed := by
    intro id' differ
    unfold load
    split
    · rfl
    · split
      · exact Function.update_of_ne differ _ _
      · rename_i submitted
        rw [(submit_some submitted).2]
        rfl
  saveFailed := by
    intro id' _
    unfold load
    split
    · rfl
    · split
      · rfl
      · rename_i submitted
        rw [(submit_some submitted).2]
        rfl

theorem submit_room {s : State} {task : Task} : submit s task = none ↔ ¬ s.pending < queueCapacity := by
  unfold submit
  split <;> simp [*]

theorem told_load {s : State} {id account : Nat} (told : Told s id account) :
    Told (load s id account) id account ↔ ¬ LoadBreaks s id account := by
  unfold load
  split
  · rename_i loading
    refine iff_of_true told ?_
    rintro ⟨-, idle, -⟩
    rw [loading] at idle
    cases idle
  · rename_i idle
    rw [Bool.not_eq_true] at idle
    split
    · rename_i full
      refine iff_of_true ?_ fun breaks => submit_room.mp full breaks.1
      simp [Told, State.noteLoad, State.setAccount, idle]
    · rename_i submitted
      obtain ⟨room, rfl⟩ := submit_some submitted
      unfold Told at told
      simp only [Told, LoadBreaks, State.setAccount, Function.update_self, room, idle, told]
      tauto

theorem save_touches (s : State) (id account : Nat) : Touches s (save s id account) id account := by
  unfold save
  dsimp only
  split
  · exact Touches.refl s id account
  · split
    · exact Touches.refl s id account
    · rename_i submitted
      rw [(submit_some submitted).2]
      exact ⟨rfl, fun _ differ => Function.update_of_ne differ _ _, fun _ _ => rfl,
        fun _ _ => rfl⟩

theorem told_save {s : State} {id account : Nat} (told : Told s id account) :
    Told (save s id account) id account ↔
      ¬ ((s.accountAt account).writeFailed = false ∧
        (s.accountAt account).dirty.isEmpty = false ∧ SaveBreaks s id account) := by
  unfold save
  dsimp only
  split
  · rename_i skipped
    refine iff_of_true told ?_
    rintro ⟨fine, dirty, -, idle, -⟩
    simp [fine, dirty, idle] at skipped
  · rename_i due
    simp only [Bool.or_eq_true, not_or, Bool.not_eq_true] at due
    split
    · rename_i full
      exact iff_of_true told fun breaks => submit_room.mp full breaks.2.2.1
    · rename_i submitted
      obtain ⟨room, rfl⟩ := submit_some submitted
      simp only [Told, SaveBreaks, State.setAccount, Function.update_self, room, due]
      tauto

theorem accept_touches (s : State) (id account : Nat) (name text : String) (now : Int) :
    Touches s (accept s id account name text now) id account :=
  ⟨rfl, fun _ differ => Function.update_of_ne differ _ _, fun _ _ => rfl, fun _ _ => rfl⟩

theorem accept_account (s : State) (id account : Nat) (name text : String) (now : Int) :
    let a := (accept s id account name text now).accountAt account
    a.error = (s.accountAt account).error ∧ a.loading = (s.accountAt account).loading ∧
      a.saving = (s.accountAt account).saving ∧ a.state = (s.accountAt account).state ∧
      a.writeFailed = false ∧ a.dirty.isEmpty = false := by
  simp [accept, State.setAccount]

theorem write_ok {s s' : State} {id account : Nat} {name text : String} {now : Int}
    (wrote : write s id account name text now = .ok s') :
    (s.accountAt account).revision ≠ maxRevision ∧
      s' = save (accept s id account name text now) id account := by
  unfold write at wrote
  split at wrote
  · cases wrote
  · rename_i fine
    rw [not_or] at fine
    exact ⟨fine.2, (Except.ok.inj wrote).symm⟩

theorem write_error {s : State} {id account : Nat} {name text error : String} {now : Int}
    (refused : write s id account name text now = .error error) (future : 0 ≤ now) :
    (s.accountAt account).revision = maxRevision := by
  unfold write at refused
  split at refused
  · rename_i bad
    rcases bad with past | last
    · omega
    · exact last
  · cases refused

theorem told_write {s : State} {id account : Nat} {name text : String} {now : Int}
    (told : Told s id account) :
    Told (save (accept s id account name text now) id account) id account ↔
      ¬ SaveBreaks s id account := by
  obtain ⟨error, loading, saving, -, fine, dirty⟩ := accept_account s id account name text now
  have accepted : Told (accept s id account name text now) id account := by
    unfold Told
    rw [error, loading, saving]
    exact told
  rw [told_save accepted, fine, dirty]
  unfold SaveBreaks
  rw [loading, saving]
  simp [State.pending, accept, State.setAccount]

/-! ## The cache -/

def AllReady (s : State) : Prop :=
  ∀ id account : Nat, s.accounts[id]? = some account →
    (s.accountAt account).state = .ready → s.ghost.loadFailed id = false

/-- Beside the flags: a ready account's last load succeeded, and the accounts of
the connections are cached. -/
structure Settled (s : State) : Prop where
  ready : AllReady s
  synced : ∀ (slot : Int) (player : Identity), s.players[slot]? = some player →
    player.account ∈ s.accounts

/-- A change to one account that leaves it unready, or as ready as its last load. -/
theorem Settled.touch {s s' : State} {id account : Nat} (settled : Settled s)
    (inv : Inv s.ledger) (found : s.accounts[id]? = some account)
    (touches : Touches s s' id account) (players : s'.players = s.players)
    (ready : (s'.accountAt account).state = .ready → s'.ghost.loadFailed id = false) :
    Settled s' where
  ready := by
    intro id' other found' isReady
    rw [touches.accounts] at found'
    by_cases same : other = account
    · rw [same] at found' isReady
      rw [inv.injective id' id account found' found]
      exact ready isReady
    · have differ : id' ≠ id := by
        rintro rfl
        rw [found] at found'
        exact same (Option.some.inj found').symm
      rw [touches.loadFailed id' differ]
      rw [touches.others other same] at isReady
      exact settled.ready id' other found' isReady
  synced := by
    intro slot player here
    rw [touches.accounts]
    exact settled.synced slot player (players ▸ here)

theorem load_state (s : State) (id account : Nat) :
    (load s id account).accountAt account = s.accountAt account ∧
        (load s id account).ghost = s.ghost ∨
      ((load s id account).accountAt account).state ≠ .ready := by
  unfold load
  split
  · exact Or.inl ⟨rfl, rfl⟩
  · right
    split
    · simp [State.noteLoad, State.setAccount]
    · simp [State.setAccount]

theorem load_settled {s : State} {id account : Nat} (settled : Settled s) (inv : Inv s.ledger)
    (found : s.accounts[id]? = some account) : Settled (load s id account) := by
  refine settled.touch inv found (load_touches s id account) (load_accounts s id account).2.2 ?_
  intro ready
  rcases load_state s id account with ⟨same, ghost⟩ | unready
  · rw [same] at ready
    rw [ghost]
    exact settled.ready id account found ready
  · exact absurd ready unready

theorem save_state (s : State) (id account : Nat) :
    ((save s id account).accountAt account).state = (s.accountAt account).state ∧
      (save s id account).ghost = s.ghost := by
  unfold save
  dsimp only
  split
  · exact ⟨rfl, rfl⟩
  · split
    · exact ⟨rfl, rfl⟩
    · rename_i submitted
      rw [(submit_some submitted).2]
      simp [State.setAccount]

theorem save_settled {s : State} {id account : Nat} (settled : Settled s) (inv : Inv s.ledger)
    (found : s.accounts[id]? = some account) : Settled (save s id account) := by
  obtain ⟨state, ghost⟩ := save_state s id account
  refine settled.touch inv found (save_touches s id account) (save_accounts s id account).2 ?_
  rw [state, ghost]
  exact settled.ready id account found

theorem write_settled {s : State} {id account : Nat} {name text : String} {now : Int}
    (settled : Settled s) (inv : Inv s.ledger) (found : s.accounts[id]? = some account) :
    Settled (save (accept s id account name text now) id account) := by
  have touches := (accept_touches s id account name text now).trans
    (save_touches (accept s id account name text now) id account)
  refine settled.touch inv found touches (save_accounts _ id account).2 ?_
  rw [(save_state _ id account).1, (save_state _ id account).2,
    (accept_account s id account name text now).2.2.2.1]
  exact settled.ready id account found

/-- A new account has no failure but that of its own load. -/
theorem openAndLoad_told {s : State} {id : Nat} (inv : Inv s.ledger) (missing : id ∉ s.accounts)
    (told : AllTold s) : AllTold (openAndLoad s id) := by
  have noFailure : s.ghost.saveFailed id = false := by
    rw [← Bool.not_eq_true]
    intro noted
    obtain ⟨account, found, -⟩ := inv.failed id noted
    refine missing ?_
    rw [← Std.ExtTreeMap.isSome_getElem?_iff_mem]
    change s.accounts[id]? = some account at found
    rw [found]
    rfl
  intro id' account found
  rw [openAndLoad_accounts, Std.ExtTreeMap.getElem?_insert] at found
  have touches := load_touches (s.open id) id s.accountCount
  split at found
  · rename_i same
    cases compare_eq_iff_eq.mp same
    cases Option.some.inj found
    unfold openAndLoad load
    split
    · rename_i loading
      simp [State.open] at loading
    · split
      · simp [Told, State.noteLoad, State.setAccount, State.open]
      · rename_i submitted
        rw [(submit_some submitted).2]
        simp [Told, State.setAccount, State.open, noFailure]
  · rename_i differ
    rw [compare_eq_iff_eq] at differ
    have old := (inv.bound id' account found).ne
    unfold Told openAndLoad
    rw [touches.others account old, touches.loadFailed id' (Ne.symm differ),
      touches.saveFailed id' (Ne.symm differ)]
    have kept : (s.open id).accountAt account = s.accountAt account :=
      Function.update_of_ne old _ _
    rw [kept]
    exact told id' account found

theorem openAndLoad_ready {s : State} {id : Nat} (inv : Inv s.ledger) (ready : AllReady s) :
    AllReady (openAndLoad s id) := by
  intro id' account found
  rw [openAndLoad_accounts, Std.ExtTreeMap.getElem?_insert] at found
  have touches := load_touches (s.open id) id s.accountCount
  split at found
  · cases Option.some.inj found
    intro isReady
    rcases load_state (s.open id) id s.accountCount with ⟨same, -⟩ | unready
    · unfold openAndLoad at isReady
      rw [same] at isReady
      simp [State.open] at isReady
    · exact absurd isReady unready
  · rename_i differ
    rw [compare_eq_iff_eq] at differ
    have old := (inv.bound id' account found).ne
    unfold openAndLoad
    have kept : (s.open id).accountAt account = s.accountAt account :=
      Function.update_of_ne old _ _
    rw [touches.others account old, touches.loadFailed id' (Ne.symm differ), kept]
    exact ready id' account found

theorem openAll_told {missing : List Nat} : ∀ {s : State}, Inv s.ledger → missing.Nodup →
    (∀ id ∈ missing, id ∉ s.accounts) → AllTold s → AllReady s →
    AllTold (missing.foldl openAndLoad s) ∧ AllReady (missing.foldl openAndLoad s) ∧
      (∀ id, id ∈ s.accounts ∨ id ∈ missing → id ∈ (missing.foldl openAndLoad s).accounts) ∧
      (missing.foldl openAndLoad s).players = s.players := by
  induction missing with
  | nil => exact fun _ _ _ told ready => ⟨told, ready, fun id => by simp, rfl⟩
  | cons first rest ih =>
      intro s inv distinct new told ready
      obtain ⟨alone, distinct⟩ := List.nodup_cons.mp distinct
      have absent := new first List.mem_cons_self
      have later : ∀ id ∈ rest, id ∉ (openAndLoad s first).accounts := by
        intro other member
        rw [openAndLoad_accounts, Std.ExtTreeMap.mem_insert, compare_eq_iff_eq, not_or]
        refine ⟨?_, new other (List.mem_cons_of_mem _ member)⟩
        rintro rfl
        exact alone member
      obtain ⟨toldAll, readyAll, cached, players⟩ := ih (openAndLoad_inv inv absent) distinct later
        (openAndLoad_told inv absent told) (openAndLoad_ready inv ready)
      refine ⟨toldAll, readyAll, ?_, players.trans (load_accounts (s.open first) first _).2.2⟩
      intro id known
      refine cached id ?_
      rw [openAndLoad_accounts, Std.ExtTreeMap.mem_insert, compare_eq_iff_eq]
      rcases known with old | member
      · exact Or.inl (Or.inr old)
      · rcases List.mem_cons.mp member with rfl | later
        · exact Or.inl (Or.inl rfl)
        · exact Or.inr later

theorem evict_told {s : State} (told : AllTold s) : AllTold (evict s) :=
  fun id account found => told id account ((evict_lookup s id account).mp found).1

theorem evict_settled {s : State} (ready : AllReady s)
    (synced : ∀ (slot : Int) (player : Identity), s.players[slot]? = some player →
      player.account ∈ s.accounts) : Settled (evict s) where
  ready := fun id account found => ready id account ((evict_lookup s id account).mp found).1
  synced := by
    intro slot player here
    obtain ⟨account, found⟩ := Option.isSome_iff_exists.mp
      (Std.ExtTreeMap.isSome_getElem?_iff_mem.mpr (synced slot player here))
    have active : player.account ∈ s.activeAccounts :=
      List.mem_map.mpr ⟨(slot, player), Std.ExtTreeMap.mem_toList_iff_getElem?_eq_some.mpr here, rfl⟩
    rw [← Std.ExtTreeMap.isSome_getElem?_iff_mem,
      (evict_lookup s player.account account).mpr ⟨found, Or.inl active⟩]
    rfl

theorem sync_told {s s' : State} (inv : Inv s.ledger) (settled : Settled s) (told : AllTold s)
    {players : List Identity} (done : sync s players = .ok s') : AllTold s' ∧ Settled s' := by
  unfold sync at done
  obtain ⟨-, done⟩ := except_guard_ok.mp done
  obtain ⟨⟨next, missing⟩, taken, done⟩ := except_bind_ok.mp done
  obtain ⟨-, done⟩ := except_guard_ok.mp done
  cases Except.ok.inj done
  obtain ⟨new, covered⟩ := snapshot_ok taken (by simp) (by simp)
  obtain ⟨toldAll, readyAll, cached, same⟩ := openAll_told (s := { s with players := next })
    (inv.sync next) (toList_nodup missing) (fun id member => new id (Std.ExtTreeSet.mem_toList.mp member)) told
    settled.ready
  refine ⟨evict_told toldAll, evict_settled readyAll fun slot player here => cached _ ?_⟩
  rw [same] at here
  rcases covered slot player here with known | opened
  · exact Or.inl known
  · exact Or.inr (Std.ExtTreeSet.mem_toList.mpr opened)

/-! ## Steps -/

theorem AllTold.of_eq {s s' : State} (accounts : s'.accounts = s.accounts)
    (accountAt : s'.accountAt = s.accountAt) (loadFailed : s'.ghost.loadFailed = s.ghost.loadFailed)
    (saveFailed : s'.ghost.saveFailed = s.ghost.saveFailed) (told : AllTold s) : AllTold s' := by
  unfold AllTold Told at *
  rw [accounts, accountAt, loadFailed, saveFailed]
  exact told

theorem Settled.of_eq {s s' : State} (accounts : s'.accounts = s.accounts)
    (accountAt : s'.accountAt = s.accountAt) (loadFailed : s'.ghost.loadFailed = s.ghost.loadFailed)
    (players : s'.players = s.players) (settled : Settled s) : Settled s' := by
  constructor
  · unfold AllReady
    rw [accounts, accountAt, loadFailed]
    exact settled.ready
  · rw [players, accounts]
    exact settled.synced

/-- A write to a new account goes with a queued load, or finds the queue full too. -/
theorem not_saveBreaks_opened (s : State) (id : Nat) :
    ¬ SaveBreaks (openAndLoad s id) id s.accountCount := by
  rintro ⟨room, -, -, idle⟩
  unfold openAndLoad load at room idle
  split at idle
  · rename_i loading
    simp [State.open] at loading
  · rename_i fresh
    rw [if_neg fresh] at room
    split at idle
    · rename_i full
      rw [full] at room
      exact submit_room.mp full room
    · simp [State.setAccount] at idle

theorem Settled.withOwner {s : State} {owner : Owner} (settled : Settled s) :
    Settled { s with owner } := ⟨settled.ready, settled.synced⟩

theorem setIdentity_told {s : State} (inv : Inv s.ledger) (settled : Settled s) (told : AllTold s)
    (id : Nat) (cookie : Option Nat) (text : String) (now : Int) :
    (AllTold (setIdentity s id cookie text now).2 ↔ ¬ Breaks s (.setIdentity id cookie text now)) ∧
      Settled (setIdentity s id cookie text now).2 := by
  unfold setIdentity
  split
  · rename_i error refused
    refine ⟨iff_of_true told ?_, settled⟩
    rintro ⟨definition, account, checked, -⟩
    rw [refused] at checked
    cases checked
  · rename_i definition checked
    dsimp only
    have future : 0 ≤ now := by
      unfold checkIdentity at checked
      obtain ⟨_, -, checked⟩ := except_bind_ok.mp checked
      obtain ⟨_, -, checked⟩ := except_bind_ok.mp checked
      obtain ⟨_, -, checked⟩ := except_bind_ok.mp checked
      obtain ⟨present, -⟩ := except_guard_ok.mp checked
      omega
    split
    · rename_i account found
      split
      · rename_i wrote
        obtain ⟨room, rfl⟩ := write_ok wrote
        have touches := (accept_touches s id account definition.name text now).trans
          (save_touches (accept s id account definition.name text now) id account)
        refine ⟨?_, write_settled settled inv found⟩
        rw [touches.told inv found told, told_write (told id account found)]
        refine not_congr ⟨fun breaks => ⟨definition, account, checked, found, room, breaks⟩, ?_⟩
        rintro ⟨-, other, -, found', -, breaks⟩
        rw [found] at found'
        cases Option.some.inj found'
        exact breaks
      · rename_i refused
        have last := write_error refused future
        refine ⟨iff_of_true told ?_, settled⟩
        rintro ⟨-, other, -, found', room, -⟩
        rw [found] at found'
        cases Option.some.inj found'
        exact room last
    · rename_i missing
      have fine : ¬ Breaks s (.setIdentity id cookie text now) := by
        rintro ⟨-, account, -, found, -⟩
        rw [missing] at found
        cases found
      have clean := evict_inv inv
      have evicted := evict_settled settled.ready settled.synced
      have absent : id ∉ (evict s).accounts := by
        intro cached
        obtain ⟨account, found⟩ := Option.isSome_iff_exists.mp
          (Std.ExtTreeMap.isSome_getElem?_iff_mem.mpr cached)
        rw [((evict_lookup s id account).mp found).1] at missing
        cases missing
      split
      · exact ⟨iff_of_true (evict_told told) fine, evicted⟩
      · have opened := openAndLoad_inv clean absent
        have openedTold := openAndLoad_told clean absent (evict_told told)
        have found : (openAndLoad (evict s) id).accounts[id]? = some (evict s).accountCount := by
          rw [openAndLoad_accounts]
          exact Std.ExtTreeMap.getElem?_insert_self
        have openedSettled : Settled (openAndLoad (evict s) id) := by
          refine ⟨openAndLoad_ready clean evicted.ready, fun slot player here => ?_⟩
          rw [openAndLoad_accounts, Std.ExtTreeMap.mem_insert]
          have players : (openAndLoad (evict s) id).players = (evict s).players :=
            (load_accounts ((evict s).open id) id _).2.2
          rw [players] at here
          exact Or.inr (evicted.synced slot player here)
        split
        · rename_i wrote
          obtain ⟨room, rfl⟩ := write_ok wrote
          have touches := (accept_touches (openAndLoad (evict s) id) id (evict s).accountCount
            definition.name text now).trans
            (save_touches (accept _ id _ definition.name text now) id _)
          refine ⟨iff_of_true ?_ fine, write_settled openedSettled opened found⟩
          rw [touches.told opened found openedTold, told_write (openedTold _ _ found)]
          exact not_saveBreaks_opened (evict s) id
        · exact ⟨iff_of_true openedTold fine, openedSettled⟩

theorem completion_touches (s : State) (rest : List (Task × Outcome)) (account id : Nat)
    (outcome : Outcome) (batch : Values) :
    Touches s (loadCompletion { s with ready := rest } account id outcome) id account ∧
      Touches s (saveCompletion { s with ready := rest } account id batch outcome) id account := by
  constructor
  · exact ⟨rfl, fun _ differ => Function.update_of_ne differ _ _,
      fun _ differ => Function.update_of_ne differ _ _, fun _ _ => rfl⟩
  · exact ⟨rfl, fun _ differ => Function.update_of_ne differ _ _, fun _ _ => rfl,
      fun _ differ => Function.update_of_ne differ _ _⟩

theorem told_loadCompletion (s : State) (account id : Nat) (outcome : Outcome) :
    Told (loadCompletion s account id outcome) id account ↔
      match outcome with
      | .loaded _ => ¬ (s.ghost.saveFailed id = true ∧ (s.accountAt account).saving = false)
      | _ => message outcome ≠ "" := by
  cases outcome <;>
    simp [Told, loadCompletion, State.noteLoad, State.setAccount, message]

theorem told_saveCompletion (s : State) (account id : Nat) (batch : Values) (outcome : Outcome) :
    Told (saveCompletion s account id batch outcome) id account ↔
      match outcome with
      | .saved => ¬ (s.ghost.loadFailed id = true ∧ (s.accountAt account).loading = false)
      | _ => message outcome ≠ "" := by
  cases outcome <;>
    simp [Told, saveCompletion, State.noteSave, State.setAccount, message]

theorem loadCompletion_ready (s : State) (account id : Nat) (outcome : Outcome) :
    ((loadCompletion s account id outcome).accountAt account).state = .ready →
      (loadCompletion s account id outcome).ghost.loadFailed id = false := by
  cases outcome <;> simp [loadCompletion, State.noteLoad, State.setAccount]

theorem saveCompletion_state (s : State) (account id : Nat) (batch : Values) (outcome : Outcome) :
    ((saveCompletion s account id batch outcome).accountAt account).state =
        (s.accountAt account).state ∧
      (saveCompletion s account id batch outcome).ghost.loadFailed = s.ghost.loadFailed := by
  cases outcome <;> simp [saveCompletion, State.noteSave, State.setAccount]

/-- Jobs of the catalog leave the accounts alone. -/
theorem AllTold.of_ledger {s s' : State} (same : s'.ledger = s.ledger) (told : AllTold s) :
    AllTold s' :=
  told.of_eq (congrArg Ledger.accounts same) (congrArg Ledger.accountAt same)
    (congrArg (fun l => l.ghost.loadFailed) same) (congrArg (fun l => l.ghost.saveFailed) same)

theorem Settled.of_ledger {s s' : State} (same : s'.ledger = s.ledger) (settled : Settled s) :
    Settled s' :=
  settled.of_eq (congrArg Ledger.accounts same) (congrArg Ledger.accountAt same)
    (congrArg (fun l => l.ghost.loadFailed) same) (congrArg Ledger.players same)

theorem deliver_told {s : State} (inv : Inv s.ledger) (settled : Settled s) (told : AllTold s)
    {task : Task} {outcome : Outcome} {rest : List (Task × Outcome)}
    (ready : s.ready = (task, outcome) :: rest) :
    (AllTold (completion { s with ready := rest } task outcome) ↔ ¬ Breaks s .deliver) ∧
      Settled (completion { s with ready := rest } task outcome) := by
  have owned : ∀ {account id : Nat} {save : Bool}, task.owner = some (account, id, save) →
      s.accounts[id]? = some account := by
    intro account id save named
    refine inv.owned task (mem_ledger_jobs (by rw [named]; nofun) ?_) account id save named
    unfold State.jobs
    rw [ready]
    simp
  have skipped : task.owner = none → { s with ready := rest : State }.ledger = s.ledger := by
    intro catalog
    simp [State.ledger, ready, catalog]
  cases task with
  | catalog =>
      have same := (ledger_catalogCompletion { s with ready := rest } outcome).trans (skipped rfl)
      exact ⟨iff_of_true (told.of_ledger same) (by simp [Breaks, ready]), settled.of_ledger same⟩
  | register cookie definition =>
      have same :=
        (ledger_registerCompletion { s with ready := rest } cookie outcome).trans (skipped rfl)
      exact ⟨iff_of_true (told.of_ledger same) (by simp [Breaks, ready]), settled.of_ledger same⟩
  | load account id =>
      have found := owned rfl
      have touches := (completion_touches s rest account id outcome ∅).1
      constructor
      · refine (touches.told inv found told).trans ((told_loadCompletion _ _ _ _).trans ?_)
        cases outcome <;> simp [Breaks, ready]
      · exact settled.touch inv found touches rfl (loadCompletion_ready _ _ _ _)
  | save account id batch =>
      have found := owned rfl
      have touches := (completion_touches s rest account id outcome batch).2
      constructor
      · refine (touches.told inv found told).trans ((told_saveCompletion _ _ _ _ _).trans ?_)
        cases outcome <;> simp [Breaks, ready]
      · refine settled.touch inv found touches rfl ?_
        obtain ⟨state, loadFailed⟩ :=
          saveCompletion_state { s with ready := rest } account id batch outcome
        show ((saveCompletion { s with ready := rest } account id batch outcome).accountAt
          account).state = .ready → (saveCompletion { s with ready := rest } account id batch
            outcome).ghost.loadFailed id = false
        rw [state, loadFailed]
        exact settled.ready id account found

theorem set_told {s : State} (inv : Inv s.ledger) (settled : Settled s) (told : AllTold s)
    (player : Identity) (cookie : Option Nat) (text : String) (now : Int) :
    AllTold (attempt s (set s player cookie text now)) ∧
      Settled (attempt s (set s player cookie text now)) := by
  unfold attempt
  split
  · rename_i done
    unfold set at done
    obtain ⟨definition, -, done⟩ := except_bind_ok.mp done
    obtain ⟨-, -, done⟩ := except_bind_ok.mp done
    obtain ⟨account, here, done⟩ := except_bind_ok.mp done
    obtain ⟨ready, wrote⟩ := except_guard_ok.mp done
    have found := (current_ok here).2
    obtain ⟨-, rfl⟩ := write_ok wrote
    have touches := (accept_touches s player.account account definition.name text now).trans
      (save_touches (accept s player.account account definition.name text now) _ account)
    refine ⟨?_, write_settled settled inv found⟩
    rw [touches.told inv found told, told_write (told _ _ found)]
    rintro ⟨-, -, failed, -⟩
    rw [settled.ready player.account account found (not_not.mp ready)] at failed
    cases failed
  · exact ⟨told, settled⟩

theorem retryLoad_told {s : State} (inv : Inv s.ledger) (settled : Settled s) (told : AllTold s)
    (player : Identity) :
    (AllTold (attempt s (retryLoad s player)) ↔ ¬ Breaks s (.retryLoad player)) ∧
      Settled (attempt s (retryLoad s player)) := by
  unfold attempt
  split
  · rename_i done
    unfold retryLoad at done
    obtain ⟨account, here, done⟩ := except_bind_ok.mp done
    have found := (current_ok here).2
    split at done
    · rename_i failed
      cases Except.ok.inj done
      refine ⟨?_, load_settled settled inv found⟩
      rw [(load_touches s player.account account).told inv found told, told_load (told _ _ found)]
      refine not_congr ⟨fun breaks => ⟨account, here, failed, breaks⟩, ?_⟩
      rintro ⟨other, here', -, breaks⟩
      rw [here] at here'
      cases Except.ok.inj here'
      exact breaks
    · rename_i fine
      cases Except.ok.inj done
      refine ⟨iff_of_true told ?_, settled⟩
      rintro ⟨other, here', failed, -⟩
      rw [here] at here'
      cases Except.ok.inj here'
      exact fine failed
  · rename_i refused
    refine ⟨iff_of_true told ?_, settled⟩
    rintro ⟨account, here, failed, -⟩
    simp [retryLoad, here, failed, bind, Except.bind, pure, Except.pure] at refused

theorem refresh_told {s : State} (inv : Inv s.ledger) (settled : Settled s) (told : AllTold s)
    (player : Identity) :
    (AllTold (attempt s (refresh s player)) ↔ ¬ Breaks s (.refresh player)) ∧
      Settled (attempt s (refresh s player)) := by
  unfold attempt
  split
  · rename_i done
    unfold refresh at done
    obtain ⟨account, here, done⟩ := except_bind_ok.mp done
    have found := (current_ok here).2
    obtain ⟨idle, done⟩ := except_guard_ok.mp done
    cases Except.ok.inj done
    simp only [not_or, Bool.not_eq_true, Bool.not_eq_false'] at idle
    refine ⟨?_, load_settled settled inv found⟩
    rw [(load_touches s player.account account).told inv found told, told_load (told _ _ found)]
    refine not_congr ⟨fun breaks => ⟨account, here, idle.2.1, idle.2.2, breaks⟩, ?_⟩
    rintro ⟨other, here', -, -, breaks⟩
    rw [here] at here'
    cases Except.ok.inj here'
    exact breaks
  · rename_i refused
    refine ⟨iff_of_true told ?_, settled⟩
    rintro ⟨account, here, saving, clean, -, loading, -⟩
    simp [refresh, here, saving, clean, loading, bind, Except.bind, pure, Except.pure] at refused

theorem saveStep_told {s : State} (inv : Inv s.ledger) (settled : Settled s) (told : AllTold s)
    {id account : Nat} (found : s.accounts[id]? = some account) :
    (AllTold (save s id account) ↔ ¬ ((s.accountAt account).writeFailed = false ∧
        (s.accountAt account).dirty.isEmpty = false ∧ SaveBreaks s id account)) ∧
      Settled (save s id account) :=
  ⟨((save_touches s id account).told inv found told).trans (told_save (told id account found)),
    save_settled settled inv found⟩

theorem saveNext_told {s s' : State} (inv : Inv s.ledger) (settled : Settled s) (told : AllTold s)
    (stepped : ownerStep s .saveNext = some s') :
    (AllTold s' ↔ ¬ Breaks s .saveNext) ∧ Settled s' := by
  dsimp only [ownerStep] at stepped
  split at stepped
  · rename_i id rest stopping saving
    cases stepped
    split
    · rename_i account found
      have step := saveStep_told (s := { s with owner := .saving rest stopping }) inv
        (Settled.of_eq (s := s) rfl rfl rfl rfl settled) (told.of_eq rfl rfl rfl rfl) found
      refine ⟨step.1.trans (not_congr ?_), step.2⟩
      constructor
      · rintro ⟨fine, dirty, breaks⟩
        exact ⟨id, rest, stopping, account, saving, found, fine, dirty, breaks⟩
      · rintro ⟨id', rest', stopping', other, saving', found', fine, dirty, breaks⟩
        rw [saving] at saving'
        cases saving'
        change s.accounts[id]? = some account at found
        rw [found] at found'
        cases Option.some.inj found'
        exact ⟨fine, dirty, breaks⟩
    · rename_i missing
      refine ⟨iff_of_true (told.of_eq rfl rfl rfl rfl) ?_, Settled.of_eq (s := s) rfl rfl rfl rfl settled⟩
      rintro ⟨id', rest', stopping', other, saving', found', -⟩
      rw [saving] at saving'
      cases saving'
      change s.accounts[id]? = none at missing
      rw [missing] at found'
      cases found'
  · cases stepped

theorem retryNext_told {s s' : State} (inv : Inv s.ledger) (settled : Settled s) (told : AllTold s)
    (stepped : ownerStep s .retryNext = some s') :
    (AllTold s' ↔ ¬ Breaks s .retryNext) ∧ Settled s' := by
  dsimp only [ownerStep] at stepped
  split at stepped
  · rename_i id rest retrying
    cases stepped
    split
    · rename_i account found
      change s.accounts[id]? = some account at found
      obtain ⟨t, same⟩ : ∃ t : State, t = State.setAccount { s with owner := .retrying rest } account
          fun a => { a with writeFailed := false } := ⟨_, rfl⟩
      have touches : Touches s t id account := by
        rw [same]
        exact ⟨rfl, fun _ differ => Function.update_of_ne differ _ _, fun _ _ => rfl,
          fun _ _ => rfl⟩
      have cleared : t.accountAt account = { s.accountAt account with writeFailed := false } := by
        rw [same]
        exact Function.update_self ..
      have ghost : t.ghost = s.ghost := by rw [same]; rfl
      have pending : t.pending = s.pending := by rw [same]; rfl
      have later : Inv t.ledger := by
        rw [same]
        exact inv.touch (a := { s.accountAt account with writeFailed := false })
          ⟨rfl, rfl, rfl, rfl, rfl⟩
      have ready : Settled t := settled.touch inv found touches (by rw [same]; rfl) (by
        rw [cleared, ghost]
        exact settled.ready id account found)
      have right : AllTold t := (touches.told inv found told).mpr (by
        unfold Told
        rw [cleared, ghost]
        exact told id account found)
      have step := saveStep_told later ready right (touches.accounts ▸ found)
      unfold retryOne
      rw [← same]
      refine ⟨step.1.trans (not_congr ?_), step.2⟩
      unfold SaveBreaks
      rw [cleared, ghost, pending]
      constructor
      · rintro ⟨-, dirty, breaks⟩
        exact ⟨id, rest, account, retrying, found, dirty, breaks⟩
      · rintro ⟨id', rest', other, retrying', found', dirty, breaks⟩
        rw [retrying] at retrying'
        cases retrying'
        rw [found] at found'
        cases Option.some.inj found'
        exact ⟨rfl, dirty, breaks⟩
    · rename_i missing
      refine ⟨iff_of_true (told.of_eq rfl rfl rfl rfl) ?_, Settled.of_eq (s := s) rfl rfl rfl rfl settled⟩
      rintro ⟨id', rest', other, retrying', found', -⟩
      rw [retrying] at retrying'
      cases retrying'
      change s.accounts[id]? = none at missing
      rw [missing] at found'
      cases found'
  · cases stepped

theorem ownerStep_told {s s' : State} {label : Label} (inv : Inv s.ledger) (settled : Settled s)
    (told : AllTold s) (stepped : ownerStep s label = some s') :
    (AllTold s' ↔ ¬ Breaks s label) ∧ Settled s' := by
  cases label
  case saveNext => exact saveNext_told inv settled told stepped
  case retryNext => exact retryNext_told inv settled told stepped
  all_goals dsimp only [ownerStep] at stepped
  case take | finish => cases stepped
  case retryCatalog =>
      split at stepped <;> cases stepped
      unfold retryCatalog
      split
      · have same := ledger_loadCatalog { s with catalogState := .loading, catalogError := "" }
        exact ⟨iff_of_true (AllTold.of_ledger (s := s) same told) not_false,
          Settled.of_ledger (s := s) same settled⟩
      · exact ⟨iff_of_true told not_false, settled⟩
  case register definition =>
      split at stepped <;> cases stepped
      unfold attempt
      split
      · rename_i done
        exact ⟨iff_of_true (told.of_ledger (ledger_register done)) not_false,
          settled.of_ledger (ledger_register done)⟩
      · exact ⟨iff_of_true told not_false, settled⟩
  case sync players =>
      split at stepped <;> cases stepped
      unfold attempt
      split
      · rename_i done
        obtain ⟨told', settled'⟩ := sync_told inv settled told done
        exact ⟨iff_of_true told' not_false, settled'⟩
      · exact ⟨iff_of_true told not_false, settled⟩
  case set player cookie text now =>
      split at stepped <;> cases stepped
      obtain ⟨told', settled'⟩ := set_told inv settled told player cookie text now
      exact ⟨iff_of_true told' not_false, settled'⟩
  case setIdentity id cookie text now =>
      split at stepped <;> cases stepped
      exact setIdentity_told inv settled told id cookie text now
  case retryLoad player =>
      split at stepped <;> cases stepped
      exact retryLoad_told inv settled told player
  case refresh player =>
      split at stepped <;> cases stepped
      exact refresh_told inv settled told player
  case deliver =>
      split at stepped
      · rename_i ready
        cases stepped
        obtain ⟨exact_, settled'⟩ := deliver_told inv settled told ready
        refine ⟨Iff.trans ⟨?_, ?_⟩ exact_, settled'.withOwner⟩
        · exact AllTold.of_eq rfl rfl rfl rfl
        · exact AllTold.of_eq rfl rfl rfl rfl
      · cases stepped
  case evict answer =>
      obtain ⟨stopping, -, rfl, -⟩ := evict_step stepped
      exact ⟨iff_of_true ((evict_told told).of_eq rfl rfl rfl rfl) not_false,
        (evict_settled settled.ready settled.synced).withOwner⟩
  case pump | delivered | saved | retryWrites | retried =>
      split at stepped <;> cases stepped
      exact ⟨iff_of_true (told.of_eq rfl rfl rfl rfl) not_false, Settled.of_eq (s := s) rfl rfl rfl rfl settled⟩

theorem finish_same {s s' : State} {outcome : Outcome} {landed : Bool}
    (finished : finish s outcome landed = some s') :
    s'.accounts = s.accounts ∧ s'.accountAt = s.accountAt ∧
      s'.ghost.loadFailed = s.ghost.loadFailed ∧ s'.ghost.saveFailed = s.ghost.saveFailed ∧
      s'.players = s.players := by
  unfold finish at finished
  dsimp only at finished
  repeat' split at finished
  all_goals cases finished
  all_goals exact ⟨rfl, rfl, rfl, rfl, rfl⟩

/-- From a truthful state exactly the breaking steps lead to one that is not. -/
theorem next_told {s s' : State} {label : Label} (inv : Inv s.ledger) (settled : Settled s)
    (told : AllTold s) (stepped : next s label = some s') :
    (AllTold s' ↔ ¬ Breaks s label) ∧ Settled s' := by
  unfold next at stepped
  split at stepped
  · unfold take at stepped
    split at stepped <;> cases stepped
    exact ⟨iff_of_true (told.of_eq rfl rfl rfl rfl) not_false, Settled.of_eq (s := s) rfl rfl rfl rfl settled⟩
  · obtain ⟨accounts, accountAt, loadFailed, saveFailed, players⟩ := finish_same stepped
    exact ⟨iff_of_true (told.of_eq accounts accountAt loadFailed saveFailed) not_false,
      settled.of_eq accounts accountAt loadFailed players⟩
  · exact ownerStep_told inv settled told stepped

/-! ## Runs -/

/-- Every state a run goes through is truthful. -/
def RunTruthful (history : List Label) : Prop :=
  ∀ before after s, history = before ++ after → run next init before = some s → Truthful s

/-- No step of a run breaks the text. -/
def NeverBreaks (history : List Label) : Prop :=
  ∀ before label after s, history = before ++ label :: after →
    run next init before = some s → ¬ Breaks s label

theorem init_told : AllTold init ∧ Settled init := by
  have same : init.ledger = ({} : State).ledger := ledger_loadCatalog {}
  refine ⟨AllTold.of_ledger same ?_, Settled.of_ledger same ⟨?_, ?_⟩⟩
  · intro id account found
    simp at found
  · intro id account found
    simp at found
  · intro slot player here
    simp at here

theorem neverBreaks_told : ∀ {history : List Label} {s : State},
    run next init history = some s → NeverBreaks history → AllTold s ∧ Settled s := by
  intro history
  induction history using List.reverseRecOn with
  | nil =>
      intro s ran _
      cases Option.some.inj ran
      exact init_told
  | append_singleton history label ih =>
      intro s ran never
      obtain ⟨middle, before, stepped⟩ := run_concat ran
      obtain ⟨told, settled⟩ := ih before fun first label' after t split =>
        never first label' (after ++ [label]) t (by rw [split]; simp)
      obtain ⟨exact_, settled'⟩ := next_told (run_inv before) settled told stepped
      exact ⟨exact_.mpr (never history label [] middle rfl before), settled'⟩

theorem runTruthful_never : ∀ {history : List Label} {s : State},
    run next init history = some s → RunTruthful history → NeverBreaks history ∧ Settled s := by
  intro history
  induction history using List.reverseRecOn with
  | nil =>
      intro s ran _
      cases Option.some.inj ran
      refine ⟨?_, init_told.2⟩
      intro before label after t split
      simp at split
  | append_singleton history label ih =>
      intro s ran truthful
      obtain ⟨middle, before, stepped⟩ := run_concat ran
      have inv := run_inv before
      obtain ⟨never, settled⟩ := ih before fun first after t split =>
        truthful first (after ++ [label]) t (by rw [split]; simp)
      have told : AllTold middle := (truthful_iff inv).mp (truthful history [label] middle rfl before)
      have told' : AllTold s :=
        (truthful_iff (run_inv ran)).mp (truthful (history ++ [label]) [] s (by simp) ran)
      obtain ⟨exact_, settled'⟩ := next_told inv settled told stepped
      refine ⟨?_, settled'⟩
      intro first label' after t split reached
      rcases concat_split split with ⟨-, rfl, rfl⟩ | ⟨rest, -, same⟩
      · rw [before] at reached
        cases Option.some.inj reached
        exact exact_.mp told'
      · exact never first label' rest t same reached

/-- What the players' requests are told in a state. -/
structure ToldRight (s : State) (player : Identity) : Prop where
  text : ∃ text, errorText s player = .ok text ∧
    (text ≠ "" ↔ LoadStands s player.account ∨ SaveStands s player.account)
  answer : ∀ kind, ∃ answer, complete s kind player = .ok answer ∧
    (answer = none → ¬ (LoadStands s player.account ∨ SaveStands s player.account)) ∧
    ∀ text, answer = some text → text ≠ "" →
      LoadStands s player.account ∨ SaveStands s player.account

theorem Truthful.toldRight {s : State} (truthful : Truthful s)
    (synced : ∀ (slot : Int) (player : Identity), s.players[slot]? = some player →
      player.account ∈ s.accounts) {player : Identity}
    (here : s.players[player.slot]? = some player) : ToldRight s player := by
  obtain ⟨account, found⟩ := Option.isSome_iff_exists.mp
    (Std.ExtTreeMap.isSome_getElem?_iff_mem.mpr (synced _ _ here))
  have now : current s player = .ok account := by
    unfold current
    rw [if_pos here, found]
    rfl
  have right := truthful player.account account found
  have text : errorText s player = .ok (s.accountAt account).error := by
    unfold errorText
    rw [now]
    rfl
  refine ⟨⟨_, text, right⟩, fun kind => ?_⟩
  obtain ⟨ready, isReady⟩ : ∃ ready, fulfilled s player kind = .ok ready := by
    cases kind with
    | cache => exact ⟨_, by unfold fulfilled status; rw [now]; rfl⟩
    | save => exact ⟨_, by unfold fulfilled persisted; rw [now]; rfl⟩
  refine ⟨_, by unfold complete; rw [isReady, text]; rfl, ?_, ?_⟩
  · intro waiting
    split at waiting
    · rename_i quiet
      rw [← right]
      simp only [Bool.and_eq_true, decide_eq_true_eq] at quiet
      exact fun told => told quiet.2
    · cases waiting
  · intro answer answered filled
    split at answered
    · cases answered
    · cases Option.some.inj answered
      exact right.mp filled

/-- A run goes through truthful states only exactly when none of its steps breaks
the text, and then every player's requests are told the truth. -/
theorem errorText_exact (history : List Label) (s : State)
    (ran : run next init history = some s) :
    (RunTruthful history ↔ NeverBreaks history) ∧
      (NeverBreaks history → ∀ player : Identity, s.players[player.slot]? = some player →
        ToldRight s player) := by
  refine ⟨⟨fun truthful => (runTruthful_never ran truthful).1, fun never => ?_⟩, ?_⟩
  · intro before after t split reached
    refine (truthful_iff (run_inv reached)).mpr (neverBreaks_told reached ?_).1
    intro first label rest u splits
    exact never first label (rest ++ after) u (by rw [split, splits]; simp)
  · intro never player here
    obtain ⟨told, settled⟩ := neverBreaks_told ran never
    exact ((truthful_iff (run_inv ran)).mpr told).toldRight settled.synced here

def failedRun : List Label :=
  [.register music, .sync [first]] ++
    worked (.catalog []) ++ worked .registered ++ worked (.failed "disk") ++ pumped 3 1

theorem errorText_exact_failed : ∃ s, run next init failedRun = some s ∧
    (RunTruthful failedRun ↔ NeverBreaks failedRun) ∧
      (NeverBreaks failedRun → ∀ player : Identity, s.players[player.slot]? = some player →
        ToldRight s player) := by
  obtain ⟨s, ran⟩ := Option.isSome_iff_exists.mp
    (by decide +kernel : (run next init failedRun).isSome = true)
  exact ⟨s, ran, errorText_exact failedRun s ran⟩

/-- The load has failed; a script then writes the account's preference. -/
def clearedRun : List Label := failedRun ++ [.setIdentity first.account (some 0) "on" 3]

/-- The queued save has cleared the text: whoever waits for the cache waits on. -/
theorem errorText_cleared : ∃ s, run next init clearedRun = some s ∧
    s.players[first.slot]? = some first ∧ LoadStands s first.account ∧
      errorText s first = .ok "" ∧ complete s .cache first = .ok none ∧ ¬ ToldRight s first := by
  have seen : ((run next init clearedRun).map fun s =>
      decide (s.players[first.slot]? = some first) && decide (s.accounts[first.account]? = some 0) &&
        s.ghost.loadFailed first.account && !(s.accountAt 0).loading &&
        decide ((s.accountAt 0).error = "") && decide ((s.accountAt 0).state = .failed)) =
      some true := by decide +kernel
  obtain ⟨s, ran, facts⟩ := Option.map_eq_some_iff.mp seen
  simp only [Bool.and_eq_true, decide_eq_true_eq, Bool.not_eq_true'] at facts
  obtain ⟨⟨⟨⟨⟨here, found⟩, failed⟩, idle⟩, quiet⟩, state⟩ := facts
  have stands := (loadStands_iff (run_inv ran) found).mpr ⟨failed, idle⟩
  have now : current s first = .ok 0 := by
    unfold current
    rw [if_pos here, found]
    rfl
  have text : errorText s first = .ok "" := by
    unfold errorText
    rw [now, ← quiet]
    rfl
  have waits : complete s .cache first = .ok none := by
    unfold complete fulfilled status
    rw [now, text]
    simp [bind, Except.bind, pure, Except.pure, Functor.map, Except.map, state]
  refine ⟨s, ran, here, stands, text, waits, fun right => ?_⟩
  obtain ⟨answer, answered, silent, -⟩ := right.answer .cache
  rw [waits] at answered
  cases Except.ok.inj answered
  exact silent rfl (Or.inl stands)

end Source2Root.Prefs
