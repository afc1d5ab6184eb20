import Mathlib
import Source2Root.Transition
import Source2Root.Prefs
import Source2Root.PrefsLedger

/-!
# No accepted preference is lost

Every step of the owner thread or the worker keeps the ledger's invariant, so
after any run the latest accepted write of a cookie is dirty in a cached account
or durable, and nothing older is saved after it.
-/

set_option autoImplicit false

namespace Source2Root.Prefs

open Transition

/-! ## The operations and the ledger -/

theorem submit_some {s s' : State} {task : Task} (submitted : submit s task = some s') :
    s.pending < queueCapacity ∧ s' = { s with waiting := s.waiting ++ [task] } := by
  unfold submit at submitted
  split at submitted
  · rename_i room
    exact ⟨room, (Option.some.inj submitted).symm⟩
  · cases submitted

theorem ledger_owned (s : State) {task : Task} (owned : task.owner.isSome = true) :
    { s with waiting := s.waiting ++ [task] : State }.ledger =
      { s.ledger with flying := s.ledger.flying ++ [task] } := by
  simp [State.ledger, owned]

theorem ledger_catalog (s : State) {task : Task} (catalog : task.owner = none) :
    { s with waiting := s.waiting ++ [task] : State }.ledger = s.ledger := by
  simp [State.ledger, catalog]

theorem ledger_setAccount (s : State) (account : Nat) (f : Account → Account) :
    (s.setAccount account f).ledger = s.ledger.set account (f (s.accountAt account)) := rfl

/-- A note on the last load touches nothing the ledger looks at. -/
theorem Inv.noteLoad {l : Ledger} (inv : Inv l) (loadFailed : Nat → Bool) :
    Inv { l with ghost.loadFailed := loadFailed } := { inv with }

/-- Nor does it look at the connections. -/
theorem Inv.sync {l : Ledger} (inv : Inv l) (players : Std.ExtTreeMap Int Identity) :
    Inv { l with players } := { inv with }

theorem load_inv {s : State} (inv : Inv s.ledger) {id account : Nat}
    (found : s.accounts[id]? = some account) : Inv (load s id account).ledger := by
  unfold load
  split
  · exact inv
  · rename_i idle
    split
    · exact (inv.touch (a := { s.accountAt account with
        state := .failed, error := "Client preferences worker queue is full." })
        ⟨rfl, rfl, rfl, rfl, rfl⟩).noteLoad _
    · rename_i submitted
      rw [(submit_some submitted).2, ledger_setAccount, ledger_owned s rfl]
      exact inv.launch_load (a := { s.accountAt account with
        loading := true, state := .loading }) found (Bool.not_eq_true _ ▸ idle)
        ⟨rfl, rfl, rfl, rfl, rfl⟩

theorem save_inv {s : State} (inv : Inv s.ledger) {id account : Nat}
    (found : s.accounts[id]? = some account) : Inv (save s id account).ledger := by
  unfold save
  dsimp only
  split
  · exact inv
  · rename_i due
    simp only [Bool.or_eq_true, not_or, Bool.not_eq_true] at due
    split
    · exact inv
    · rename_i submitted
      rw [(submit_some submitted).2, ledger_setAccount, ledger_owned s rfl]
      exact inv.launch_save (a := { s.accountAt account with
        saving := true, error := "", writeError := "" }) found due.1.1 due.2
        ⟨rfl, rfl, rfl, rfl, rfl⟩

theorem load_accounts (s : State) (id account : Nat) :
    (load s id account).accounts = s.accounts ∧
      (load s id account).accountCount = s.accountCount ∧
      (load s id account).players = s.players := by
  unfold load
  split
  · exact ⟨rfl, rfl, rfl⟩
  · split
    · exact ⟨rfl, rfl, rfl⟩
    · rename_i submitted
      rw [(submit_some submitted).2]
      exact ⟨rfl, rfl, rfl⟩

theorem save_accounts (s : State) (id account : Nat) :
    (save s id account).accounts = s.accounts ∧ (save s id account).players = s.players := by
  unfold save
  dsimp only
  split
  · exact ⟨rfl, rfl⟩
  · split
    · exact ⟨rfl, rfl⟩
    · rename_i submitted
      rw [(submit_some submitted).2]
      exact ⟨rfl, rfl⟩

theorem openAndLoad_accounts (s : State) (id : Nat) :
    (openAndLoad s id).accounts = s.accounts.insert id s.accountCount :=
  (load_accounts (s.open id) id s.accountCount).1

theorem openAndLoad_inv {s : State} (inv : Inv s.ledger) {id : Nat} (missing : id ∉ s.accounts) :
    Inv (openAndLoad s id).ledger :=
  load_inv (s := s.open id) (inv.opened missing) (by simp [State.open])

theorem openAll_inv {missing : List Nat} : ∀ {s : State}, Inv s.ledger → missing.Nodup →
    (∀ id ∈ missing, id ∉ s.accounts) → Inv (missing.foldl openAndLoad s).ledger := by
  induction missing with
  | nil => exact fun inv _ _ => inv
  | cons id rest ih =>
      intro s inv distinct new
      obtain ⟨first, distinct⟩ := List.nodup_cons.mp distinct
      refine ih (openAndLoad_inv inv (new id List.mem_cons_self)) distinct ?_
      intro other member
      rw [openAndLoad_accounts, Std.ExtTreeMap.mem_insert, compare_eq_iff_eq, not_or]
      refine ⟨?_, new other (List.mem_cons_of_mem _ member)⟩
      rintro rfl
      exact first member

/-- What `Evict` keeps. -/
theorem evict_lookup (s : State) (id account : Nat) :
    (evict s).accounts[id]? = some account ↔ s.accounts[id]? = some account ∧
      (id ∈ s.activeAccounts ∨ (s.accountAt account).loading = true ∨
        (s.accountAt account).saving = true ∨ (s.accountAt account).dirty.isEmpty = false) := by
  unfold evict
  rw [Std.ExtTreeMap.getElem?_filter', Option.filter_eq_some_iff]
  simp only [Bool.not_eq_true', Bool.and_eq_false_iff, Bool.not_eq_false', and_congr_right_iff,
    List.contains_iff_mem]
  intro _
  tauto

theorem evict_inv {s : State} (inv : Inv s.ledger) : Inv (evict s).ledger := by
  refine inv.evict (fun id account =>
    let a := s.accountAt account
    !(!s.activeAccounts.contains id && !a.loading && !a.saving && a.dirty.isEmpty)) ?_
  intro id account _ dropped
  simp only [Bool.not_eq_false', Bool.and_eq_true, Bool.not_eq_true'] at dropped
  exact ⟨dropped.1.1.2, dropped.1.2, dropped.2⟩

theorem write_inv {s s' : State} (inv : Inv s.ledger) {id account : Nat} {name text : String}
    {now : Int} (found : s.accounts[id]? = some account)
    (wrote : write s id account name text now = .ok s') : Inv s'.ledger := by
  unfold write at wrote
  split at wrote
  · cases wrote
  · cases Except.ok.inj wrote
    refine save_inv (s := accept s id account name text now) ?_ found
    exact inv.accept found rfl ⟨rfl, rfl, rfl, rfl, rfl⟩

theorem except_bind_ok {α β : Type} {x : Except String α} {f : α → Except String β} {b : β} :
    (x >>= f) = .ok b ↔ ∃ a, x = .ok a ∧ f a = .ok b := by
  cases x with
  | error e => simp [bind, Except.bind]
  | ok a => simp [bind, Except.bind]

/-- `if (refused) throw Error(error);` and what follows. -/
theorem except_guard_ok {β : Type} {refused : Prop} [Decidable refused] {error : String}
    {f : Unit → Except String β} {b : β} :
    (if refused then throw error >>= f else f ()) = .ok b ↔ ¬ refused ∧ f () = .ok b := by
  split
  · rename_i bad
    simp [bad, throw, throwThe, MonadExceptOf.throw, bind, Except.bind]
  · rename_i fine
    simp [fine]

theorem current_ok {s : State} {player : Identity} {account : Nat}
    (here : current s player = .ok account) :
    s.players[player.slot]? = some player ∧ s.accounts[player.account]? = some account := by
  unfold current at here
  split at here
  · rename_i same
    split at here
    · rename_i found
      cases Except.ok.inj here
      exact ⟨same, found⟩
    · cases here
  · cases here

theorem set_inv {s s' : State} (inv : Inv s.ledger) {player : Identity} {cookie : Option Nat}
    {text : String} {now : Int} (done : set s player cookie text now = .ok s') :
    Inv s'.ledger := by
  unfold set at done
  obtain ⟨definition, -, done⟩ := except_bind_ok.mp done
  obtain ⟨-, -, done⟩ := except_bind_ok.mp done
  obtain ⟨account, here, done⟩ := except_bind_ok.mp done
  obtain ⟨-, wrote⟩ := except_guard_ok.mp done
  exact write_inv inv (current_ok here).2 wrote

theorem setIdentity_inv {s : State} (inv : Inv s.ledger) (id : Nat) (cookie : Option Nat)
    (text : String) (now : Int) : Inv (setIdentity s id cookie text now).2.ledger := by
  unfold setIdentity
  dsimp only
  split
  · exact inv
  · split
    · rename_i account found
      split
      · rename_i wrote
        exact write_inv inv found wrote
      · exact inv
    · rename_i missing
      have clean := evict_inv inv
      have absent : id ∉ (evict s).accounts := by
        intro cached
        obtain ⟨account, found⟩ := Option.isSome_iff_exists.mp
          (Std.ExtTreeMap.isSome_getElem?_iff_mem.mpr cached)
        rw [((evict_lookup s id account).mp found).1] at missing
        cases missing
      split
      · exact clean
      · have opened := openAndLoad_inv clean absent
        have found : (openAndLoad (evict s) id).accounts[id]? = some (evict s).accountCount := by
          rw [openAndLoad_accounts]
          exact Std.ExtTreeMap.getElem?_insert_self
        split
        · rename_i wrote
          exact write_inv opened found wrote
        · exact opened

theorem retryLoad_inv {s s' : State} (inv : Inv s.ledger) {player : Identity}
    (done : retryLoad s player = .ok s') : Inv s'.ledger := by
  unfold retryLoad at done
  obtain ⟨account, here, done⟩ := except_bind_ok.mp done
  split at done
  · cases Except.ok.inj done
    exact load_inv inv (current_ok here).2
  · cases Except.ok.inj done
    exact inv

theorem refresh_inv {s s' : State} (inv : Inv s.ledger) {player : Identity}
    (done : refresh s player = .ok s') : Inv s'.ledger := by
  unfold refresh at done
  obtain ⟨account, here, done⟩ := except_bind_ok.mp done
  obtain ⟨-, done⟩ := except_guard_ok.mp done
  cases Except.ok.inj done
  exact load_inv inv (current_ok here).2

/-- The loop over a snapshot collects the accounts that are not cached. -/
theorem snapshot_ok {s : State} : ∀ {players : List Identity}
    {next next' : Std.ExtTreeMap Int Identity} {missing missing' : Std.ExtTreeSet Nat},
    snapshot s next missing players = .ok (next', missing') →
    (∀ id ∈ missing, id ∉ s.accounts) →
    (∀ (slot : Int) (player : Identity), next[slot]? = some player →
      player.account ∈ s.accounts ∨ player.account ∈ missing) →
    (∀ id ∈ missing', id ∉ s.accounts) ∧
      ∀ (slot : Int) (player : Identity), next'[slot]? = some player →
        player.account ∈ s.accounts ∨ player.account ∈ missing' := by
  intro players
  induction players with
  | nil =>
      intro next next' missing missing' done new covered
      cases Except.ok.inj done
      exact ⟨new, covered⟩
  | cons player rest ih =>
      intro next next' missing missing' done new covered
      unfold snapshot at done
      obtain ⟨-, -, done⟩ := except_bind_ok.mp done
      obtain ⟨-, done⟩ := except_guard_ok.mp done
      refine ih done ?_ ?_
      · intro id member
        split at member
        · exact new id member
        · rename_i absent
          rcases Std.ExtTreeSet.mem_insert.mp member with same | old
          · rw [← compare_eq_iff_eq.mp same]
            exact absent
          · exact new id old
      · intro slot other here
        simp only [Std.ExtTreeMap.getElem?_insert] at here
        split at here
        · cases Option.some.inj here
          split
          · rename_i cached
            exact Or.inl cached
          · exact Or.inr Std.ExtTreeSet.mem_insert_self
        · rcases covered slot other here with cached | collected
          · exact Or.inl cached
          · right
            split
            · exact collected
            · exact Std.ExtTreeSet.mem_insert.mpr (Or.inr collected)

theorem toList_nodup (ids : Std.ExtTreeSet Nat) : ids.toList.Nodup :=
  (Std.ExtTreeSet.distinct_toList (t := ids)).imp fun differ => by simpa using differ

theorem sync_inv {s s' : State} (inv : Inv s.ledger) {players : List Identity}
    (done : sync s players = .ok s') : Inv s'.ledger := by
  unfold sync at done
  obtain ⟨-, done⟩ := except_guard_ok.mp done
  obtain ⟨⟨next, missing⟩, taken, done⟩ := except_bind_ok.mp done
  obtain ⟨-, done⟩ := except_guard_ok.mp done
  cases Except.ok.inj done
  obtain ⟨new, -⟩ := snapshot_ok taken (by simp) (by simp)
  refine evict_inv (openAll_inv (s := { s with players := next }) (inv.sync next)
    (toList_nodup missing) ?_)
  intro id member
  exact new id (Std.ExtTreeSet.mem_toList.mp member)

/-! ## Completions -/

theorem merge_other {entries : List (String × Value)} {name : String}
    (absent : ∀ entry ∈ entries, entry.1 ≠ name) : ∀ values : Values,
    (entries.foldl (fun values (name, value) => values.insert name value) values)[name]? =
      values[name]? := by
  induction entries with
  | nil => exact fun _ => rfl
  | cons entry rest ih =>
      intro values
      rw [List.foldl_cons, ih fun other member => absent other (List.mem_cons_of_mem _ member)]
      rw [Std.ExtTreeMap.getElem?_insert, if_neg]
      rw [compare_eq_iff_eq]
      exact absent entry List.mem_cons_self

theorem merge_entry {entries : List (String × Value)} {name : String} {v : Value}
    (distinct : entries.Pairwise fun x y => x.1 ≠ y.1) (member : (name, v) ∈ entries) :
    ∀ values : Values,
    (entries.foldl (fun values (name, value) => values.insert name value) values)[name]? =
      some v := by
  induction entries with
  | nil => cases member
  | cons entry rest ih =>
      intro values
      obtain ⟨first, distinct⟩ := List.pairwise_cons.mp distinct
      rw [List.foldl_cons]
      rcases List.mem_cons.mp member with rfl | later
      · rw [merge_other fun other member => (first other member).symm]
        exact Std.ExtTreeMap.getElem?_insert_self
      · exact ih distinct later _

/-- The dirty overlay wins over what was loaded. -/
theorem merge_dirty (values dirty : Values) (name : String) (v : Value)
    (held : dirty[name]? = some v) : (merge values dirty)[name]? = some v := by
  refine merge_entry ?_ (Std.ExtTreeMap.mem_toList_iff_getElem?_eq_some.mpr held) values
  exact (Std.ExtTreeMap.distinct_keys_toList (t := dirty)).imp fun differ same =>
    differ (compare_eq_iff_eq.mpr same)

theorem settle_some {dirty batch : Values} {name : String} {v : Value} :
    (settle dirty batch)[name]? = some v ↔ dirty[name]? = some v ∧
      ∀ w : Value, batch[name]? = some w → w.revision ≠ v.revision := by
  unfold settle
  rw [Std.ExtTreeMap.getElem?_filter', Option.filter_eq_some_iff]
  cases batch[name]? with
  | none => simp
  | some w => simp

theorem values_filled {values : Values} :
    values.isEmpty = false ↔ ∃ (name : String) (v : Value), values[name]? = some v := by
  rw [← Std.ExtTreeMap.isEmpty_toList, List.isEmpty_eq_false_iff_exists_mem]
  simp [Std.ExtTreeMap.mem_toList_iff_getElem?_eq_some]

/-- The job being delivered was the only one of its kind. -/
theorem Inv.only {l : Ledger} (inv : Inv l) {task : Task} {outcome : Outcome}
    {rest : List (Task × Outcome)} (done : l.done = (task, outcome) :: rest) :
    ∀ other ∈ rest.map Prod.fst ++ l.flying, task.owner ≠ none → other.owner ≠ task.owner := by
  intro other member owned same
  obtain ⟨owner, named⟩ := Option.ne_none_iff_exists'.mp owned
  have alone := inv.alone
  have jobs : l.jobs = task :: (rest.map Prod.fst ++ l.flying) := by
    unfold Ledger.jobs
    rw [done]
    rfl
  rw [jobs, List.filterMap_cons_some named, List.nodup_cons] at alone
  exact alone.1 (List.mem_filterMap.mpr ⟨other, member, same.trans named⟩)

theorem mem_jobs_of_rest {l : Ledger} {job : Task × Outcome} {rest : List (Task × Outcome)}
    (done : l.done = job :: rest) {task : Task} :
    task ∈ l.jobs ↔ task = job.1 ∨ task ∈ rest.map Prod.fst ++ l.flying := by
  unfold Ledger.jobs
  rw [done, List.map_cons, List.cons_append, List.mem_cons]

/-- A load has ended: nothing of it is left but the values. -/
theorem Inv.loadDone {l : Ledger} (inv : Inv l) {account id : Nat} {outcome : Outcome}
    {rest : List (Task × Outcome)} (done : l.done = (.load account id, outcome) :: rest)
    {a : Account} (same : Account.Same { l.accountAt account with
      loading := false, values := a.values } a)
    (overlay : ∀ (name : String) (v : Value),
      (l.accountAt account).dirty[name]? = some v → a.values[name]? = some v)
    (loadFailed : Nat → Bool) :
    Inv { l.set account a with done := rest, ghost.loadFailed := loadFailed } := by
  refine inv.deliver done rfl rfl rfl ?_ ?_ (fun _ _ => rfl) ?_
  · intro found
    have old := inv.cached id account found
    have only := inv.only done
    refine Cached.of_same ?_ same
    refine {
      old with
      loading := iff_of_false Bool.false_ne_true fun member => only _ member nofun rfl
      saving := ?_
      overlay := overlay
      batch := ?_ }
    · rw [old.saving]
      simp [mem_jobs_of_rest done]
    · intro batch member
      exact old.batch batch ((mem_jobs_of_rest done).mpr (Or.inr member))
  · intro name v held
    left
    rw [same.dirty]
    exact held
  · intro noted
    obtain ⟨other, found, pending⟩ := inv.failed id noted
    have here := inv.owned (.load account id) ((mem_jobs_of_rest done).mpr (Or.inl rfl)) account id
      false rfl
    rw [found] at here
    cases here
    rw [same.dirty]
    exact pending

/-- A save has ended: what its batch still holds is durable when it succeeded. -/
theorem Inv.saveDone {l : Ledger} (inv : Inv l) {account id : Nat} {batch : Values}
    {outcome : Outcome} {rest : List (Task × Outcome)}
    (done : l.done = (.save account id batch, outcome) :: rest) {a : Account}
    (same : Account.Same { l.accountAt account with saving := false, dirty := a.dirty } a)
    (either : outcome = .saved ∧ a.dirty = settle (l.accountAt account).dirty batch ∨
      a.dirty = (l.accountAt account).dirty)
    {saveFailed : Nat → Bool} (others : ∀ id', id' ≠ id → saveFailed id' = l.ghost.saveFailed id')
    (failed : saveFailed id = true → a.dirty = (l.accountAt account).dirty) :
    Inv { l.set account a with done := rest, ghost.saveFailed := saveFailed } := by
  have here := inv.owned (.save account id batch) ((mem_jobs_of_rest done).mpr (Or.inl rfl)) account
    id true rfl
  have old := inv.cached id account here
  obtain ⟨filled, written⟩ := old.batch batch ((mem_jobs_of_rest done).mpr (Or.inl rfl))
  have only := inv.only done
  have unsaved : ∀ other, Task.save account id other ∉ rest.map Prod.fst ++ l.flying :=
    fun other member => only _ member nofun rfl
  have subset : ∀ (name : String) (v : Value), a.dirty[name]? = some v →
      (l.accountAt account).dirty[name]? = some v := by
    intro name v held
    rcases either with ⟨-, settled⟩ | unchanged
    · rw [settled] at held
      exact (settle_some.mp held).1
    · rw [unchanged] at held
      exact held
  refine inv.deliver done rfl rfl rfl ?_ ?_ others ?_
  · intro _
    exact {
      loading := by
        rw [same.loading]
        show (l.accountAt account).loading = true ↔ _
        rw [old.loading, mem_jobs_of_rest done]
        simp
      saving := by
        rw [same.saving]
        refine iff_of_false Bool.false_ne_true ?_
        rintro ⟨other, member⟩
        exact unsaved other member
      overlay := by
        rw [same.values]
        exact fun name v held => old.overlay name v (subset name v held)
      latest := fun name v held => old.latest name v (subset name v held)
      batch := fun other member => absurd member (unsaved other)
      numbered := by
        rw [same.revision]
        exact old.numbered
      newest := old.newest }
  · intro name v held
    rcases either with ⟨saved, settled⟩ | unchanged
    · by_cases kept : ∀ w : Value, batch[name]? = some w → w.revision ≠ v.revision
      · rw [settled]
        exact Or.inl (settle_some.mpr ⟨held, kept⟩)
      · push Not at kept
        obtain ⟨w, sent, equal⟩ := kept
        have acceptedV := (latest_mem (old.latest name v held)).1
        have sameWrite := inv.ordered.eq_of_revision (written name w sent).1 acceptedV rfl rfl equal
        right
        rw [← sameWrite]
        exact inv.sent account id batch (by rw [done, saved]; exact List.mem_cons_self) name w sent
    · rw [unchanged]
      exact Or.inl held
  · intro noted
    rw [failed noted]
    obtain ⟨name, v, sent⟩ := values_filled.mp filled
    obtain ⟨w, held⟩ := Option.isSome_iff_exists.mp
      (Std.ExtTreeMap.isSome_getElem?_iff_mem.mpr (written name v sent).2)
    exact values_filled.mpr ⟨name, w, held⟩

/-! ## Steps -/

theorem ledger_loadCatalog (s : State) : (loadCatalog s).ledger = s.ledger := by
  unfold loadCatalog
  split
  · rename_i submitted
    rw [(submit_some submitted).2]
    exact ledger_catalog s rfl
  · rfl

theorem ledger_submitRegister {s s' : State} {cookie : Nat} {definition : Definition}
    (done : submitRegister s cookie definition = .ok s') : s'.ledger = s.ledger := by
  unfold submitRegister at done
  split at done
  · cases done
  · rename_i submitted
    cases Except.ok.inj done
    rw [(submit_some submitted).2]
    exact ledger_catalog s rfl

theorem ledger_register {s s' : State} {definition : Definition}
    (done : register s definition = .ok s') : s'.ledger = s.ledger := by
  unfold register at done
  obtain ⟨-, -, done⟩ := except_bind_ok.mp done
  split at done
  · obtain ⟨-, done⟩ := except_guard_ok.mp done
    split at done
    · cases Except.ok.inj done
      rfl
    · exact ledger_submitRegister done
  · obtain ⟨-, done⟩ := except_guard_ok.mp done
    exact ledger_submitRegister (s := s.newCookie { definition }) done

theorem ledger_addDefinition (s : State) (definition : Definition) :
    (addDefinition s definition).ledger = s.ledger := by
  unfold addDefinition
  split
  · split <;> rfl
  · rfl

theorem ledger_addCatalog {definitions : List Definition} : ∀ s : State,
    (addCatalog s definitions).ledger = s.ledger := by
  induction definitions with
  | nil => exact fun _ => rfl
  | cons definition rest ih =>
      intro s
      unfold addCatalog
      split
      · rfl
      · rw [ih, ledger_addDefinition]

theorem ledger_catalogCompletion (s : State) (outcome : Outcome) :
    (catalogCompletion s outcome).ledger = s.ledger := by
  unfold catalogCompletion
  split
  · exact ledger_addCatalog _
  · rfl

theorem ledger_registerCompletion (s : State) (cookie : Nat) (outcome : Outcome) :
    (registerCompletion s cookie outcome).ledger = s.ledger := by
  unfold registerCompletion
  split
  · rfl
  · dsimp only
    split <;> rfl

theorem loadCompletion_inv {s : State} (inv : Inv s.ledger) {account id : Nat} {outcome : Outcome}
    {rest : List (Task × Outcome)} (ready : s.ready = (.load account id, outcome) :: rest) :
    Inv (loadCompletion { s with ready := rest } account id outcome).ledger := by
  have done : s.ledger.done =
      (.load account id, outcome) :: rest.filter fun job => job.1.owner.isSome := by
    show s.ready.filter _ = _
    rw [ready]
    rfl
  have here := inv.owned (.load account id) ((mem_jobs_of_rest done).mpr (Or.inl rfl)) account id
    false rfl
  have overlay := (inv.cached id account here).overlay
  unfold loadCompletion
  cases outcome with
  | loaded values =>
      exact inv.loadDone done (a := { s.accountAt account with
        loading := false, error := "", state := .ready
        values := merge values (s.accountAt account).dirty }) ⟨rfl, rfl, rfl, rfl, rfl⟩
        (merge_dirty values _) _
  | failed text | catalog | registered | saved =>
      exact inv.loadDone done (a := { s.accountAt account with
        loading := false, error := _, state := .failed }) ⟨rfl, rfl, rfl, rfl, rfl⟩ overlay _

theorem saveCompletion_inv {s : State} (inv : Inv s.ledger) {account id : Nat} {batch : Values}
    {outcome : Outcome} {rest : List (Task × Outcome)}
    (ready : s.ready = (.save account id batch, outcome) :: rest) :
    Inv (saveCompletion { s with ready := rest } account id batch outcome).ledger := by
  have done : s.ledger.done =
      (.save account id batch, outcome) :: rest.filter fun job => job.1.owner.isSome := by
    show s.ready.filter _ = _
    rw [ready]
    rfl
  have others : ∀ (b : Bool) (id' : Nat), id' ≠ id →
      Function.update s.ghost.saveFailed id b id' = s.ghost.saveFailed id' :=
    fun b id' differ => Function.update_of_ne differ _ _
  unfold saveCompletion
  cases outcome with
  | saved =>
      refine inv.saveDone done (a := { s.accountAt account with
        saving := false, error := "", writeError := "", writeFailed := false
        dirty := settle (s.accountAt account).dirty batch }) ⟨rfl, rfl, rfl, rfl, rfl⟩
        (Or.inl ⟨rfl, rfl⟩) (others false) ?_
      rw [Function.update_self]
      exact fun noted => absurd noted Bool.false_ne_true
  | failed text | catalog | registered | loaded =>
      exact inv.saveDone done (a := { s.accountAt account with
        saving := false, error := _, writeError := _, writeFailed := true })
        ⟨rfl, rfl, rfl, rfl, rfl⟩ (Or.inr rfl) (others true) fun _ => rfl

theorem completion_inv {s : State} (inv : Inv s.ledger) {task : Task} {outcome : Outcome}
    {rest : List (Task × Outcome)} (ready : s.ready = (task, outcome) :: rest) :
    Inv (completion { s with ready := rest } task outcome).ledger := by
  have skipped : task.owner = none → { s with ready := rest : State }.ledger = s.ledger := by
    intro catalog
    simp [State.ledger, ready, catalog]
  cases task with
  | catalog =>
      show Inv (catalogCompletion _ outcome).ledger
      rw [ledger_catalogCompletion, skipped rfl]
      exact inv
  | register cookie definition =>
      show Inv (registerCompletion _ cookie outcome).ledger
      rw [ledger_registerCompletion, skipped rfl]
      exact inv
  | load account id => exact loadCompletion_inv inv ready
  | save account id batch => exact saveCompletion_inv inv ready

theorem take_inv {s s' : State} (inv : Inv s.ledger) (taken : take s = some s') :
    Inv s'.ledger := by
  unfold take at taken
  split at taken
  · rename_i task rest running waiting
    cases Option.some.inj taken
    have same : { s with running := some task, waiting := rest : State }.ledger = s.ledger := by
      simp [State.ledger, running, waiting]
    rw [same]
    exact inv
  · cases taken

theorem finish_inv {s s' : State} (inv : Inv s.ledger) {outcome : Outcome} {landed : Bool}
    (finished : finish s outcome landed = some s') : Inv s'.ledger := by
  unfold finish at finished
  split at finished
  · cases finished
  rename_i task running
  have flying : task.owner.isSome = true →
      s.ledger.flying = task :: s.waiting.filter fun task => task.owner.isSome := by
    intro owned
    simp [State.ledger, running, owned]
  have idle : task.owner = none →
      { s with running := none, ready := s.ready ++ [(task, outcome)] : State }.ledger =
        s.ledger := by
    intro catalog
    simp [State.ledger, running, catalog]
  have moved : task.owner.isSome = true → ∀ ghost,
      { s with running := none, ready := s.ready ++ [(task, outcome)], ghost : State }.ledger =
        { s.ledger with
          done := s.ledger.done ++ [(task, outcome)]
          flying := s.waiting.filter fun task => task.owner.isSome
          ghost } := by
    intro owned ghost
    simp [State.ledger, owned]
  dsimp only at finished
  cases task with
  | catalog | register =>
      cases outcome <;> cases finished <;> (rw [idle rfl]; exact inv)
  | load account id =>
      cases outcome <;> cases finished <;>
        (rw [moved rfl]; exact inv.missed (flying rfl) (fun _ _ _ this => nomatch this))
  | save account id batch =>
      cases outcome with
      | saved =>
          cases finished
          rw [moved rfl]
          exact inv.landed (flying rfl)
      | failed message =>
          dsimp only at finished
          split at finished
          · cases finished
            rw [moved rfl]
            exact inv.landed (flying rfl)
          · cases finished
            rw [moved rfl]
            exact inv.missed (flying rfl) (fun _ _ _ _ => nofun)
      | catalog | registered | loaded => cases finished

theorem attempt_inv {s : State} (inv : Inv s.ledger) {result : Except String State}
    (fine : ∀ s', result = .ok s' → Inv s'.ledger) : Inv (attempt s result).ledger := by
  unfold attempt
  split
  · exact fine _ rfl
  · exact inv

theorem retryOne_inv {s : State} (inv : Inv s.ledger) {id account : Nat}
    (found : s.accounts[id]? = some account) : Inv (retryOne s id account).ledger := by
  unfold retryOne
  refine save_inv (s := s.setAccount account fun a => { a with writeFailed := false }) ?_ found
  exact inv.touch (a := { s.accountAt account with writeFailed := false })
    ⟨rfl, rfl, rfl, rfl, rfl⟩

theorem evict_step {s s' : State} {a : Option Bool} (stepped : next s (.evict a) = some s') :
    ∃ stopping, s.owner = .evicting stopping ∧ s' = { evict s with owner := .idle } ∧
      a = if stopping then some (stoppable s') else none := by
  dsimp only [next, ownerStep] at stepped
  split at stepped
  · rename_i stopping evicting
    by_cases answered : a = if stopping then some (stoppable { evict s with owner := .idle }) else none
    · rw [if_pos answered] at stepped
      cases stepped
      exact ⟨stopping, evicting, rfl, answered⟩
    · rw [if_neg answered] at stepped
      cases stepped
  · cases stepped

theorem ownerStep_inv {s s' : State} {label : Label} (inv : Inv s.ledger)
    (stepped : ownerStep s label = some s') : Inv s'.ledger := by
  cases label <;> dsimp only [ownerStep] at stepped
  case take | finish => cases stepped
  case retryCatalog =>
      split at stepped <;> cases stepped
      unfold retryCatalog
      split
      · rw [ledger_loadCatalog]
        exact inv
      · exact inv
  case register definition =>
      split at stepped <;> cases stepped
      refine attempt_inv inv fun later done => ?_
      rw [ledger_register done]
      exact inv
  case sync players =>
      split at stepped <;> cases stepped
      exact attempt_inv inv fun _ done => sync_inv inv done
  case set player cookie text now =>
      split at stepped <;> cases stepped
      exact attempt_inv inv fun _ done => set_inv inv done
  case setIdentity id cookie text now =>
      split at stepped <;> cases stepped
      exact setIdentity_inv inv id cookie text now
  case retryLoad player =>
      split at stepped <;> cases stepped
      exact attempt_inv inv fun _ done => retryLoad_inv inv done
  case refresh player =>
      split at stepped <;> cases stepped
      exact attempt_inv inv fun _ done => refresh_inv inv done
  case pump stopping =>
      split at stepped <;> cases stepped
      exact inv
  case deliver =>
      split at stepped
      · rename_i ready
        cases stepped
        exact completion_inv inv ready
      · cases stepped
  case delivered =>
      split at stepped <;> cases stepped
      exact inv
  case saveNext =>
      split at stepped
      · cases stepped
        split
        · rename_i found
          refine save_inv ?_ found
          exact inv
        · exact inv
      · cases stepped
  case saved =>
      split at stepped <;> cases stepped
      exact inv
  case evict answer =>
      obtain ⟨stopping, -, rfl, -⟩ := evict_step stepped
      exact evict_inv inv
  case retryWrites =>
      split at stepped <;> cases stepped
      exact inv
  case retryNext =>
      split at stepped
      · cases stepped
        split
        · rename_i found
          refine retryOne_inv ?_ found
          exact inv
        · exact inv
      · cases stepped
  case retried =>
      split at stepped <;> cases stepped
      exact inv

theorem next_inv {s s' : State} {label : Label} (inv : Inv s.ledger)
    (stepped : next s label = some s') : Inv s'.ledger := by
  unfold next at stepped
  split at stepped
  · exact take_inv inv stepped
  · exact finish_inv inv stepped
  · exact ownerStep_inv inv stepped

theorem init_inv : Inv init.ledger := by
  have empty : Inv ({} : State).ledger := by
    constructor <;> simp [State.ledger, Ledger.jobs, Ordered]
  unfold init
  rw [ledger_loadCatalog]
  exact empty

theorem run_inv {history : List Label} {s : State} (ran : run next init history = some s) :
    Inv s.ledger :=
  history_induction (P := fun _ s => Inv s.ledger) init_inv
    (fun _ _ _ _ inv stepped => next_inv inv stepped) history s ran

/-! ## Eviction -/

/-- A cached account that is gone afterwards was clean, with no load or save in
the queue. -/
def Retained (s s' : State) : Prop :=
  ∀ id account : Nat, s.accounts[id]? = some account → s'.accounts[id]? ≠ some account →
    (s.accountAt account).dirty.isEmpty = true ∧
      ∀ task ∈ s.jobs,
        ∀ save, task.owner ≠ some (account, id, save)

theorem Retained.of_eq {s s' : State} (same : s'.accounts = s.accounts) : Retained s s' := by
  intro id account found gone
  rw [same] at gone
  exact absurd found gone

theorem mem_ledger_jobs {s : State} {task : Task} (owned : task.owner ≠ none)
    (member : task ∈ s.jobs) :
    task ∈ s.ledger.jobs := by
  have owned := Option.isSome_iff_ne_none.mpr owned
  unfold State.jobs at member
  unfold Ledger.jobs State.ledger
  rcases List.mem_append.mp member with done | waiting
  · rcases List.mem_append.mp done with done | running
    · obtain ⟨job, ready, rfl⟩ := List.mem_map.mp done
      exact List.mem_append_left _ (List.mem_map.mpr
        ⟨job, List.mem_filter.mpr ⟨ready, owned⟩, rfl⟩)
    · exact List.mem_append_right _ (List.mem_filter.mpr
        ⟨List.mem_append_left _ running, owned⟩)
  · exact List.mem_append_right _ (List.mem_filter.mpr
      ⟨List.mem_append_right _ waiting, owned⟩)

/-- What `Evict` drops in a later state that still has the account as it was. -/
theorem evicted_clean {s t : State} (inv : Inv s.ledger) {id account : Nat}
    (found : s.accounts[id]? = some account) (still : t.accounts[id]? = some account)
    (same : t.accountAt account = s.accountAt account)
    (gone : (evict t).accounts[id]? ≠ some account) :
    (s.accountAt account).dirty.isEmpty = true ∧
      ∀ task ∈ s.jobs,
        ∀ save, task.owner ≠ some (account, id, save) := by
  have dropped : ¬ (id ∈ t.activeAccounts ∨ (t.accountAt account).loading = true ∨
      (t.accountAt account).saving = true ∨ (t.accountAt account).dirty.isEmpty = false) :=
    fun kept => gone ((evict_lookup t id account).mpr ⟨still, kept⟩)
  rw [same] at dropped
  simp only [not_or, Bool.not_eq_true, Bool.not_eq_false] at dropped
  obtain ⟨-, notLoading, notSaving, empty⟩ := dropped
  refine ⟨empty, fun task member save named => ?_⟩
  have queued := mem_ledger_jobs (by rw [named]; nofun) member
  cases save with
  | false => exact inv.free_load found notLoading task queued named
  | true => exact inv.free_save found notSaving task queued named

theorem evict_retained {s : State} (inv : Inv s.ledger) : Retained s (evict s) :=
  fun _ _ found gone => evicted_clean inv found found rfl gone

theorem load_other (s : State) (id : Nat) {account other : Nat} (differ : other ≠ account) :
    (load s id account).accountAt other = s.accountAt other := by
  unfold load
  split
  · rfl
  · split
    · exact Function.update_of_ne differ _ _
    · rename_i submitted
      rw [(submit_some submitted).2]
      exact Function.update_of_ne differ _ _

/-- Opening accounts leaves the cached ones as they are. -/
theorem openAll_old {missing : List Nat} {id account : Nat} (other : id ∉ missing) :
    ∀ {s : State}, s.accounts[id]? = some account → account < s.accountCount →
      (missing.foldl openAndLoad s).accounts[id]? = some account ∧
        (missing.foldl openAndLoad s).accountAt account = s.accountAt account := by
  induction missing with
  | nil => exact fun found _ => ⟨found, rfl⟩
  | cons first rest ih =>
      intro s found old
      rw [List.mem_cons, not_or] at other
      have still : (openAndLoad s first).accounts[id]? = some account := by
        rw [openAndLoad_accounts, Std.ExtTreeMap.getElem?_insert, if_neg]
        · exact found
        · rw [compare_eq_iff_eq]
          exact fun same => other.1 same.symm
      have count : (openAndLoad s first).accountCount = s.accountCount + 1 :=
        (load_accounts (s.open first) first s.accountCount).2.1
      have same : (openAndLoad s first).accountAt account = s.accountAt account := by
        unfold openAndLoad
        rw [load_other _ _ old.ne]
        exact Function.update_of_ne old.ne _ _
      obtain ⟨there, kept⟩ := ih other.2 still (by omega)
      exact ⟨there, kept.trans same⟩

theorem write_accounts {s s' : State} {id account : Nat} {name text : String} {now : Int}
    (wrote : write s id account name text now = .ok s') : s'.accounts = s.accounts := by
  unfold write at wrote
  split at wrote
  · cases wrote
  · cases Except.ok.inj wrote
    exact (save_accounts _ id account).1

theorem sync_retained {s s' : State} (inv : Inv s.ledger) {players : List Identity}
    (done : sync s players = .ok s') : Retained s s' := by
  unfold sync at done
  obtain ⟨-, done⟩ := except_guard_ok.mp done
  obtain ⟨⟨next, missing⟩, taken, done⟩ := except_bind_ok.mp done
  obtain ⟨-, done⟩ := except_guard_ok.mp done
  cases Except.ok.inj done
  obtain ⟨new, -⟩ := snapshot_ok taken (by simp) (by simp)
  intro id account found gone
  have other : id ∉ missing.toList := by
    intro member
    refine new id (Std.ExtTreeSet.mem_toList.mp member) ?_
    rw [← Std.ExtTreeMap.isSome_getElem?_iff_mem, found]
    rfl
  obtain ⟨still, same⟩ := openAll_old other (s := { s with players := next }) found
    (inv.bound id account found)
  exact evicted_clean inv found still same gone

theorem setIdentity_retained {s : State} (inv : Inv s.ledger) (id : Nat) (cookie : Option Nat)
    (text : String) (now : Int) : Retained s (setIdentity s id cookie text now).2 := by
  have opened : ∀ s' : State, s'.accounts = (openAndLoad (evict s) id).accounts →
      (evict s).accounts[id]? = none → Retained s s' := by
    intro s' same absent id' account found gone
    refine evict_retained inv id' account found fun still => ?_
    rw [same, openAndLoad_accounts, Std.ExtTreeMap.getElem?_insert, if_neg] at gone
    · exact gone still
    · rw [compare_eq_iff_eq]
      rintro rfl
      rw [absent] at still
      cases still
  unfold setIdentity
  dsimp only
  split
  · exact Retained.of_eq rfl
  · split
    · split
      · rename_i wrote
        exact Retained.of_eq (write_accounts wrote)
      · exact Retained.of_eq rfl
    · rename_i missing
      have absent : (evict s).accounts[id]? = none := by
        rw [Option.eq_none_iff_forall_ne_some]
        intro account found
        rw [((evict_lookup s id account).mp found).1] at missing
        cases missing
      split
      · exact evict_retained inv
      · split
        · rename_i wrote
          exact opened _ (write_accounts wrote) absent
        · exact opened _ rfl absent

theorem completion_accounts (s : State) (task : Task) (outcome : Outcome) :
    (completion s task outcome).accounts = s.accounts := by
  cases task with
  | catalog => exact congrArg Ledger.accounts (ledger_catalogCompletion s outcome)
  | register cookie => exact congrArg Ledger.accounts (ledger_registerCompletion s cookie outcome)
  | load account id => rfl
  | save account id batch => rfl

theorem finish_accounts {s s' : State} {outcome : Outcome} {landed : Bool}
    (finished : finish s outcome landed = some s') : s'.accounts = s.accounts := by
  unfold finish at finished
  dsimp only at finished
  repeat' split at finished
  all_goals cases finished
  all_goals rfl

theorem take_accounts {s s' : State} (taken : take s = some s') : s'.accounts = s.accounts := by
  unfold take at taken
  split at taken <;> cases taken
  rfl

theorem attempt_retained {s : State} {result : Except String State}
    (fine : ∀ s', result = .ok s' → Retained s s') : Retained s (attempt s result) := by
  unfold attempt
  split
  · exact fine _ rfl
  · exact Retained.of_eq rfl

theorem ownerStep_retained {s s' : State} {label : Label} (inv : Inv s.ledger)
    (stepped : ownerStep s label = some s') : Retained s s' := by
  cases label <;> dsimp only [ownerStep] at stepped
  case take | finish => cases stepped
  case retryCatalog =>
      split at stepped <;> cases stepped
      unfold retryCatalog
      split
      · exact Retained.of_eq (congrArg Ledger.accounts (ledger_loadCatalog _))
      · exact Retained.of_eq rfl
  case register definition =>
      split at stepped <;> cases stepped
      exact attempt_retained fun _ done =>
        Retained.of_eq (congrArg Ledger.accounts (ledger_register done))
  case sync players =>
      split at stepped <;> cases stepped
      exact attempt_retained fun _ done => sync_retained inv done
  case set player cookie text now =>
      split at stepped <;> cases stepped
      refine attempt_retained fun _ done => ?_
      unfold set at done
      obtain ⟨definition, -, done⟩ := except_bind_ok.mp done
      obtain ⟨-, -, done⟩ := except_bind_ok.mp done
      obtain ⟨account, -, done⟩ := except_bind_ok.mp done
      obtain ⟨-, wrote⟩ := except_guard_ok.mp done
      exact Retained.of_eq (write_accounts wrote)
  case setIdentity id cookie text now =>
      split at stepped <;> cases stepped
      exact setIdentity_retained inv id cookie text now
  case retryLoad player =>
      split at stepped <;> cases stepped
      refine attempt_retained fun _ done => ?_
      unfold retryLoad at done
      obtain ⟨account, -, done⟩ := except_bind_ok.mp done
      split at done <;> cases Except.ok.inj done
      · exact Retained.of_eq (load_accounts s player.account account).1
      · exact Retained.of_eq rfl
  case refresh player =>
      split at stepped <;> cases stepped
      refine attempt_retained fun _ done => ?_
      unfold refresh at done
      obtain ⟨account, -, done⟩ := except_bind_ok.mp done
      obtain ⟨-, done⟩ := except_guard_ok.mp done
      cases Except.ok.inj done
      exact Retained.of_eq (load_accounts s player.account account).1
  case deliver =>
      split at stepped
      · cases stepped
        exact Retained.of_eq (completion_accounts _ _ _)
      · cases stepped
  case saveNext =>
      split at stepped
      · cases stepped
        split
        · exact Retained.of_eq (save_accounts _ _ _).1
        · exact Retained.of_eq rfl
      · cases stepped
  case evict answer =>
      obtain ⟨stopping, -, rfl, -⟩ := evict_step stepped
      exact evict_retained inv
  case retryNext =>
      split at stepped
      · cases stepped
        split
        · exact Retained.of_eq (save_accounts _ _ _).1
        · exact Retained.of_eq rfl
      · cases stepped
  case pump | delivered | saved | retryWrites | retried =>
      split at stepped <;> cases stepped
      exact Retained.of_eq rfl

theorem next_retained {s s' : State} {label : Label} (inv : Inv s.ledger)
    (stepped : next s label = some s') : Retained s s' := by
  unfold next at stepped
  split at stepped
  · exact Retained.of_eq (take_accounts stepped)
  · exact Retained.of_eq (finish_accounts stepped)
  · exact ownerStep_retained inv stepped

/-! ## No lost write -/

def AcceptedBefore (writes : List Write) (x y : Write) : Prop :=
  ∃ before between after, writes = before ++ x :: between ++ y :: after

theorem Ordered.of_before {writes : List Write} (ordered : Ordered writes) {x y : Write}
    (before : AcceptedBefore writes x y) (sameId : x.id = y.id) : x.Older y := by
  obtain ⟨first, between, after, rfl⟩ := before
  obtain ⟨-, -, cross⟩ := List.pairwise_append.mp ordered
  exact cross x (by simp) y (by simp) sameId

/-- Every accepted value that no later one replaced is durable. -/
def AllDurable (s : State) : Prop :=
  ∀ (id : Nat) (name : String) (w : Write), latest s.ghost.accepted id name = some w →
    w ∈ s.ghost.durable

structure NoLostWrite (s : State) : Prop where
  /-- The latest accepted value is dirty in a cached account or durable. -/
  held : ∀ (id : Nat) (name : String) (w : Write), latest s.ghost.accepted id name = some w →
    s.accounts[id]? = some w.object ∧ (s.accountAt w.object).dirty[name]? = some w.value ∨
      w ∈ s.ghost.durable
  /-- What is durable was accepted, and nothing older became durable after it. -/
  durable : ∀ w ∈ s.ghost.durable, w ∈ s.ghost.accepted
  newer : ∀ before x after, s.ghost.durable = before ++ x :: after → ∀ y ∈ after,
    y.id = x.id → y.name = x.name → ¬ AcceptedBefore s.ghost.accepted y x
  /-- A pending value is the latest one, and `Get` returns it once the account is ready. -/
  read : ∀ (player : Identity) (cookie : Option Nat) (definition : Definition) (account : Nat)
    (v : Value), checkCookie s cookie = .ok definition → current s player = .ok account →
    (s.accountAt account).dirty[definition.name]? = some v →
    latest s.ghost.accepted player.account definition.name =
        some { id := player.account, name := definition.name, object := account, value := v } ∧
      ((s.accountAt account).state = .ready → get s player cookie = .ok v)

theorem Inv.noLostWrite {s : State} (inv : Inv s.ledger) : NoLostWrite s where
  held := fun id name w last => (inv.kept id name w last).symm
  durable := inv.durable
  newer := by
    intro before x after split y member sameId sameName earlier
    have sequence := inv.sequence
    change s.ghost.durable.Pairwise _ at sequence
    rw [split, List.pairwise_append, List.pairwise_cons] at sequence
    exact sequence.2.1.1 y member sameId.symm sameName.symm (inv.ordered.of_before earlier sameId)
  read := by
    intro player cookie definition account v checked here pending
    have found := (current_ok here).2
    have cached := inv.cached player.account account found
    refine ⟨cached.latest definition.name v pending, fun ready => ?_⟩
    have value := cached.overlay definition.name v pending
    change (s.accountAt account).values[definition.name]? = some v at value
    unfold get
    rw [checked, here]
    simp [bind, Except.bind, ready, value, pure, Except.pure]

theorem stoppable_durable {s : State} (inv : Inv s.ledger) (stops : stoppable s = true) :
    AllDurable s := by
  intro id name w last
  rcases inv.kept id name w last with safe | ⟨found, held⟩
  · exact safe
  · unfold stoppable at stops
    obtain ⟨-, clean⟩ := Bool.and_eq_true_iff.mp stops
    have empty := List.all_eq_true.mp clean (id, w.object)
      (Std.ExtTreeMap.mem_toList_iff_getElem?_eq_some.mpr found)
    have filled := values_filled.mpr ⟨name, w.value, held⟩
    change (s.accountAt w.object).dirty.isEmpty = false at filled
    rw [filled] at empty
    cases empty

/-- After every run of the owner and the worker no accepted write is lost, every
further step drops clean idle accounts only, and `CanStop` answers true only
when everything accepted is durable. -/
theorem no_lost_write (history : List Label) (s : State)
    (ran : run next init history = some s) :
    NoLostWrite s ∧ ∀ (label : Label) (s' : State), next s label = some s' →
      Retained s s' ∧ (label = .evict (some true) → AllDurable s') := by
  have inv := run_inv ran
  refine ⟨inv.noLostWrite, fun label s' stepped => ⟨next_retained inv stepped, ?_⟩⟩
  rintro rfl
  have later := next_inv inv stepped
  obtain ⟨stopping, -, -, answered⟩ := evict_step stepped
  cases stopping with
  | false => cases answered
  | true => exact stoppable_durable later (Option.some.inj answered).symm

def music : Definition := { name := "music", description := "", access := .publicAccess }

def first : Identity := { slot := 0, connection := 1, account := 76561197960265729 }

def worked (outcome : Outcome) : List Label := [.take, .finish outcome false]

def pumped (ready : Nat) (accounts : Nat) : List Label :=
  [.pump false] ++ List.replicate ready .deliver ++ [.delivered] ++
    List.replicate accounts .saveNext ++ [.saved, .evict none]

/-- A second edit lands while the save of the first is in flight. -/
def overwrittenRun : List Label :=
  [.register music, .sync [first]] ++
    worked (.catalog []) ++ worked .registered ++ worked (.loaded ∅) ++ pumped 3 1 ++
    [.set first (some 0) "first" 3, .take, .set first (some 0) "latest" 4,
      .finish .saved false] ++ pumped 1 1

theorem no_lost_write_overwritten :
    ∃ s, run next init overwrittenRun = some s ∧ NoLostWrite s := by
  obtain ⟨s, ran⟩ := Option.isSome_iff_exists.mp
    (by decide +kernel : (run next init overwrittenRun).isSome = true)
  exact ⟨s, ran, (no_lost_write overwrittenRun s ran).1⟩

end Source2Root.Prefs
