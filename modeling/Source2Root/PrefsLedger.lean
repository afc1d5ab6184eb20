import Mathlib
import Source2Root.Transition
import Source2Root.Prefs

/-!
# The ledger of client preference writes

The part of the service that decides whether a write is lost: the cached
accounts, the loads and saves in the queue, and the history of accepted and
durable writes.  `Inv` is what holds of it between two steps of the owner or the
worker; the file ends with one lemma for each way the ledger changes.
-/

set_option autoImplicit false

namespace Source2Root.Prefs

/-! ## The order of writes -/

/-- Addresses grow as accounts are opened, revisions as one account is written. -/
def Write.Older (x y : Write) : Prop :=
  x.object < y.object ∨ x.object = y.object ∧ x.value.revision < y.value.revision

theorem Write.Older.asymm {x y : Write} (older : x.Older y) : ¬ y.Older x := by
  unfold Write.Older at *
  omega

theorem Write.Older.irrefl (x : Write) : ¬ x.Older x := fun older => older.asymm older

def latest (writes : List Write) (id : Nat) (name : String) : Option Write :=
  writes.reverse.find? fun w => w.id == id && w.name == name

@[simp] theorem latest_nil (id : Nat) (name : String) : latest [] id name = none := rfl

theorem latest_concat (writes : List Write) (w : Write) (id : Nat) (name : String) :
    latest (writes ++ [w]) id name =
      if w.id = id ∧ w.name = name then some w else latest writes id name := by
  by_cases same : w.id = id ∧ w.name = name
  · simp [latest, same]
  · simp only [latest, List.reverse_append, List.reverse_cons, List.reverse_nil, List.nil_append,
      List.cons_append, List.find?_cons, if_neg same]
    have differs : (w.id == id && w.name == name) = false := by
      simpa using fun first second => same ⟨first, second⟩
    simp [differs]

theorem latest_mem {writes : List Write} {id : Nat} {name : String} {w : Write}
    (found : latest writes id name = some w) : w ∈ writes ∧ w.id = id ∧ w.name = name := by
  have member := List.mem_of_find?_eq_some found
  have pair := List.find?_some found
  simp only [Bool.and_eq_true, beq_iff_eq] at pair
  exact ⟨List.mem_reverse.mp member, pair.1, pair.2⟩

/-- The writes to one account come in the order of their objects and revisions. -/
def Ordered (writes : List Write) : Prop :=
  writes.Pairwise fun x y => x.id = y.id → x.Older y

theorem Ordered.concat {writes : List Write} {w : Write} (ordered : Ordered writes)
    (newest : ∀ x ∈ writes, x.id = w.id → x.Older w) : Ordered (writes ++ [w]) := by
  refine List.pairwise_append.mpr ⟨ordered, List.pairwise_singleton _ _, ?_⟩
  intro x member y isNew
  rw [List.mem_singleton.mp isNew]
  exact newest x member

theorem Ordered.latest_newest {writes : List Write} (ordered : Ordered writes) {id : Nat}
    {name : String} {w x : Write} (found : latest writes id name = some w) (member : x ∈ writes)
    (sameId : x.id = id) (sameName : x.name = name) : x = w ∨ x.Older w := by
  induction writes using List.reverseRecOn with
  | nil => cases member
  | append_singleton writes last ih =>
      obtain ⟨before, -, after⟩ := List.pairwise_append.mp ordered
      rw [latest_concat] at found
      split at found
      · rename_i pair
        cases Option.some.inj found
        rcases List.mem_append.mp member with old | new
        · exact Or.inr (after x old w (by simp) (sameId.trans pair.1.symm))
        · exact Or.inl (List.mem_singleton.mp new)
      · rename_i other
        rcases List.mem_append.mp member with old | new
        · exact ih before found old
        · rw [List.mem_singleton.mp new] at sameId sameName
          exact absurd ⟨sameId, sameName⟩ other

theorem Ordered.total {writes : List Write} (ordered : Ordered writes) {x y : Write}
    (memberX : x ∈ writes) (memberY : y ∈ writes) (sameId : x.id = y.id) :
    x = y ∨ x.Older y ∨ y.Older x := by
  have either : ∀ x ∈ writes, ∀ y ∈ writes, x.id = y.id → x = y ∨ x.Older y ∨ y.Older x := by
    refine List.Pairwise.forall_of_forall_of_flip (fun x _ _ => Or.inl rfl) ?_ ?_
    · exact ordered.imp fun older same => Or.inr (Or.inl (older same))
    · exact ordered.imp fun older same => Or.inr (Or.inr (older same.symm))
  exact either x memberX y memberY sameId

/-- A write is known by its account, its object and its revision. -/
theorem Ordered.eq_of_revision {writes : List Write} (ordered : Ordered writes) {x y : Write}
    (memberX : x ∈ writes) (memberY : y ∈ writes) (sameId : x.id = y.id)
    (sameObject : x.object = y.object) (sameRevision : x.value.revision = y.value.revision) :
    x = y := by
  rcases ordered.total memberX memberY sameId with same | older | older
  · exact same
  · unfold Write.Older at older
    omega
  · unfold Write.Older at older
    omega

/-! ## The ledger -/

/-- The account a job is about: its object, its id and whether the job saves. -/
def Task.owner : Task → Option (Nat × Nat × Bool)
  | .load account id => some (account, id, false)
  | .save account id _ => some (account, id, true)
  | _ => none

structure Ledger where
  players : Std.ExtTreeMap Int Identity
  accounts : Std.ExtTreeMap Nat Nat
  accountAt : Nat → Account
  accountCount : Nat
  done : List (Task × Outcome)
  flying : List Task
  ghost : Ghost

/-- Jobs of the catalog are left out. -/
def State.ledger (s : State) : Ledger where
  players := s.players
  accounts := s.accounts
  accountAt := s.accountAt
  accountCount := s.accountCount
  done := s.ready.filter fun job => job.1.owner.isSome
  flying := (s.running.toList ++ s.waiting).filter fun task => task.owner.isSome
  ghost := s.ghost

def Ledger.jobs (l : Ledger) : List Task := l.done.map Prod.fst ++ l.flying

def Ledger.set (l : Ledger) (account : Nat) (a : Account) : Ledger :=
  { l with accountAt := Function.update l.accountAt account a }

/-- A cached account `a` of `id` beside the queue and the accepted writes. -/
structure Cached (jobs : List Task) (accepted : List Write) (id account : Nat) (a : Account) :
    Prop where
  loading : a.loading = true ↔ Task.load account id ∈ jobs
  saving : a.saving = true ↔ ∃ batch, Task.save account id batch ∈ jobs
  overlay : ∀ (name : String) (v : Value), a.dirty[name]? = some v → a.values[name]? = some v
  latest : ∀ (name : String) (v : Value), a.dirty[name]? = some v →
    latest accepted id name = some { id, name, object := account, value := v }
  batch : ∀ batch : Values, Task.save account id batch ∈ jobs → batch.isEmpty = false ∧
    ∀ (name : String) (v : Value), batch[name]? = some v →
      { id, name, object := account, value := v } ∈ accepted ∧ name ∈ a.dirty
  numbered : ∀ w ∈ accepted, w.object = account → w.value.revision ≤ a.revision
  newest : ∀ w ∈ accepted, w.id = id → w.object ≤ account

/-- Between two steps: objects belong to one account, a job's account stays
cached, what is dirty is the latest accepted write, and what is not dirty any
more is durable. -/
structure Inv (l : Ledger) : Prop where
  bound : ∀ id account : Nat, l.accounts[id]? = some account → account < l.accountCount
  injective : ∀ id id' account : Nat,
    l.accounts[id]? = some account → l.accounts[id']? = some account → id = id'
  owned : ∀ task ∈ l.jobs, ∀ (account id : Nat) (save : Bool),
    task.owner = some (account, id, save) → l.accounts[id]? = some account
  alone : (l.jobs.filterMap Task.owner).Nodup
  cached : ∀ id account : Nat, l.accounts[id]? = some account →
    Cached l.jobs l.ghost.accepted id account (l.accountAt account)
  objects : ∀ w ∈ l.ghost.accepted, w.object < l.accountCount
  ordered : Ordered l.ghost.accepted
  durable : ∀ w ∈ l.ghost.durable, w ∈ l.ghost.accepted
  sequence : l.ghost.durable.Pairwise fun x y =>
    x.id = y.id → x.name = y.name → ¬ y.Older x
  unsent : ∀ (account id : Nat) (batch : Values), Task.save account id batch ∈ l.flying →
    ∀ d ∈ l.ghost.durable, d.id = id → ∀ v : Value, batch[d.name]? = some v →
      ¬ Write.Older { id, name := d.name, object := account, value := v } d
  sent : ∀ (account id : Nat) (batch : Values), (Task.save account id batch, Outcome.saved) ∈ l.done →
    ∀ (name : String) (v : Value), batch[name]? = some v →
      { id, name, object := account, value := v } ∈ l.ghost.durable
  kept : ∀ (id : Nat) (name : String) (w : Write), latest l.ghost.accepted id name = some w →
    w ∈ l.ghost.durable ∨
      l.accounts[id]? = some w.object ∧ (l.accountAt w.object).dirty[name]? = some w.value
  failed : ∀ id : Nat, l.ghost.saveFailed id = true →
    ∃ account, l.accounts[id]? = some account ∧ (l.accountAt account).dirty.isEmpty = false

theorem Ledger.set_self (l : Ledger) (account : Nat) (a : Account) :
    (l.set account a).accountAt account = a := Function.update_self ..

theorem Ledger.set_other (l : Ledger) {account other : Nat} (a : Account)
    (differ : other ≠ account) : (l.set account a).accountAt other = l.accountAt other :=
  Function.update_of_ne differ ..

/-! ## How the ledger changes -/

/-- What the ledger needs of an account. -/
structure Account.Same (a b : Account) : Prop where
  values : b.values = a.values
  dirty : b.dirty = a.dirty
  revision : b.revision = a.revision
  loading : b.loading = a.loading
  saving : b.saving = a.saving

theorem Cached.of_same {jobs : List Task} {accepted : List Write} {id account : Nat}
    {a b : Account} (cached : Cached jobs accepted id account a) (same : a.Same b) :
    Cached jobs accepted id account b := by
  obtain ⟨values, dirty, revision, loading, saving⟩ := same
  constructor
  · rw [loading]; exact cached.loading
  · rw [saving]; exact cached.saving
  · rw [values, dirty]; exact cached.overlay
  · rw [dirty]; exact cached.latest
  · rw [dirty]; exact cached.batch
  · rw [revision]; exact cached.numbered
  · exact cached.newest

/-- Jobs of other accounts do not matter. -/
theorem Cached.of_jobs {jobs jobs' : List Task} {accepted : List Write} {id account : Nat}
    {a : Account} (cached : Cached jobs accepted id account a)
    (same : ∀ task, (∃ save, task.owner = some (account, id, save)) → (task ∈ jobs' ↔ task ∈ jobs)) :
    Cached jobs' accepted id account a := by
  have load : Task.load account id ∈ jobs' ↔ Task.load account id ∈ jobs := same _ ⟨_, rfl⟩
  have save : ∀ batch, Task.save account id batch ∈ jobs' ↔ Task.save account id batch ∈ jobs :=
    fun batch => same _ ⟨_, rfl⟩
  exact {
    cached with
    loading := by rw [load]; exact cached.loading
    saving := by simp only [save]; exact cached.saving
    batch := by simp only [save]; exact cached.batch }

/-- A change to an account that the ledger does not look at. -/
theorem Inv.touch {l : Ledger} (inv : Inv l) {account : Nat} {a : Account}
    (same : (l.accountAt account).Same a) : Inv (l.set account a) := by
  have dirty : ∀ other, ((l.set account a).accountAt other).dirty = (l.accountAt other).dirty := by
    intro other
    by_cases this : other = account
    · subst this; rw [l.set_self]; exact same.dirty
    · rw [l.set_other a this]
  refine { inv with cached := ?_, kept := ?_, failed := ?_ }
  · intro id other found
    by_cases this : other = account
    · subst this
      rw [l.set_self]
      exact (inv.cached id other found).of_same same
    · rw [l.set_other a this]
      exact inv.cached id other found
  · intro id name w found
    rw [dirty]
    exact inv.kept id name w found
  · intro id noted
    obtain ⟨other, found, pending⟩ := inv.failed id noted
    exact ⟨other, found, by rw [dirty]; exact pending⟩

/-- The dirty writes of every account are as before. -/
theorem Ledger.dirty_set {l : Ledger} {account : Nat} {a : Account}
    (dirty : a.dirty = (l.accountAt account).dirty) (other : Nat) :
    ((l.set account a).accountAt other).dirty = (l.accountAt other).dirty := by
  by_cases this : other = account
  · subst this; rw [l.set_self]; exact dirty
  · rw [l.set_other a this]

/-- A load or save of a cached account joins the queue. -/
theorem Inv.launch {l : Ledger} (inv : Inv l) {account id : Nat} {save : Bool} {task : Task}
    {a : Account} (owner : task.owner = some (account, id, save))
    (found : l.accounts[id]? = some account)
    (free : ∀ other ∈ l.jobs, other.owner ≠ some (account, id, save))
    (dirty : a.dirty = (l.accountAt account).dirty)
    (cached : Cached (l.jobs ++ [task]) l.ghost.accepted id account a)
    (unsent : ∀ batch, task = .save account id batch → batch = a.dirty) :
    Inv { l.set account a with flying := l.flying ++ [task] } := by
  have jobs : { l.set account a with flying := l.flying ++ [task] : Ledger }.jobs =
      l.jobs ++ [task] := (List.append_assoc ..).symm
  refine { inv with
    owned := ?_, alone := ?_, cached := ?_, unsent := ?_, kept := ?_, failed := ?_ }
  · intro other member object id' saves named
    rw [jobs] at member
    rcases List.mem_append.mp member with old | new
    · exact inv.owned other old object id' saves named
    · rw [List.mem_singleton.mp new, owner] at named
      cases named
      exact found
  · rw [jobs, List.filterMap_append, List.nodup_append]
    refine ⟨inv.alone, by simp [owner], ?_⟩
    intro named member other isNew
    obtain ⟨task', queued, same⟩ := List.mem_filterMap.mp member
    have new : other = (account, id, save) := by simpa [owner] using isNew
    rw [new]
    intro clash
    exact free task' queued (by rw [same, clash])
  · intro id' other found'
    rw [jobs]
    by_cases this : other = account
    · subst this
      rw [inv.injective id' id other found' found]
      show Cached _ _ id other ((l.set other a).accountAt other)
      rw [l.set_self]
      exact cached
    · show Cached _ _ id' other ((l.set account a).accountAt other)
      rw [l.set_other a this]
      refine (inv.cached id' other found').of_jobs ?_
      rintro task' ⟨saves, named⟩
      rw [List.mem_append, List.mem_singleton, or_iff_left_iff_imp]
      rintro rfl
      rw [owner] at named
      cases named
      exact absurd rfl this
  · intro object id' batch member d stored sameId v written older
    rcases List.mem_append.mp member with old | new
    · exact inv.unsent object id' batch old d stored sameId v written older
    · have isTask := (List.mem_singleton.mp new).symm
      have same : object = account ∧ id' = id := by
        rw [isTask] at owner
        cases owner
        exact ⟨rfl, rfl⟩
      rw [same.1, same.2] at isTask
      rw [unsent batch isTask] at written
      have last := cached.latest d.name v written
      rw [same.1, same.2] at older
      rcases inv.ordered.latest_newest last (inv.durable d stored) (sameId.trans same.2) rfl
        with equal | before
      · rw [← equal] at older
        exact older.irrefl
      · exact older.asymm before
  · intro id' name w last
    show _ ∨ _ ∧ ((l.set account a).accountAt w.object).dirty[name]? = _
    rw [Ledger.dirty_set dirty]
    exact inv.kept id' name w last
  · intro id' noted
    obtain ⟨other, cached', pending⟩ := inv.failed id' noted
    refine ⟨other, cached', ?_⟩
    show ((l.set account a).accountAt other).dirty.isEmpty = false
    rw [Ledger.dirty_set dirty]
    exact pending

/-- The flags tell that no job of the kind is queued. -/
theorem Inv.free_load {l : Ledger} (inv : Inv l) {account id : Nat}
    (found : l.accounts[id]? = some account) (idle : (l.accountAt account).loading = false) :
    ∀ other ∈ l.jobs, other.owner ≠ some (account, id, false) := by
  intro other member named
  cases other with
  | load object id' =>
      cases named
      rw [(inv.cached id account found).loading.mpr member] at idle
      cases idle
  | save | catalog | register => cases named

theorem Inv.free_save {l : Ledger} (inv : Inv l) {account id : Nat}
    (found : l.accounts[id]? = some account) (idle : (l.accountAt account).saving = false) :
    ∀ other ∈ l.jobs, other.owner ≠ some (account, id, true) := by
  intro other member named
  cases other with
  | save object id' batch =>
      cases named
      rw [(inv.cached id account found).saving.mpr ⟨batch, member⟩] at idle
      cases idle
  | load | catalog | register => cases named

theorem Inv.launch_load {l : Ledger} (inv : Inv l) {account id : Nat} {a : Account}
    (found : l.accounts[id]? = some account) (idle : (l.accountAt account).loading = false)
    (same : { l.accountAt account with loading := true }.Same a) :
    Inv { l.set account a with flying := l.flying ++ [.load account id] } := by
  have old := inv.cached id account found
  refine inv.launch rfl found (inv.free_load found idle) same.dirty ?_ (by intro _ this; cases this)
  refine Cached.of_same ?_ same
  exact {
    old with
    loading := by simp
    saving := by simpa using old.saving
    batch := by simpa using old.batch }

theorem Inv.launch_save {l : Ledger} (inv : Inv l) {account id : Nat} {a : Account}
    (found : l.accounts[id]? = some account) (idle : (l.accountAt account).saving = false)
    (pending : (l.accountAt account).dirty.isEmpty = false)
    (same : { l.accountAt account with saving := true }.Same a) :
    Inv { l.set account a with flying := l.flying ++ [.save account id a.dirty] } := by
  have old := inv.cached id account found
  have free := inv.free_save found idle
  refine inv.launch rfl found free same.dirty ?_ (by intro _ this; cases this; rfl)
  refine Cached.of_same ?_ same
  rw [same.dirty]
  exact {
    old with
    loading := by simpa using old.loading
    saving := by
      simp only [List.mem_append, List.mem_singleton, true_iff]
      exact ⟨_, Or.inr rfl⟩
    batch := by
      intro batch member
      rcases List.mem_append.mp member with queued | new
      · exact absurd rfl (free _ queued)
      · cases List.mem_singleton.mp new
        refine ⟨pending, fun name v written => ⟨?_, ?_⟩⟩
        · exact (latest_mem (old.latest name v written)).1
        · exact Std.ExtTreeMap.mem_iff_isSome_getElem?.mpr (by rw [written]; rfl) }

/-- `Write` before its `Save`. -/
theorem Inv.accept {l : Ledger} (inv : Inv l) {account id : Nat} {name : String} {v : Value}
    {a : Account} (found : l.accounts[id]? = some account)
    (fresh : v.revision = (l.accountAt account).revision + 1)
    (same : Account.Same { l.accountAt account with
      revision := v.revision
      values := (l.accountAt account).values.insert name v
      dirty := (l.accountAt account).dirty.insert name v } a) :
    Inv { l.set account a with
      ghost.accepted := l.ghost.accepted ++ [{ id, name, object := account, value := v }] } := by
  have old := inv.cached id account found
  have others : ∀ id' other, l.accounts[id']? = some other → other ≠ account → id' ≠ id := by
    rintro id' other found' differ rfl
    rw [found] at found'
    exact differ (Option.some.inj found').symm
  refine { inv with
    cached := ?_, objects := ?_, ordered := ?_, durable := ?_, kept := ?_, failed := ?_ }
  · intro id' other found'
    by_cases this : other = account
    · subst this
      rw [inv.injective id' id other found' found]
      show Cached _ _ id other ((l.set other a).accountAt other)
      rw [l.set_self]
      refine Cached.of_same ?_ same
      exact {
        loading := old.loading
        saving := old.saving
        overlay := by
          intro name' v' held
          simp only [Std.ExtTreeMap.getElem?_insert] at held ⊢
          split at held
          · rename_i equal
            rw [if_pos equal]
            exact held
          · rename_i differ
            rw [if_neg differ]
            exact old.overlay name' v' held
        latest := by
          intro name' v' held
          rw [latest_concat]
          simp only [Std.ExtTreeMap.getElem?_insert, compare_eq_iff_eq] at held
          split at held
          · rename_i equal
            cases Option.some.inj held
            subst equal
            simp
          · rename_i differ
            rw [if_neg (by simpa using differ)]
            exact old.latest name' v' held
        batch := by
          intro batch member
          obtain ⟨filled, written⟩ := old.batch batch member
          refine ⟨filled, fun name' v' at_ => ?_⟩
          obtain ⟨accepted, pending⟩ := written name' v' at_
          exact ⟨List.mem_append_left _ accepted,
            Std.ExtTreeMap.mem_insert.mpr (Or.inr pending)⟩
        numbered := by
          intro w member object
          rcases List.mem_append.mp member with earlier | new
          · have := old.numbered w earlier object
            show w.value.revision ≤ v.revision
            omega
          · rw [List.mem_singleton.mp new]
        newest := by
          intro w member sameId
          rcases List.mem_append.mp member with earlier | new
          · exact old.newest w earlier sameId
          · rw [List.mem_singleton.mp new] }
    · have differ := others id' other found' this
      have theirs := inv.cached id' other found'
      show Cached _ _ id' other ((l.set account a).accountAt other)
      rw [l.set_other a this]
      exact {
        theirs with
        latest := by
          intro name' v' held
          rw [latest_concat, if_neg (by simp [differ.symm])]
          exact theirs.latest name' v' held
        batch := by
          intro batch member
          obtain ⟨filled, written⟩ := theirs.batch batch member
          exact ⟨filled, fun name' v' at_ =>
            ⟨List.mem_append_left _ (written name' v' at_).1, (written name' v' at_).2⟩⟩
        numbered := by
          intro w member object
          rcases List.mem_append.mp member with earlier | new
          · exact theirs.numbered w earlier object
          · rw [List.mem_singleton.mp new] at object
            exact absurd object.symm this
        newest := by
          intro w member sameId
          rcases List.mem_append.mp member with earlier | new
          · exact theirs.newest w earlier sameId
          · rw [List.mem_singleton.mp new] at sameId
            exact absurd sameId.symm differ }
  · intro w member
    rcases List.mem_append.mp member with earlier | new
    · exact inv.objects w earlier
    · rw [List.mem_singleton.mp new]
      exact inv.bound id account found
  · refine inv.ordered.concat fun x member sameId => ?_
    have below := old.newest x member sameId
    by_cases object : x.object = account
    · have := old.numbered x member object
      exact Or.inr ⟨object, by show x.value.revision < v.revision; omega⟩
    · exact Or.inl (lt_of_le_of_ne below object)
  · intro w member
    exact List.mem_append_left _ (inv.durable w member)
  · intro id' name' w last
    show _ ∨ _ ∧ ((l.set account a).accountAt w.object).dirty[name']? = _
    rw [latest_concat] at last
    split at last
    · rename_i pair
      cases Option.some.inj last
      right
      rw [l.set_self, same.dirty]
      refine ⟨pair.1 ▸ found, ?_⟩
      simp [← pair.2]
    · rename_i other
      rcases inv.kept id' name' w last with safe | ⟨found', held⟩
      · exact Or.inl safe
      · refine Or.inr ⟨found', ?_⟩
        by_cases this : w.object = account
        · rw [this] at found' held ⊢
          have sameId := inv.injective id' id account found' found
          rw [l.set_self, same.dirty]
          rw [Std.ExtTreeMap.getElem?_insert, if_neg]
          · exact held
          · rw [compare_eq_iff_eq]
            exact fun equal => other ⟨sameId.symm, equal⟩
        · rw [l.set_other a this]
          exact held
  · intro id' noted
    obtain ⟨other, found', pending⟩ := inv.failed id' noted
    refine ⟨other, found', ?_⟩
    show ((l.set account a).accountAt other).dirty.isEmpty = false
    by_cases this : other = account
    · subst this
      rw [l.set_self, same.dirty]
      simp
    · rw [l.set_other a this]
      exact pending

/-- `std::make_shared<Account>()` under an id that is not cached. -/
theorem Inv.opened {l : Ledger} (inv : Inv l) {id : Nat} (missing : id ∉ l.accounts) :
    Inv { l with
      accountAt := Function.update l.accountAt l.accountCount {}
      accountCount := l.accountCount + 1
      accounts := l.accounts.insert id l.accountCount } := by
  have none : l.accounts[id]? = none := Std.ExtTreeMap.getElem?_eq_none missing
  have lookup : ∀ id' account : Nat, (l.accounts.insert id l.accountCount)[id']? = some account ↔
      (id' = id ∧ account = l.accountCount) ∨ (id' ≠ id ∧ l.accounts[id']? = some account) := by
    intro id' account
    simp only [Std.ExtTreeMap.getElem?_insert, compare_eq_iff_eq]
    split <;> rename_i this
    · simp [this.symm, eq_comm]
    · simp [Ne.symm this]
  have keep : ∀ id' account : Nat, l.accounts[id']? = some account →
      (l.accounts.insert id l.accountCount)[id']? = some account := by
    intro id' account found
    refine (lookup id' account).mpr (Or.inr ⟨?_, found⟩)
    rintro rfl
    rw [none] at found
    cases found
  have old : ∀ {id' account : Nat}, l.accounts[id']? = some account →
      Function.update l.accountAt l.accountCount {} account = l.accountAt account :=
    fun found => Function.update_of_ne (inv.bound _ _ found).ne _ _
  have unused : ∀ (task : Task) (id' : Nat) (save : Bool),
      task.owner = some (l.accountCount, id', save) → task ∉ l.jobs := by
    intro task id' save named member
    exact absurd (inv.bound _ _ (inv.owned task member _ _ _ named)) (lt_irrefl _)
  refine { inv with
    bound := ?_, injective := ?_, owned := ?_, cached := ?_, objects := ?_, kept := ?_
    failed := ?_ }
  · intro id' account found
    rcases (lookup id' account).mp found with ⟨-, rfl⟩ | ⟨-, found⟩
    · exact Nat.lt_succ_self _
    · exact Nat.lt_succ_of_lt (inv.bound id' account found)
  · intro id₁ id₂ account found₁ found₂
    rcases (lookup id₁ account).mp found₁ with ⟨rfl, rfl⟩ | ⟨-, old₁⟩ <;>
      rcases (lookup id₂ _).mp found₂ with ⟨rfl, same⟩ | ⟨-, old₂⟩
    · rfl
    · exact absurd (inv.bound _ _ old₂) (lt_irrefl _)
    · rw [same] at old₁
      exact absurd (inv.bound _ _ old₁) (lt_irrefl _)
    · exact inv.injective id₁ id₂ account old₁ old₂
  · intro task member account id' save named
    exact keep _ _ (inv.owned task member account id' save named)
  · intro id' account found
    rcases (lookup id' account).mp found with ⟨rfl, rfl⟩ | ⟨-, found⟩
    · show Cached _ _ id' l.accountCount (Function.update l.accountAt l.accountCount {} _)
      rw [Function.update_self]
      have load := unused (.load l.accountCount id') id' false rfl
      have save : ¬ ∃ batch, Task.save l.accountCount id' batch ∈ l.jobs := by
        rintro ⟨batch, member⟩
        exact unused _ id' true rfl member
      exact {
        loading := iff_of_false Bool.false_ne_true load
        saving := iff_of_false Bool.false_ne_true save
        overlay := by intro name v held; simp at held
        latest := by intro name v held; simp at held
        batch := fun batch member => absurd member (unused _ id' true rfl)
        numbered := fun w member object => absurd (inv.objects w member) (by omega)
        newest := fun w member _ => (inv.objects w member).le }
    · show Cached _ _ id' account (Function.update l.accountAt l.accountCount {} account)
      rw [old found]
      exact inv.cached id' account found
  · intro w member
    exact Nat.lt_succ_of_lt (inv.objects w member)
  · intro id' name w last
    rcases inv.kept id' name w last with safe | ⟨found, held⟩
    · exact Or.inl safe
    · refine Or.inr ⟨keep _ _ found, ?_⟩
      show (Function.update l.accountAt l.accountCount {} w.object).dirty[name]? = some w.value
      rw [old found]
      exact held
  · intro id' noted
    obtain ⟨account, found, pending⟩ := inv.failed id' noted
    refine ⟨account, keep _ _ found, ?_⟩
    show (Function.update l.accountAt l.accountCount {} account).dirty.isEmpty = false
    rw [old found]
    exact pending

/-- Accounts leave the cache clean and idle. -/
theorem Inv.evict {l : Ledger} (inv : Inv l) (keep : Nat → Nat → Bool)
    (idle : ∀ id account : Nat, l.accounts[id]? = some account → keep id account = false →
      (l.accountAt account).loading = false ∧ (l.accountAt account).saving = false ∧
        (l.accountAt account).dirty.isEmpty = true) :
    Inv { l with accounts := l.accounts.filter keep } := by
  have lookup : ∀ id account : Nat, (l.accounts.filter keep)[id]? = some account ↔
      l.accounts[id]? = some account ∧ keep id account = true := by
    intro id account
    rw [Std.ExtTreeMap.getElem?_filter', Option.filter_eq_some_iff]
  have busy : ∀ id account : Nat, l.accounts[id]? = some account →
      ¬ ((l.accountAt account).loading = false ∧ (l.accountAt account).saving = false ∧
        (l.accountAt account).dirty.isEmpty = true) →
      (l.accounts.filter keep)[id]? = some account := by
    intro id account found working
    refine (lookup id account).mpr ⟨found, ?_⟩
    by_contra dropped
    exact working (idle id account found (by simpa using dropped))
  refine { inv with
    bound := ?_, injective := ?_, owned := ?_, cached := ?_, kept := ?_, failed := ?_ }
  · intro id account found
    exact inv.bound id account ((lookup id account).mp found).1
  · intro id id' account found found'
    exact inv.injective id id' account ((lookup _ _).mp found).1 ((lookup _ _).mp found').1
  · intro task member account id save named
    have found := inv.owned task member account id save named
    refine busy id account found ?_
    rintro ⟨notLoading, notSaving, -⟩
    cases save with
    | false => exact inv.free_load found notLoading task member named
    | true => exact inv.free_save found notSaving task member named
  · intro id account found
    exact inv.cached id account ((lookup id account).mp found).1
  · intro id name w last
    rcases inv.kept id name w last with safe | ⟨found, held⟩
    · exact Or.inl safe
    · refine Or.inr ⟨busy id w.object found ?_, held⟩
      rintro ⟨-, -, empty⟩
      rw [Std.ExtTreeMap.isEmpty_iff.mp empty] at held
      simp at held
  · intro id noted
    obtain ⟨account, found, pending⟩ := inv.failed id noted
    refine ⟨account, busy id account found ?_, pending⟩
    rintro ⟨-, -, empty⟩
    rw [pending] at empty
    cases empty

/-- A completion of a load or a save changes its account only. -/
theorem Inv.deliver {l : Ledger} (inv : Inv l) {task : Task} {outcome : Outcome}
    {rest : List (Task × Outcome)} (done : l.done = (task, outcome) :: rest)
    {account id : Nat} {save : Bool} (owner : task.owner = some (account, id, save))
    {a : Account} {ghost : Ghost} (accepted : ghost.accepted = l.ghost.accepted)
    (durable : ghost.durable = l.ghost.durable)
    (cached : l.accounts[id]? = some account →
      Cached (rest.map Prod.fst ++ l.flying) l.ghost.accepted id account a)
    (cleared : ∀ (name : String) (v : Value), (l.accountAt account).dirty[name]? = some v →
      a.dirty[name]? = some v ∨ { id, name, object := account, value := v } ∈ l.ghost.durable)
    (others : ∀ id', id' ≠ id → ghost.saveFailed id' = l.ghost.saveFailed id')
    (failed : ghost.saveFailed id = true → a.dirty.isEmpty = false) :
    Inv { l.set account a with done := rest, ghost } := by
  have jobs : l.jobs = task :: (rest.map Prod.fst ++ l.flying) := by
    unfold Ledger.jobs
    rw [done]
    rfl
  have found : l.accounts[id]? = some account :=
    inv.owned task (by rw [jobs]; exact List.mem_cons_self) account id save owner
  have gone : ∀ other, other.owner ≠ task.owner →
      (other ∈ rest.map Prod.fst ++ l.flying ↔ other ∈ l.jobs) := by
    intro other differ
    rw [jobs, List.mem_cons, or_iff_right]
    rintro rfl
    exact differ rfl
  have alone := inv.alone
  rw [jobs, List.filterMap_cons_some owner] at alone
  refine {
    bound := inv.bound
    injective := inv.injective
    owned := fun other member => inv.owned other (by
      rw [jobs]
      exact List.mem_cons_of_mem _ member)
    alone := alone.of_cons
    cached := ?_
    objects := by rw [accepted]; exact inv.objects
    ordered := by rw [accepted]; exact inv.ordered
    durable := by rw [accepted, durable]; exact inv.durable
    sequence := by rw [durable]; exact inv.sequence
    unsent := by rw [durable]; exact inv.unsent
    sent := ?_
    kept := ?_
    failed := ?_ }
  · intro id' other found'
    rw [accepted]
    by_cases this : other = account
    · subst this
      rw [inv.injective id' id other found' found]
      show Cached _ _ id other ((l.set other a).accountAt other)
      rw [l.set_self]
      exact cached found
    · show Cached _ _ id' other ((l.set account a).accountAt other)
      rw [l.set_other a this]
      refine (inv.cached id' other found').of_jobs ?_
      rintro task' ⟨saves, named⟩
      refine gone task' ?_
      rw [named, owner]
      intro same
      cases same
      exact this rfl
  · intro object id' batch member
    rw [durable]
    exact inv.sent object id' batch (by rw [done]; exact List.mem_cons_of_mem _ member)
  · intro id' name w last
    rw [accepted] at last
    rw [durable]
    rcases inv.kept id' name w last with safe | ⟨found', held⟩
    · exact Or.inl safe
    · by_cases this : w.object = account
      · have shape : w = { id, name, object := account, value := w.value } := by
          obtain ⟨-, sameId, sameName⟩ := latest_mem last
          rw [this] at found'
          rw [inv.injective id id' account found found', ← sameId, ← sameName, ← this]
        rw [this] at held
        rcases cleared name w.value held with pending | safe
        · right
          refine ⟨found', ?_⟩
          show ((l.set account a).accountAt w.object).dirty[name]? = some w.value
          rw [this, l.set_self]
          exact pending
        · rw [← shape] at safe
          exact Or.inl safe
      · refine Or.inr ⟨found', ?_⟩
        show ((l.set account a).accountAt w.object).dirty[name]? = some w.value
        rw [l.set_other a this]
        exact held
  · intro id' noted
    by_cases sameId : id' = id
    · subst sameId
      refine ⟨account, found, ?_⟩
      show ((l.set account a).accountAt account).dirty.isEmpty = false
      rw [l.set_self]
      exact failed noted
    · obtain ⟨other, found', pending⟩ := inv.failed id' (others id' sameId ▸ noted)
      refine ⟨other, found', ?_⟩
      show ((l.set account a).accountAt other).dirty.isEmpty = false
      rw [l.set_other]
      · exact pending
      · rintro rfl
        exact sameId (inv.injective id' id other found' found)

/-- The worker has run a job and the storage is as it was. -/
theorem Inv.missed {l : Ledger} (inv : Inv l) {task : Task} {outcome : Outcome}
    {rest : List Task} (flying : l.flying = task :: rest)
    (unsaved : ∀ account id batch, task = .save account id batch → outcome ≠ .saved) :
    Inv { l with done := l.done ++ [(task, outcome)], flying := rest } := by
  have jobs : { l with done := l.done ++ [(task, outcome)], flying := rest : Ledger }.jobs =
      l.jobs := by
    unfold Ledger.jobs
    rw [flying]
    simp
  refine { inv with
    owned := by rw [jobs]; exact inv.owned
    alone := by rw [jobs]; exact inv.alone
    cached := by rw [jobs]; exact inv.cached
    unsent := fun account id batch member => inv.unsent account id batch (by
      rw [flying]
      exact List.mem_cons_of_mem _ member)
    sent := ?_ }
  intro account id batch member
  rcases List.mem_append.mp member with old | new
  · exact inv.sent account id batch old
  · cases List.mem_singleton.mp new
    exact absurd rfl (unsaved account id batch rfl)

theorem mem_writesOf {account id : Nat} {batch : Values} {w : Write} :
    w ∈ writesOf account id batch ↔
      w.id = id ∧ w.object = account ∧ batch[w.name]? = some w.value := by
  unfold writesOf
  rw [List.mem_map]
  constructor
  · rintro ⟨⟨name, v⟩, member, rfl⟩
    exact ⟨rfl, rfl, Std.ExtTreeMap.mem_toList_iff_getElem?_eq_some.mp member⟩
  · rintro ⟨rfl, rfl, found⟩
    exact ⟨(w.name, w.value), Std.ExtTreeMap.mem_toList_iff_getElem?_eq_some.mpr found, rfl⟩

theorem writesOf_pairwise (account id : Nat) (batch : Values) :
    (writesOf account id batch).Pairwise fun x y => x.name ≠ y.name := by
  unfold writesOf
  rw [List.pairwise_map]
  refine (Std.ExtTreeMap.distinct_keys_toList (t := batch)).imp ?_
  intro x y differ same
  exact differ (by simpa using same)

/-- A batch has reached the storage, whatever the service is told. -/
theorem Inv.landed {l : Ledger} (inv : Inv l) {account id : Nat} {batch : Values}
    {outcome : Outcome} {rest : List Task} (flying : l.flying = .save account id batch :: rest) :
    Inv { l with
      done := l.done ++ [(.save account id batch, outcome)]
      flying := rest
      ghost.durable := l.ghost.durable ++ writesOf account id batch } := by
  have queued : Task.save account id batch ∈ l.jobs := by
    unfold Ledger.jobs
    rw [flying]
    simp
  have jobs : ∀ ghost, { l with
      done := l.done ++ [(.save account id batch, outcome)], flying := rest, ghost : Ledger }.jobs =
      l.jobs := by
    intro ghost
    unfold Ledger.jobs
    rw [flying]
    simp
  have found := inv.owned _ queued account id true rfl
  have others : ∀ object id' batch', Task.save object id' batch' ∈ rest → id' ≠ id := by
    rintro object id' batch' member rfl
    have alone := inv.alone
    unfold Ledger.jobs at alone
    rw [flying, List.filterMap_append, List.nodup_append] at alone
    have twice := alone.2.1
    have named : (Task.save account id' batch).owner = some (account, id', true) := rfl
    rw [List.filterMap_cons_some named, List.nodup_cons] at twice
    have found' := inv.owned (.save object id' batch') (by
      unfold Ledger.jobs
      rw [flying]
      simp [member]) object id' true rfl
    rw [found] at found'
    cases found'
    exact twice.1 (List.mem_filterMap.mpr ⟨_, member, rfl⟩)
  refine { inv with
    owned := by rw [jobs]; exact inv.owned
    alone := by rw [jobs]; exact inv.alone
    cached := by rw [jobs]; exact inv.cached
    durable := ?_, sequence := ?_, unsent := ?_, sent := ?_, kept := ?_ }
  · intro w member
    rcases List.mem_append.mp member with old | new
    · exact inv.durable w old
    · obtain ⟨rfl, rfl, written⟩ := mem_writesOf.mp new
      exact (((inv.cached _ _ found).batch batch queued).2 w.name w.value written).1
  · refine List.pairwise_append.mpr ⟨inv.sequence, ?_, ?_⟩
    · exact (writesOf_pairwise account id batch).imp fun differ _ same => absurd same differ
    · intro d stored w new sameId sameName
      obtain ⟨rfl, rfl, written⟩ := mem_writesOf.mp new
      have fresh := inv.unsent w.object w.id batch (by rw [flying]; exact List.mem_cons_self)
        d stored sameId w.value (by rw [sameName]; exact written)
      rw [sameName] at fresh
      exact fresh
  · intro object id' batch' member d stored sameId v written
    rcases List.mem_append.mp stored with old | new
    · exact inv.unsent object id' batch' (by rw [flying]; exact List.mem_cons_of_mem _ member)
        d old sameId v written
    · exact absurd ((mem_writesOf.mp new).1 ▸ sameId.symm) (others object id' batch' member)
  · intro object id' batch' member name v written
    rcases List.mem_append.mp member with old | new
    · exact List.mem_append_left _ (inv.sent object id' batch' old name v written)
    · cases List.mem_singleton.mp new
      exact List.mem_append_right _ (mem_writesOf.mpr ⟨rfl, rfl, written⟩)
  · intro id' name w last
    rcases inv.kept id' name w last with safe | held
    · exact Or.inl (List.mem_append_left _ safe)
    · exact Or.inr held

end Source2Root.Prefs
