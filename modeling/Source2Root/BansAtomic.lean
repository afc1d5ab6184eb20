import Mathlib
import Source2Root.Bans
import Source2Root.Transition

/-!
# A ban mutation that fails leaves everything as it was

Every failing file-system call before the rename leaves the ban file alone, and
the two checks after it find the complete new text there.  Memory and the
remembered text move together, and only on success.  While the file differs
from the remembered text, nothing more is written.
-/

set_option autoImplicit false

namespace Source2Root.Bans

/-- The rename has happened when these are reported. -/
def Error.afterRename : Error → Bool
  | .directoryDurability | .directorySync => true
  | _ => false

/-- The map a mutation asks for, when its request is valid and asks for a change. -/
def Mutation.candidate (bans : BanMap) : Mutation → Except Error BanMap
  | .add account minutes reason actor now => do
      let ban ← newBan account minutes reason actor now
      return bans.insert account ban
  | .remove account => .ok (bans.erase account)

/-- The complete new text of the ban file after a mutation. -/
def Mutation.newContents (library : Library) (store : BanStore) (contents : Text)
    (mutation : Mutation) : Except Error Text := do
  let candidate ← mutation.candidate store.bans
  encode library contents candidate

/-- Only the removal of an account that is not banned has nothing to write. -/
def Mutation.needsToWrite (bans : BanMap) : Mutation → Bool
  | .add .. => true
  | .remove account => bans.contains account

/-! ## Writing the file -/

theorem writeAll_complete : ∀ (replies : List WriteReply) (contents : Text),
    (writeAll replies contents).2 = true → (writeAll replies contents).1 = contents := by
  intro replies
  induction replies with
  | nil =>
      intro contents all
      cases contents with
      | nil => rfl
      | cons c rest => cases all
  | cons reply replies ih =>
      intro contents all
      cases contents with
      | nil => rfl
      | cons c rest =>
          cases reply with
          | interrupted => exact ih (c :: rest) all
          | failed => cases all
          | wrote count =>
              cases count with
              | zero => cases all
              | succ count =>
                  have later := ih (rest.drop count) all
                  simp only [writeAll, later, List.cons_append, List.take_append_drop]

/-- The ban file after a write: untouched, or whole. -/
theorem atomicWrite_file (disk : Disk) (contents : Text) (replies : WriteReplies) :
    match atomicWrite disk contents replies with
    | (.ok (), after) => after.file = .regular contents
    | (.error e, after) =>
        if e.afterRename then after.file = .regular contents else after.file = disk.file := by
  unfold atomicWrite
  by_cases directories : replies.directories = true
  · by_cases created : replies.created = true
    · simp only [directories, created, Bool.not_true, Bool.false_eq_true, if_false]
      have whole := writeAll_complete replies.writes contents
      generalize writeAll replies.writes contents = written at whole
      obtain ⟨temporary, all⟩ := written
      simp only at whole ⊢
      by_cases moved : (!(all && replies.synced) || !replies.closed || !replies.renamed) = true
      · rw [if_pos moved]
        rfl
      · rw [if_neg moved]
        simp only [Bool.or_eq_true, Bool.not_eq_true', not_or, Bool.not_eq_false,
          Bool.and_eq_true] at moved
        have complete := whole moved.1.1.1
        by_cases opened : replies.directoryOpened = true
        · by_cases synced : (!replies.directorySynced || !replies.directoryClosed) = true
          · simp [opened, synced, complete, Error.afterRename]
          · simp [opened, synced, complete]
        · simp [opened, complete, Error.afterRename]
    · simp [directories, created, Error.afterRename]
  · simp [directories, Error.afterRename]

/-! ## One mutation -/

theorem read_ok {disk : Disk} {replies : ReadReplies} {text : Text}
    (succeeded : read disk replies = .ok text) : disk.file = .regular text := by
  unfold read at succeeded
  split at succeeded
  · rename_i there
    repeat' split at succeeded
    all_goals first
      | cases succeeded; exact there
      | cases succeeded
  · cases succeeded
  · cases succeeded

/-- The ban file after an attempt that failed: the old one, or after the rename
the complete new one. -/
def Spared (e : Error) (text : Except Error Text) (before after : World) : Prop :=
  after.store = before.store ∧
    (after.disk.file = before.disk.file ∨
      e.afterRename = true ∧ ∃ contents, text = .ok contents ∧ after.disk.file = .regular contents)

/-- What a save leaves, for the candidate it was given. -/
theorem saveBans_spec (library : Library) (replies : Replies) (candidate : BanMap) {w : World}
    {contents : Text} (loaded : w.store.contents = some contents) :
    match saveBans library replies candidate w with
    | (.ok (), after) => ∃ text, encode library contents candidate = .ok text ∧
        w.disk.file = .regular contents ∧
        after.store = { bans := candidate, contents := some text } ∧
        after.disk.file = .regular text
    | (.error e, after) => Spared e (encode library contents candidate) w after := by
  unfold saveBans
  simp only [loaded]
  cases reading : read w.disk replies.read with
  | error e => exact ⟨rfl, Or.inl rfl⟩
  | ok previous =>
      have there := read_ok reading
      by_cases changed : previous ≠ contents
      · simp only [if_pos changed]
        exact ⟨rfl, Or.inl rfl⟩
      · simp only [if_neg changed]
        have same : previous = contents := not_not.mp changed
        subst same
        cases encoding : encode library previous candidate with
        | error e => exact ⟨rfl, Or.inl rfl⟩
        | ok text =>
            have written := atomicWrite_file w.disk text replies.write
            simp only
            generalize atomicWrite w.disk text replies.write = outcome at written
            obtain ⟨result, disk⟩ := outcome
            cases result with
            | ok _ => exact ⟨text, rfl, there, rfl, written⟩
            | error e =>
                refine ⟨rfl, ?_⟩
                simp only at written
                split at written
                · rename_i late
                  exact Or.inr ⟨late, text, rfl, written⟩
                · exact Or.inl written

/-- A save of a store whose text is not the file's touches nothing. -/
theorem saveBans_refused (library : Library) (replies : Replies) (candidate : BanMap) {w : World}
    {contents : Text} (loaded : w.store.contents = some contents)
    (differs : w.disk.file ≠ .regular contents) :
    ∃ e, saveBans library replies candidate w = (.error e, w) := by
  unfold saveBans
  simp only [loaded]
  cases reading : read w.disk replies.read with
  | error e => exact ⟨e, rfl⟩
  | ok previous =>
      have there := read_ok reading
      have changed : previous ≠ contents := fun same => differs (same ▸ there)
      simp only [if_pos changed]
      exact ⟨_, rfl⟩

theorem load_loaded (library : Library) (replies : Replies) {w : World} {contents : Text}
    (loaded : w.store.contents = some contents) : load library replies w = (.ok (), w) := by
  unfold load
  simp only [loaded]

/-- A mutation of a loaded store is a save of its candidate, or ends before it. -/
theorem mutate_cases (library : Library) (replies : Replies) (mutation : Mutation) {w : World}
    {contents : Text} (loaded : w.store.contents = some contents) :
    (∃ e, mutate library replies w mutation = (.error e, w)) ∨
      mutation.needsToWrite w.store.bans = false ∧
        mutate library replies w mutation = (.ok false, w) ∨
      ∃ candidate, mutation.candidate w.store.bans = .ok candidate ∧
        (w.store.bans.size ≤ entryLimit → candidate.size ≤ entryLimit) ∧
        mutate library replies w mutation =
          ((saveBans library replies candidate w).1.map fun _ => true,
            (saveBans library replies candidate w).2) := by
  have opened := load_loaded library replies loaded
  cases mutation with
  | add account minutes reason actor now =>
      simp only [mutate, addBan, opened, Mutation.candidate]
      cases newBan account minutes reason actor now with
      | error e => exact Or.inl ⟨e, rfl⟩
      | ok ban =>
          simp only
          by_cases full : (w.store.bans.insert account ban).size > entryLimit
          · simp only [if_pos full]
            exact Or.inl ⟨_, rfl⟩
          · simp only [if_neg full]
            refine Or.inr (Or.inr ⟨w.store.bans.insert account ban, rfl, ?_, ?_⟩)
            · exact fun _ => not_lt.mp full
            · generalize saveBans library replies (w.store.bans.insert account ban) w = outcome
              obtain ⟨result, after⟩ := outcome
              cases result with
              | error e => rfl
              | ok _ => rfl
  | remove account =>
      simp only [mutate, removeBan, opened, Mutation.candidate, Mutation.needsToWrite]
      by_cases valid : (!validSteamIdentity account) = true
      · simp only [if_pos valid]
        exact Or.inl ⟨_, rfl⟩
      · simp only [if_neg valid]
        by_cases banned : w.store.bans.contains account = true
        · simp only [banned, Bool.not_true, Bool.false_eq_true, if_false]
          refine Or.inr (Or.inr ⟨w.store.bans.erase account, rfl, ?_, ?_⟩)
          · exact fun few => Std.ExtTreeMap.size_erase_le.trans few
          · generalize saveBans library replies (w.store.bans.erase account) w = outcome
            obtain ⟨result, after⟩ := outcome
            cases result with
            | error e => rfl
            | ok _ => rfl
        · have absent := Bool.eq_false_of_not_eq_true banned
          simp only [absent, Bool.not_false, if_true]
          exact Or.inr (Or.inl ⟨trivial, trivial⟩)

/-- A mutation that reports failure. -/
theorem mutate_spared (library : Library) (replies : Replies) (mutation : Mutation) {w : World}
    {contents : Text} (loaded : w.store.contents = some contents) {e : Error}
    (failed : (mutate library replies w mutation).1 = .error e) :
    Spared e (mutation.newContents library w.store contents) w
      (mutate library replies w mutation).2 := by
  rcases mutate_cases library replies mutation loaded with
    ⟨_, ended⟩ | ⟨-, ended⟩ | ⟨candidate, asked, -, saved⟩
  · rw [ended]
    exact ⟨rfl, Or.inl rfl⟩
  · rw [ended]
    exact ⟨rfl, Or.inl rfl⟩
  · have spec := saveBans_spec library replies candidate loaded
    rw [saved] at failed ⊢
    generalize saveBans library replies candidate w = outcome at spec failed
    obtain ⟨result, after⟩ := outcome
    cases result with
    | ok _ => cases failed
    | error cause =>
        cases failed
        simpa [Mutation.newContents, asked, bind, Except.bind] using spec

/-- While the file is not the remembered text, a mutation moves nothing, and one
that needs to write is refused. -/
theorem mutate_refused (library : Library) (replies : Replies) (mutation : Mutation) {w : World}
    {contents : Text} (loaded : w.store.contents = some contents)
    (differs : w.disk.file ≠ .regular contents) :
    (mutate library replies w mutation).2 = w ∧
      (mutation.needsToWrite w.store.bans = true →
        ∃ e, (mutate library replies w mutation).1 = .error e) := by
  rcases mutate_cases library replies mutation loaded with
    ⟨e, ended⟩ | ⟨idle, ended⟩ | ⟨candidate, -, -, saved⟩
  · rw [ended]
    exact ⟨rfl, fun _ => ⟨e, rfl⟩⟩
  · rw [ended]
    exact ⟨rfl, fun needs => absurd (needs.symm.trans idle) (by simp)⟩
  · obtain ⟨e, refused⟩ := saveBans_refused library replies candidate loaded differs
    rw [saved, refused]
    exact ⟨rfl, fun _ => ⟨e, rfl⟩⟩

/-! ## Runs -/

theorem diverged_run {library : Library} {contents : Text} : ∀ {history : List Label} {w t : World},
    w.store.contents = some contents → w.disk.file ≠ .regular contents →
    (∀ node, Label.edit node ∈ history → node ≠ .regular contents) →
    Transition.run (next library) w history = some t →
    t.store = w.store ∧ t.disk.file ≠ .regular contents := by
  intro history
  induction history with
  | nil =>
      intro w t _ differs _ ran
      cases ran
      exact ⟨rfl, differs⟩
  | cons label rest ih =>
      intro w t loaded differs foreign ran
      have later : ∀ node, Label.edit node ∈ rest → node ≠ .regular contents :=
        fun node member => foreign node (List.mem_cons_of_mem _ member)
      cases label with
      | load replies =>
          simp only [Transition.run, next, load_loaded library replies loaded] at ran
          exact ih loaded differs later ran
      | mutate mutation replies =>
          simp only [Transition.run, next,
            (mutate_refused library replies mutation loaded differs).1] at ran
          exact ih loaded differs later ran
      | edit node =>
          simp only [Transition.run, next] at ran
          have other := foreign node (List.mem_cons_self ..)
          exact ih (w := { w with disk.file := node }) loaded other later ran

/-- Failed mutations of a loaded store, and every mutation while the file is not
the remembered text. -/
theorem mutation_atomic (library : Library) {w : World} {contents : Text}
    (loaded : w.store.contents = some contents) :
    (∀ mutation replies e, (mutate library replies w mutation).1 = .error e →
      (mutate library replies w mutation).2.store = w.store ∧
        ((mutate library replies w mutation).2.disk.file = w.disk.file ∨
          e.afterRename = true ∧
            ∃ text, mutation.newContents library w.store contents = .ok text ∧
              (mutate library replies w mutation).2.disk.file = .regular text)) ∧
    (w.disk.file ≠ .regular contents → ∀ history t,
      (∀ node, Label.edit node ∈ history → node ≠ .regular contents) →
      Transition.run (next library) w history = some t →
        t.store = w.store ∧ t.disk.file ≠ .regular contents ∧
          ∀ mutation replies, (mutate library replies t mutation).2 = t ∧
            (mutation.needsToWrite t.store.bans = true →
              ∃ e, (mutate library replies t mutation).1 = .error e)) := by
  constructor
  · intro mutation replies e failed
    exact mutate_spared library replies mutation loaded failed
  · intro differs history t foreign ran
    obtain ⟨kept, apart⟩ := diverged_run loaded differs foreign ran
    refine ⟨kept, apart, ?_⟩
    intro mutation replies
    exact mutate_refused library replies mutation (kept ▸ loaded) apart

/-! ## A store with one ban

The library on the two documents of a store that gains a permanent ban. -/

def savedEntry : Json.Members :=
  [("actor".toList, .string "server".toList),
    ("created_utc".toList, .string "1970-01-02T00:00:00Z".toList),
    ("expires_utc".toList, .null),
    ("reason".toList, .string "spam".toList),
    ("steamid".toList, .string "76561197960265729".toList)]

def one : JsonInteger := ⟨1, by decide⟩

def documentOf (entries : List Json.Members) : Json :=
  .object [("bans".toList, .array (entries.map Json.object)), ("schema".toList, .integer one)]

def savedContents : Text :=
  ("\x7b\n  \"bans\": [\n    \x7b\n      \"actor\": \"server\",\n" ++
    "      \"created_utc\": \"1970-01-02T00:00:00Z\",\n      \"expires_utc\": null,\n" ++
    "      \"reason\": \"spam\",\n      \"steamid\": \"76561197960265729\"\n    \x7d\n  ],\n" ++
    "  \"schema\": 1\n\x7d").toList

def sample : Library where
  parse text :=
    if text = initialContents then .ok (documentOf [])
    else if text = savedContents ++ ['\n'] then .ok (documentOf [savedEntry])
    else .error none
  dump
    | .object [(bans, .array []), (schema, .integer n)] =>
        if bans = "bans".toList ∧ schema = "schema".toList ∧ n = one then some (initialContents.dropLast)
        else none
    | .object [(bans, .array [.object [(actor, .string a), (created, .string c), (expires, .null),
        (reason, .string r), (steamid, .string s)]]), (schema, .integer n)] =>
        if bans = "bans".toList ∧ schema = "schema".toList ∧ n = one ∧
            [(actor, a), (created, c), (reason, r), (steamid, s)] =
              [("actor".toList, "server".toList),
                ("created_utc".toList, "1970-01-02T00:00:00Z".toList),
                ("reason".toList, "spam".toList),
                ("steamid".toList, "76561197960265729".toList)] ∧
            expires = "expires_utc".toList then some savedContents
        else none
    | _ => none

def emptyWorld : World where
  store := { bans := ∅, contents := some initialContents }
  disk := { file := .regular initialContents }

def banRequest : Mutation := .add 76561197960265729 0 "spam".toList "server".toList 86400

def lateReplies : Replies where
  write := { writes := [.interrupted, .wrote 20, .wrote 1000], directorySynced := false }

set_option maxRecDepth 100000 in
theorem lateReplies_fail : (mutate sample lateReplies emptyWorld banRequest).1 =
      .error .directorySync ∧
    (mutate sample lateReplies emptyWorld banRequest).2.disk.file =
      .regular (savedContents ++ ['\n']) := ⟨rfl, rfl⟩

set_option maxRecDepth 100000 in
/-- The sync of the directory fails: the file is the new one, memory the old one,
and the ban is refused from then on. -/
theorem mutation_atomic_synced_late :
    (mutate sample lateReplies emptyWorld banRequest).2.store = emptyWorld.store ∧
      ∀ replies, ∃ e, (mutate sample replies
        (mutate sample lateReplies emptyWorld banRequest).2 banRequest).1 = .error e := by
  obtain ⟨failed, written⟩ := lateReplies_fail
  obtain ⟨spared, -⟩ := mutation_atomic sample (w := emptyWorld) rfl
  obtain ⟨kept, -⟩ := spared banRequest lateReplies _ failed
  refine ⟨kept, ?_⟩
  intro replies
  have loaded : (mutate sample lateReplies emptyWorld banRequest).2.store.contents =
      some initialContents := by rw [kept]; rfl
  have differs : (mutate sample lateReplies emptyWorld banRequest).2.disk.file ≠
      .regular initialContents := by
    rw [written]
    decide
  obtain ⟨-, refused⟩ := mutation_atomic sample loaded
  obtain ⟨-, -, later⟩ := refused differs [] _ (by simp) rfl
  exact (later banRequest replies).2 rfl

end Source2Root.Bans
