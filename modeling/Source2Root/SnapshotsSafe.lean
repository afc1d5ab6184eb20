import Source2Root.SnapshotsIndex

/-!
# A crash never loses what was staged

`Books` is the invariant of the store: the index on the disk is one that `state`
accepts and the directory of every snapshot in it passes `verify`.  Each command
keeps it at every point where it can be cut off, and changes the index only in
the ways `Later` allows; the histories of whole runs follow by induction on the
commands.
-/

set_option autoImplicit false

namespace Source2Root.Snapshots

open Source2Root.Python (Str Dict str)
open Source2Root.CrashSafe

section
variable {lib : Library} {config : Config}

/-- The disk holds an accepted index, or no store has been written to it yet. -/
structure Books (lib : Library) (config : Config) (d : Disk) (doc : Document) : Prop where
  fine : doc.Fine config
  index : d.index = some (doc.encoded lib config) ∨
    d.index = none ∧ doc = Document.empty ∧ d.directories = 0
  kept : ∀ n record, Dict.find (Python.decimal n) doc.releases = some record →
    ∃ value, verify lib config d n record = .ok value

theorem Books.state {d : Disk} {doc : Document} (books : Books lib config d doc) :
    state lib config d = .ok doc := by
  rcases books.index with saved | ⟨missing, fresh, none_⟩
  · exact state_encoded books.fine saved
  · rw [Snapshots.state, missing, fresh]
    exact if_pos none_

theorem Books.congr {d e : Disk} {doc : Document} (books : Books lib config d doc)
    (index : e.index = d.index) (releases : e.releases = d.releases)
    (directories : e.directories = d.directories) : Books lib config e doc where
  fine := books.fine
  index := by
    rw [index, directories]
    exact books.index
  kept := fun n record found => by
    rw [verify, releases]
    exact books.kept n record found

theorem books_empty : Books lib config Disk.empty Document.empty where
  fine := Document.empty_fine
  index := .inr ⟨rfl, rfl, rfl⟩
  kept := fun _ _ nothing => nomatch nothing

/-- How one command changes the index. -/
structure Later (doc doc' : Document) : Prop where
  highest : doc.highest ≤ doc'.highest
  records : ∀ n record, Dict.find (Python.decimal n) doc'.releases = some record →
    n ≤ doc.highest → Dict.find (Python.decimal n) doc.releases = some record
  previous : ∀ n ∈ doc'.previous, n ∈ doc.previous ∨ n ∈ doc.selected

theorem Later.refl (doc : Document) : Later doc doc where
  highest := le_rfl
  records := fun _ _ found _ => found
  previous := fun _ kept => .inl kept

/-! ## Saving an index -/

theorem save_safe {d : Disk} {doc doc' : Document} (books : Books lib config d doc)
    (fine : doc'.Fine config)
    (kept : ∀ n record, Dict.find (Python.decimal n) doc'.releases = some record →
      ∃ value, verify lib config d n record = .ok value) :
    Safe (fun e => Books lib config e doc ∨ Books lib config e doc')
      (fun _ e => Books lib config e doc' ∧ e.index = some (doc'.encoded lib config) ∧
        e.releases = d.releases ∧ e.directories = d.directories)
      (save lib config doc') d := by
  have after : Books lib config
      { d with index := some (doc'.encoded lib config), draft := none } doc' :=
    { fine := fine, index := .inl rfl, kept := kept }
  have body : Safe (fun e => Books lib config e doc ∨ Books lib config e doc')
      (fun _ e => e = { d with index := some (doc'.encoded lib config), draft := none })
      (do
        Program.effect .makeDraft
        Program.effect (.writeDraft (doc'.encoded lib config))
        Program.effect .replaceIndex : Store Unit) d := by
    refine safe_effect_bind (.inl books) ?_
    refine safe_effect_bind (.inl (books.congr rfl rfl rfl)) ?_
    apply safe_effect (.inl (books.congr rfl rfl rfl)) (.inr after) rfl
  apply safe_ensuring body
  · intro e either
    have kept : Books lib config (Effect.apply .dropDraft e) doc ∨
        Books lib config (Effect.apply .dropDraft e) doc' :=
      either.imp (fun old => old.congr rfl rfl rfl) fun new => new.congr rfl rfl rfl
    exact safe_effect either kept kept
  · rintro _ ends
    rw [ends]
    exact ⟨after.congr rfl rfl rfl, rfl, rfl, rfl⟩

theorem check_safe {I : Disk → Prop} {Q : Unit → Disk → Prop} {d : Disk} {n : Nat}
    {record : Record} (here : I d)
    (passed : ∀ value, verify lib config d n record = .ok value → Q () d) :
    Safe I Q (check lib config n record) d := by
  refine safe_read_bind here ?_
  refine safe_lift_bind here ?_
  intro value ok
  exact safe_pure here (passed value ok)

theorem readState_eq {α : Type} {d : Disk} {doc : Document} {f : Document → Store α}
    (books : Books lib config d doc) : (readState lib config >>= f) d = f doc d := by
  have read : readState lib config d = ([], .ok doc) := by
    rw [readState, Program.read_bind, Program.lift_apply, books.state]
  have run := @Program.bind_ok _ _ _ _ _ _ (readState lib config) f d doc (by rw [read])
  rw [run, Program.final, read]
  rfl

theorem readState_bind {α : Type} {I : Disk → Prop} {S : α → Disk → Prop} {d : Disk}
    {doc : Document} {f : Document → Store α} (books : Books lib config d doc) (here : I d)
    (rest : Safe I S (f doc) d) : Safe I S (readState lib config >>= f) d := by
  have first : Safe I (fun a e => a = doc ∧ e = d) (readState lib config) d := by
    refine safe_read_bind here ?_
    apply safe_lift here
    intro a ok
    rw [books.state] at ok
    cases ok
    exact ⟨rfl, rfl⟩
  apply safe_bind first
  rintro _ _ _ ⟨rfl, rfl⟩
  exact rest

/-! ## Making a directory -/

/-- Once an index is there, only the directories it names count. -/
theorem Books.frame {d e : Disk} {doc : Document} (books : Books lib config d doc)
    (saved : e.index = some (doc.encoded lib config))
    (same : ∀ n record, Dict.find (Python.decimal n) doc.releases = some record →
      Dict.find (Python.decimal n) e.releases = Dict.find (Python.decimal n) d.releases) :
    Books lib config e doc where
  fine := books.fine
  index := .inl saved
  kept := fun n record found => by
    rw [verify, same n record found]
    exact books.kept n record found

theorem contents_frame {raw : Text} {value : Manifest} :
    ∀ effect ∈ contents raw value, ∀ d : Disk,
      (effect.apply d).index = d.index ∧ (effect.apply d).releases = d.releases := by
  intro effect inside d
  rcases List.mem_append.mp inside with begun | files
  · simp only [List.mem_cons, List.not_mem_nil, or_false] at begun
    rcases begun with rfl | rfl | rfl <;> exact ⟨rfl, rfl⟩
  · obtain ⟨e, -, written⟩ := List.mem_flatMap.mp files
    simp only [List.mem_cons, List.not_mem_nil, or_false] at written
    rcases written with rfl | rfl <;> exact ⟨rfl, rfl⟩

theorem makeDirectory_safe {d : Disk} {doc : Document} {raw : Text} {value : Manifest}
    (books : Books lib config d doc) (saved : d.index = some (doc.encoded lib config))
    (absent : Dict.find (Python.decimal value.sequence) doc.releases = none)
    (different : (value.files.map Entry.name).Nodup) :
    Safe (fun e => Books lib config e doc ∧ e.index = some (doc.encoded lib config))
      (fun _ e => ∃ data, Holding value.files data ∧
        Dict.find (Python.decimal value.sequence) e.releases
          = some { manifest := some raw, data := some data })
      (makeDirectory raw value (Python.decimal value.sequence)) d := by
  have still : ∀ e : Disk, e.index = d.index ∧ e.releases = d.releases →
      Books lib config e doc ∧ e.index = some (doc.encoded lib config) := by
    rintro e ⟨index, releases⟩
    rw [saved] at index
    exact ⟨books.frame index fun n record _ => by rw [releases], index⟩
  obtain ⟨data, filled, holding⟩ := @after_contents raw value
    { d with staging := some { manifest := none, data := none } } rfl different
  have body : Safe (fun e => Books lib config e doc ∧ e.index = some (doc.encoded lib config))
      (fun _ e => e = { d with
        releases := Dict.assign (Python.decimal value.sequence)
          { manifest := some raw, data := some data } d.releases
        staging := none })
      (do
        Program.effect .makeStaging
        (contents raw value).forM Program.effect
        Program.effect (.renameStaging (Python.decimal value.sequence)) : Store Unit) d := by
    refine safe_effect_bind ⟨books, saved⟩ ?_
    have written : Safe (fun e : Disk => e.index = d.index ∧ e.releases = d.releases)
        (fun _ e => e = { d with staging := some { manifest := some raw, data := some data } })
        ((contents raw value).forM Program.effect : Store Unit) (Effect.apply .makeStaging d) := by
      apply safe_effects ⟨rfl, rfl⟩
      · intro effect inside e unchanged
        obtain ⟨index, releases⟩ := contents_frame effect inside e
        exact ⟨index.trans unchanged.1, releases.trans unchanged.2⟩
      · exact filled
    apply safe_bind (written.mono still fun _ _ _ ends => ends)
    rintro _ _ here rfl
    have renamed : Effect.apply (.renameStaging (Python.decimal value.sequence))
        { d with staging := some { manifest := some raw, data := some data } }
        = { d with
          releases := Dict.assign (Python.decimal value.sequence)
            { manifest := some raw, data := some data } d.releases
          staging := none } := rfl
    refine safe_effect here ⟨?_, saved⟩ renamed
    refine books.frame saved ?_
    intro n record found
    have other : Python.decimal n ≠ Python.decimal value.sequence := by
      intro same
      rw [same, absent] at found
      cases found
    rw [renamed]
    exact Dict.find_assign_other other _ _
  apply safe_ensuring body
  · intro e here
    refine safe_read_bind here ?_
    by_cases left : e.staging.isSome = true
    · have gone : Books lib config (Effect.apply .dropStaging e) doc ∧
          (Effect.apply .dropStaging e).index = some (doc.encoded lib config) :=
        ⟨here.1.frame here.2 fun _ _ _ => rfl, here.2⟩
      rw [if_pos left]
      exact safe_effect here gone gone
    · rw [if_neg left]
      exact safe_pure here here
  · rintro _ ends
    rw [ends]
    exact ⟨data, holding, Dict.find_assign_self _ _ _⟩

theorem provide_safe {d : Disk} {doc : Document} {raw : Text} {now : Int} {value : Manifest}
    (books : Books lib config d doc) (saved : d.index = some (doc.encoded lib config))
    (read : manifest lib config raw (some now) = .ok value)
    (absent : Dict.find (Python.decimal value.sequence) doc.releases = none) :
    Safe (fun e => Books lib config e doc ∧ e.index = some (doc.encoded lib config))
      (fun _ e => ∃ value', verify lib config e value.sequence
        { sha256 := lib.sha256 raw, version := value.version } = .ok value')
      (provide lib config raw value { sha256 := lib.sha256 raw, version := value.version }) d := by
  refine safe_read_bind ⟨books, saved⟩ ?_
  by_cases there : (Dict.find (Python.decimal value.sequence) d.releases).isSome = true
  · rw [if_pos there]
    exact check_safe ⟨books, saved⟩ fun value' passed => ⟨value', passed⟩
  · rw [if_neg there]
    refine safe_lift_bind ⟨books, saved⟩ ?_
    intro _ _
    obtain ⟨-, -, -, sound⟩ := manifest_fresh read
    apply (makeDirectory_safe books saved absent sound.different).mono (fun _ here => here)
    rintro _ e - ⟨data, holding, found⟩
    refine ⟨value, ?_⟩
    rw [verify, found]
    exact verify_whole read holding

theorem initialise_safe {d : Disk} {doc : Document} (books : Books lib config d doc) :
    Safe (fun e => Books lib config e doc)
      (fun _ e => e.index = some (doc.encoded lib config) ∧ e.releases = d.releases)
      (initialise lib config doc) d := by
  refine safe_read_bind books ?_
  by_cases missing : d.index.isNone = true
  · rw [if_pos missing]
    apply (save_safe books books.fine books.kept).mono (fun _ either => either.elim id id)
    rintro _ e - ⟨-, saved, releases, -⟩
    exact ⟨saved, releases⟩
  · rw [if_neg missing]
    have saved : d.index = some (doc.encoded lib config) := by
      apply books.index.resolve_right
      rintro ⟨none_, -⟩
      rw [none_] at missing
      exact missing rfl
    exact safe_pure books ⟨saved, rfl⟩

/-! ## Staging -/

/-- The index after a new snapshot was staged. -/
def Document.add (doc : Document) (n : Nat) (record : Record) : Document :=
  { doc with highest := n, releases := Dict.assign (Python.decimal n) record doc.releases }

theorem highestOf_assign {key : Str} {record : Record} {releases : Dict Record}
    (absent : Dict.find key releases = none) :
    highestOf (Dict.assign key record releases) = max (Python.intOf key) (highestOf releases) := by
  induction releases with
  | nil => rfl
  | cons first rest ih =>
      obtain ⟨k, r⟩ := first
      by_cases same : k = key
      · simp [Dict.find, same] at absent
      · rw [Dict.find, if_neg same] at absent
        by_cases before : key < k
        · rw [Dict.assign, if_pos before]
          rfl
        · rw [Dict.assign, if_neg before, if_neg (Ne.symm same)]
          change max (Python.intOf k) (highestOf (Dict.assign key record rest))
            = max (Python.intOf key) (max (Python.intOf k) (highestOf rest))
          rw [ih absent]
          omega

theorem add_fine {doc : Document} {n : Nat} {record : Record} (fine : doc.Fine config)
    (range : 1 ≤ n ∧ n ≤ 2 ^ 63 - 1) (newer : doc.highest ≤ n)
    (absent : Dict.find (Python.decimal n) doc.releases = none)
    (room : doc.releases.length < releaseLimit)
    (sound : isDigest record.sha256 = true ∧ isVersion record.version = true) :
    (doc.add n record).Fine config := by
  have still : ∀ m, (Dict.find (Python.decimal m) doc.releases).isSome →
      (Dict.find (Python.decimal m) (doc.add n record).releases).isSome := by
    intro m found
    by_cases same : m = n
    · rw [same, absent] at found
      cases found
    · have different : Python.decimal m ≠ Python.decimal n := fun equal => same (decimal_inj equal)
      rw [Document.add, Dict.find_assign_other different]
      exact found
  have split : ∀ r ∈ (doc.add n record).releases,
      r = (Python.decimal n, record) ∨ r ∈ doc.releases := fun r inside => Dict.mem_assign inside
  exact {
    few := by
      rw [Document.add, Dict.length_assign _ absent]
      omega
    ordered := Dict.ordered_assign _ _ fine.ordered
    keyed := by
      intro r inside
      rcases split r inside with rfl | old
      · exact ⟨n, range.1, range.2, rfl⟩
      · exact fine.keyed r old
    hashed := by
      intro r inside
      rcases split r inside with rfl | old
      · exact sound
      · exact fine.hashed r old
    highest := by
      rw [Document.add, highestOf_assign absent, Python.intOf_decimal, ← fine.highest,
        max_eq_left newer]
    selected := fun m chosen => ⟨(fine.selected m chosen).1, still m (fine.selected m chosen).2⟩
    previous := fun m chosen => ⟨(fine.previous m chosen).1, still m (fine.previous m chosen).2⟩ }

/-- The highest sequence stays in the index. -/
theorem highest_found {doc : Document} (fine : doc.Fine config) (positive : 1 ≤ doc.highest) :
    (Dict.find (Python.decimal doc.highest) doc.releases).isSome := by
  have nonempty : doc.releases ≠ [] := by
    intro empty
    rw [fine.highest, empty] at positive
    exact absurd positive (by decide)
  obtain ⟨r, inside, top⟩ := highest_mem nonempty
  obtain ⟨n, -, -, key⟩ := fine.keyed r inside
  have number : doc.highest = n := by
    rw [fine.highest, ← top, key, Python.intOf_decimal]
  have listed : (Python.decimal doc.highest, r.2) ∈ doc.releases := by
    rw [number, ← key]
    exact inside
  rw [Dict.find_of_mem fine.ordered listed]
  rfl

theorem add_later {doc : Document} {n : Nat} {record : Record} (newer : doc.highest ≤ n)
    (absent : Dict.find (Python.decimal n) doc.releases = none) (fine : doc.Fine config)
    (positive : 1 ≤ n) : Later doc (doc.add n record) where
  highest := newer
  records := by
    intro m r found old
    by_cases same : m = n
    · -- the highest sequence is in the index, so a new one is above it
      have top : n = doc.highest := by omega
      have there := highest_found fine (top ▸ positive)
      rw [← top, absent] at there
      cases there
    · have different : Python.decimal m ≠ Python.decimal n := fun equal => same (decimal_inj equal)
      rwa [Document.add, Dict.find_assign_other different] at found
  previous := fun _ kept => .inl kept

/-- What a command that returned has done. -/
def Achieved (lib : Library) (config : Config) (c : Command) (result : Result) (doc doc' : Document) :
    Prop :=
  match c, result with
  | .stage raw now, .staged n | .stage raw now, .unchanged n =>
      ∃ value, manifest lib config raw (some now) = .ok value ∧ value.sequence = n ∧
        Dict.find (Python.decimal n) doc'.releases
          = some { sha256 := lib.sha256 raw, version := value.version }
  | .select _ _, .selected n => doc'.selected = some n
  | .rollback, .selected n => doc.previous = some n ∧ doc'.selected = some n
  | .prune sequence _, .pruned n => sequence = n ∧ Dict.find (Python.decimal n) doc'.releases = none
  | _, _ => False

/-- Every state a crash can leave has an accepted index, later than the one before. -/
abbrev Sound (lib : Library) (config : Config) (doc : Document) (e : Disk) : Prop :=
  ∃ doc', Books lib config e doc' ∧ Later doc doc'

abbrev Ends (lib : Library) (config : Config) (c : Command) (doc : Document) (result : Result)
    (e : Disk) : Prop :=
  ∃ doc', Books lib config e doc' ∧ Later doc doc' ∧ Achieved lib config c result doc doc'

theorem stage_safe {d : Disk} {doc : Document} (books : Books lib config d doc) (raw : Text)
    (now : Int) :
    Safe (Sound lib config doc) (Ends lib config (.stage raw now) doc)
      (stage lib config raw now) d := by
  have here : Sound lib config doc d := ⟨doc, books, Later.refl doc⟩
  refine safe_lift_bind here fun value read => ?_
  refine readState_bind books here ?_
  refine safe_lift_bind here fun _ newer => ?_
  have newer := require_ok.mp newer
  obtain ⟨-, -, -, sound⟩ := manifest_fresh read
  cases listed : Dict.find (Python.decimal value.sequence) doc.releases with
  | some was =>
      refine safe_lift_bind here fun _ same => ?_
      have same := require_ok.mp same
      have checked : Safe (Sound lib config doc) (fun _ e => e = d)
          (check lib config value.sequence
            { sha256 := lib.sha256 raw, version := value.version }) d :=
        check_safe here fun _ _ => rfl
      apply safe_bind checked
      rintro _ _ _ rfl
      refine safe_pure here ⟨doc, books, Later.refl doc, value, read, rfl, ?_⟩
      rw [listed, same]
  | none =>
      refine safe_lift_bind here fun _ room => ?_
      have room := require_ok.mp room
      have started : Safe (Sound lib config doc)
          (fun _ e => Books lib config e doc ∧ e.index = some (doc.encoded lib config))
          (initialise lib config doc) d :=
        (initialise_safe books).mono (fun e kept => ⟨doc, kept, Later.refl doc⟩)
          fun _ e kept ends => ⟨kept, ends.1⟩
      apply safe_bind started
      rintro _ e - ⟨kept, saved⟩
      have provided : Safe (Sound lib config doc)
          (fun _ e => Books lib config e doc ∧ ∃ value', verify lib config e value.sequence
            { sha256 := lib.sha256 raw, version := value.version } = .ok value')
          (provide lib config raw value { sha256 := lib.sha256 raw, version := value.version }) e :=
        (provide_safe kept saved read listed).mono (fun e kept => ⟨doc, kept.1, Later.refl doc⟩)
          fun _ e kept ends => ⟨kept.1, ends⟩
      apply safe_bind provided
      rintro _ e - ⟨kept, value', passed⟩
      have fine := @add_fine config doc value.sequence
        { sha256 := lib.sha256 raw, version := value.version } books.fine sound.range newer listed
        room ⟨lib.hexdigest raw, sound.version⟩
      have later := @add_later config doc value.sequence
        { sha256 := lib.sha256 raw, version := value.version } newer listed books.fine sound.range.1
      have stored : Safe (Sound lib config doc)
          (fun _ e => Books lib config e (doc.add value.sequence
            { sha256 := lib.sha256 raw, version := value.version }))
          (save lib config (doc.add value.sequence
            { sha256 := lib.sha256 raw, version := value.version })) e := by
        apply (save_safe kept fine ?_).mono
        · intro e either
          exact either.elim (fun old => ⟨doc, old, Later.refl doc⟩) fun new => ⟨_, new, later⟩
        · exact fun _ e _ ends => ends.1
        · intro n record found
          by_cases same : n = value.sequence
          · rw [same, Document.add, Dict.find_assign_self, Option.some.injEq] at found
            rw [same, ← found]
            exact ⟨value', passed⟩
          · have different : Python.decimal n ≠ Python.decimal value.sequence :=
              fun equal => same (decimal_inj equal)
            rw [Document.add, Dict.find_assign_other different] at found
            exact kept.kept n record found
      apply safe_bind stored
      intro _ e here ends
      exact safe_pure here ⟨_, ends, later, value, read, rfl, Dict.find_assign_self _ _ _⟩

/-! ## Selecting and pruning -/

/-- Another selection from the index, the old one kept beside it. -/
def Document.choose (doc : Document) (n : Nat) : Document :=
  { doc with selected := some n, previous := doc.selected }

theorem choose_fine {doc : Document} {n : Nat} (fine : doc.Fine config)
    (least : config.minimumSequence ≤ n)
    (found : (Dict.find (Python.decimal n) doc.releases).isSome) :
    (doc.choose n).Fine config where
  few := fine.few
  ordered := fine.ordered
  keyed := fine.keyed
  hashed := fine.hashed
  highest := fine.highest
  selected := fun m chosen => by
    cases chosen
    exact ⟨least, found⟩
  previous := fine.selected

theorem choose_later (doc : Document) (n : Nat) : Later doc (doc.choose n) where
  highest := le_rfl
  records := fun _ _ found _ => found
  previous := fun _ kept => .inr kept

theorem recordFor_ok {doc : Document} {n : Nat} {record : Record} :
    recordFor doc n = .ok record ↔ Dict.find (Python.decimal n) doc.releases = some record := by
  unfold recordFor
  cases Dict.find (Python.decimal n) doc.releases <;> simp

theorem choose_safe {d : Disk} {doc : Document} (books : Books lib config d doc) {n : Nat}
    (least : config.minimumSequence ≤ n)
    (found : (Dict.find (Python.decimal n) doc.releases).isSome) :
    Safe (Sound lib config doc) (fun _ e => Books lib config e (doc.choose n))
      (save lib config (doc.choose n)) d := by
  apply (save_safe books (choose_fine books.fine least found) books.kept).mono
  · intro e either
    exact either.elim (fun old => ⟨doc, old, Later.refl doc⟩)
      fun new => ⟨_, new, choose_later doc n⟩
  · exact fun _ e _ ends => ends.1

theorem select_safe {d : Disk} {doc : Document} (books : Books lib config d doc) (sequence : Nat)
    (reviewed : Str) :
    Safe (Sound lib config doc) (Ends lib config (.select sequence reviewed) doc)
      (select lib config sequence reviewed) d := by
  have here : Sound lib config doc d := ⟨doc, books, Later.refl doc⟩
  refine safe_lift_bind here fun _ range => ?_
  have range := require_ok.mp range
  refine readState_bind books here ?_
  refine safe_lift_bind here fun record listed => ?_
  have found := recordFor_ok.mp listed
  refine safe_lift_bind here fun _ _ => ?_
  refine safe_lift_bind here fun _ _ => ?_
  refine safe_lift_bind here fun _ _ => ?_
  have checked : Safe (Sound lib config doc) (fun _ e => e = d)
      (check lib config sequence record) d :=
    check_safe here fun _ _ => rfl
  apply safe_bind checked
  rintro _ _ _ rfl
  by_cases same : doc.selected = some sequence
  · rw [if_neg (not_not_intro same)]
    exact safe_pure here ⟨doc, books, Later.refl doc, same⟩
  · rw [if_pos same]
    apply safe_bind (choose_safe books range.1 (by rw [found]; rfl))
    intro _ e there ends
    exact safe_pure there ⟨_, ends, choose_later doc sequence, rfl⟩

theorem rollback_safe {d : Disk} {doc : Document} (books : Books lib config d doc) :
    Safe (Sound lib config doc) (Ends lib config .rollback doc) (rollback lib config) d := by
  have here : Sound lib config doc d := ⟨doc, books, Later.refl doc⟩
  refine readState_bind books here ?_
  cases chosen : doc.previous with
  | none => exact safe_raise here
  | some previous =>
      refine safe_lift_bind here fun _ range => ?_
      have range := require_ok.mp range
      refine safe_lift_bind here fun record listed => ?_
      have found := recordFor_ok.mp listed
      have checked : Safe (Sound lib config doc) (fun _ e => e = d)
          (check lib config previous record) d :=
        check_safe here fun _ _ => rfl
      apply safe_bind checked
      rintro _ _ _ rfl
      apply safe_bind (choose_safe books range.1 (by rw [found]; rfl))
      intro _ e there ends
      exact safe_pure there ⟨_, ends, choose_later doc previous, chosen, rfl⟩

/-- The index after a snapshot was pruned. -/
def Document.drop (doc : Document) (n : Nat) : Document :=
  { doc with releases := Dict.remove (Python.decimal n) doc.releases }

theorem drop_fine {doc : Document} {n : Nat} (fine : doc.Fine config)
    (unused : doc.selected ≠ some n ∧ doc.previous ≠ some n ∧ doc.highest ≠ n) :
    (doc.drop n).Fine config := by
  have old : ∀ r ∈ (doc.drop n).releases, r ∈ doc.releases := fun r inside =>
    (List.mem_filter.mp inside).1
  have still : ∀ m, m ≠ n → Dict.find (Python.decimal m) (doc.drop n).releases
      = Dict.find (Python.decimal m) doc.releases := fun m different =>
    Dict.find_remove_other (fun equal => different (decimal_inj equal)) _
  have top : highestOf (doc.drop n).releases = doc.highest := by
    apply le_antisymm
    · by_cases empty : (doc.drop n).releases = []
      · rw [empty]
        exact Nat.zero_le _
      · obtain ⟨r, inside, top⟩ := highest_mem empty
        rw [← top, fine.highest]
        exact le_highest (old r inside)
    · rcases Nat.eq_zero_or_pos doc.highest with zero | positive
      · rw [zero]
        exact Nat.zero_le _
      · obtain ⟨record, found⟩ := Option.isSome_iff_exists.mp (highest_found fine positive)
        rw [← still _ unused.2.2] at found
        have bound := le_highest (Dict.mem_of_find found)
        rwa [Python.intOf_decimal] at bound
  exact {
    few := (List.length_filter_le _ _).trans fine.few
    ordered := Dict.ordered_remove _ fine.ordered
    keyed := fun r inside => fine.keyed r (old r inside)
    hashed := fun r inside => fine.hashed r (old r inside)
    highest := top.symm
    selected := fun m chosen => by
      have different : m ≠ n := fun same => unused.1 (same ▸ chosen)
      rw [still m different]
      exact fine.selected m chosen
    previous := fun m chosen => by
      have different : m ≠ n := fun same => unused.2.1 (same ▸ chosen)
      rw [still m different]
      exact fine.previous m chosen }

theorem drop_found {doc : Document} {m n : Nat} {record : Record}
    (found : Dict.find (Python.decimal m) (doc.drop n).releases = some record) :
    m ≠ n ∧ Dict.find (Python.decimal m) doc.releases = some record := by
  by_cases same : m = n
  · rw [same, Document.drop, Dict.find_remove_self] at found
    cases found
  · have different : Python.decimal m ≠ Python.decimal n := fun equal => same (decimal_inj equal)
    rw [Document.drop, Dict.find_remove_other different] at found
    exact ⟨same, found⟩

theorem drop_later (doc : Document) (n : Nat) : Later doc (doc.drop n) where
  highest := le_rfl
  records := fun _ _ found _ => (drop_found found).2
  previous := fun _ kept => .inl kept

/-- What is removed from a directory is of no snapshot of the index. -/
theorem removeTree_frame {n : Nat} {order : List Part} :
    ∀ effect ∈ removeTree (Python.decimal n) order, ∀ d : Disk, (effect.apply d).index = d.index ∧
      ∀ m, m ≠ n → Dict.find (Python.decimal m) (effect.apply d).releases
        = Dict.find (Python.decimal m) d.releases := by
  intro effect inside d
  rcases List.mem_append.mp inside with part | last
  · obtain ⟨part, -, rfl⟩ := List.mem_map.mp part
    refine ⟨rfl, fun m different => ?_⟩
    have other : Python.decimal m ≠ Python.decimal n := fun equal => different (decimal_inj equal)
    cases there : Dict.find (Python.decimal n) d.releases with
    | none => simp [Effect.apply, there]
    | some directory => simp [Effect.apply, there, Dict.find_assign_other other]
  · rw [List.mem_singleton] at last
    subst last
    refine ⟨rfl, fun m different => ?_⟩
    exact Dict.find_remove_other (fun equal => different (decimal_inj equal)) _

theorem prune_safe {d : Disk} {doc : Document} (books : Books lib config d doc) (sequence : Nat)
    (order : List Part) :
    Safe (Sound lib config doc) (Ends lib config (.prune sequence order) doc)
      (prune lib config sequence order) d := by
  have here : Sound lib config doc d := ⟨doc, books, Later.refl doc⟩
  refine readState_bind books here ?_
  refine safe_lift_bind here fun _ unused => ?_
  have unused := require_ok.mp unused
  refine safe_lift_bind here fun record listed => ?_
  have checked : Safe (Sound lib config doc) (fun _ e => e = d)
      (check lib config sequence record) d :=
    check_safe here fun _ _ => rfl
  apply safe_bind checked
  rintro _ d _ rfl
  have later := drop_later doc sequence
  have saved : Safe (Sound lib config doc)
      (fun _ e => Books lib config e (doc.drop sequence) ∧
        e.index = some ((doc.drop sequence).encoded lib config))
      (save lib config (doc.drop sequence)) d := by
    apply (save_safe books (drop_fine books.fine unused) ?_).mono
    · intro e either
      exact either.elim (fun old => ⟨doc, old, Later.refl doc⟩) fun new => ⟨_, new, later⟩
    · exact fun _ e _ ends => ⟨ends.1, ends.2.1⟩
    · exact fun n record found => books.kept n record (drop_found found).2
  apply safe_bind saved
  intro _ e _ stored
  have removed : Safe (fun e => Books lib config e (doc.drop sequence) ∧
        e.index = some ((doc.drop sequence).encoded lib config)) (fun _ _ => True)
      ((removeTree (Python.decimal sequence) order).forM Program.effect : Store Unit) e := by
    refine safe_effects stored ?_ ?_
    · rintro effect inside e ⟨kept, saved⟩
      obtain ⟨index, others⟩ := removeTree_frame effect inside e
      rw [← index] at saved
      exact ⟨kept.frame saved fun n record found => others n (drop_found found).1, saved⟩
    · trivial
  have sound : Safe (Sound lib config doc)
      (fun _ e => Books lib config e (doc.drop sequence))
      ((removeTree (Python.decimal sequence) order).forM Program.effect : Store Unit) e :=
    removed.mono (fun e kept => ⟨_, kept.1, later⟩) fun _ _ kept _ => kept.1
  apply safe_bind sound
  intro _ e here ends
  exact safe_pure here ⟨_, ends, later, rfl, Dict.find_remove_self _ _⟩

theorem command_safe {d : Disk} {doc : Document} (books : Books lib config d doc) (c : Command) :
    Safe (Sound lib config doc) (Ends lib config c doc) (command lib config c) d := by
  cases c with
  | stage raw now => exact stage_safe books raw now
  | select sequence reviewed => exact select_safe books sequence reviewed
  | rollback => exact rollback_safe books
  | prune sequence order => exact prune_safe books sequence order

theorem holding_safe {d : Disk} {doc : Document} (books : Books lib config d doc) (c : Command) :
    Safe (Sound lib config doc) (Ends lib config c doc) (holding (command lib config c)) d := by
  have here : Sound lib config doc d := ⟨doc, books, Later.refl doc⟩
  refine safe_read_bind here ?_
  refine safe_lift_bind here fun _ _ => ?_
  refine safe_effect_bind here ?_
  have locked : Books lib config (Effect.apply .lock d) doc := books.congr rfl rfl rfl
  apply safe_ensuring (command_safe locked c)
  · rintro e ⟨doc', kept, later⟩
    have unlocked : Sound lib config doc (Effect.apply .unlock e) :=
      ⟨doc', kept.congr rfl rfl rfl, later⟩
    exact safe_effect ⟨doc', kept, later⟩ unlocked unlocked
  · rintro result ⟨doc', kept, later, achieved⟩
    exact ⟨doc', kept.congr rfl rfl rfl, later, achieved⟩

/-! ## Runs -/

theorem restarted_books {d : Disk} {doc : Document} (books : Books lib config d doc) :
    Books lib config d.restarted doc := by
  refine books.congr rfl rfl ?_
  simp only [Disk.restarted, Disk.directories, List.length_append, Option.toList_none,
    List.length_nil]
  omega

theorem next_books {d : Disk} {doc : Document} (books : Books lib config d doc) (s : Step) :
    ∃ doc', Books lib config (next lib config d s) doc' ∧ Later doc doc' := by
  obtain ⟨doc', kept, later⟩ := (holding_safe books s.command).crashed s.crash
  exact ⟨doc', restarted_books kept, later⟩

theorem completed_books {d : Disk} {doc : Document} {s : Step} {result : Result}
    (books : Books lib config d doc) (completed : Completed lib config d s result) :
    ∃ doc', Books lib config (next lib config d s) doc' ∧ Later doc doc' ∧
      Achieved lib config s.command result doc doc' := by
  obtain ⟨doc', kept, later, achieved⟩ :=
    (holding_safe books s.command).returned result completed.2
  have whole : (holding (command lib config s.command)).crash s.crash d
      = (holding (command lib config s.command)).final d := by
    rw [Program.crash, Program.final, List.take_of_length_le completed.1]
  have there := restarted_books kept
  rw [← whole] at there
  exact ⟨doc', there, later, achieved⟩

/-- What holds from any point of a run to a later one. -/
structure Persists (doc doc' : Document) : Prop where
  highest : doc.highest ≤ doc'.highest
  records : ∀ n record, Dict.find (Python.decimal n) doc'.releases = some record →
    n ≤ doc.highest → Dict.find (Python.decimal n) doc.releases = some record

theorem run_books (steps : List Step) : ∀ {d : Disk} {doc : Document}, Books lib config d doc →
    ∃ doc', Books lib config (steps.foldl (next lib config) d) doc' ∧ Persists doc doc' := by
  induction steps with
  | nil => exact fun {d doc} books => ⟨doc, books, le_rfl, fun _ _ found _ => found⟩
  | cons s rest ih =>
      intro d doc books
      obtain ⟨doc', kept, later⟩ := next_books books s
      obtain ⟨doc'', ends, persists⟩ := ih kept
      refine ⟨doc'', ends, later.highest.trans persists.highest, fun n record found old => ?_⟩
      exact later.records n record (persists.records n record found (old.trans later.highest)) old

theorem reached_books (lib : Library) (config : Config) (steps : List Step) :
    ∃ doc, Books lib config (reached lib config steps) doc := by
  obtain ⟨doc, books, -⟩ := run_books steps (@books_empty lib config)
  exact ⟨doc, books⟩

theorem reached_append (earlier later : List Step) :
    reached lib config (earlier ++ later) = later.foldl (next lib config) (reached lib config earlier) :=
  List.foldl_append

/-- The previous selection is one that was in force at an earlier point of the run. -/
theorem previous_selected (steps : List Step) : ∀ {doc : Document} {n : Nat},
    Books lib config (reached lib config steps) doc → doc.previous = some n →
    ∃ earlier later, steps = earlier ++ later ∧ ∃ old,
      state lib config (reached lib config earlier) = .ok old ∧ old.selected = some n := by
  induction steps using List.reverseRecOn with
  | nil =>
      intro doc n books chosen
      have same := books.state.symm.trans (@books_empty lib config).state
      cases same
      cases chosen
  | append_singleton before s ih =>
      intro doc n books chosen
      obtain ⟨old, kept⟩ := reached_books lib config before
      obtain ⟨doc', next_, later⟩ := next_books kept s
      rw [reached_append] at books
      have same := books.state.symm.trans next_.state
      cases same
      rcases later.previous n chosen with previous | selected
      · obtain ⟨earlier, more, split, found⟩ := ih kept previous
        exact ⟨earlier, more ++ [s], by rw [split, List.append_assoc], found⟩
      · exact ⟨before, [s], rfl, old, kept.state, selected⟩

/-- A manifest that is too old, or another one for a sequence of the index, is
refused before anything is written. -/
theorem stage_refused {d : Disk} {doc : Document} {raw : Text} {now : Int} {value : Manifest}
    (books : Books lib config d doc) (read : manifest lib config raw (some now) = .ok value)
    (refused : value.sequence < doc.highest ∨
      ∃ was, Dict.find (Python.decimal value.sequence) doc.releases = some was ∧
        was.sha256 ≠ lib.sha256 raw) :
    ∃ message, stage lib config raw now d = ([], .error message) := by
  rw [stage, Program.lift_ok_bind read, readState_eq books]
  by_cases newer : doc.highest ≤ value.sequence
  · obtain ⟨was, listed, other⟩ := refused.resolve_left (not_lt.mpr newer)
    have changed : ({ sha256 := lib.sha256 raw, version := value.version } : Record) ≠ was :=
      fun same => other (by rw [← same])
    rw [Program.lift_ok_bind (require_true newer _), listed]
    exact ⟨_, Program.lift_error_bind (if_neg changed) _ d⟩
  · exact ⟨_, Program.lift_error_bind (if_neg newer) _ d⟩

theorem reached_unlocked (steps : List Step) : (reached lib config steps).locked = false := by
  induction steps using List.reverseRecOn with
  | nil => rfl
  | append_singleton before s ih => rw [reached_append]; rfl

theorem check_eq {α : Type} {d : Disk} {n : Nat} {record : Record} {value : Manifest}
    {f : Unit → Store α} (passed : verify lib config d n record = .ok value) :
    (check lib config n record >>= f) d = f () d := by
  have ran : check lib config n record d = ([], .ok ()) := by
    rw [check, Program.read_bind, Program.lift_ok_bind passed]
    rfl
  have run := @Program.bind_ok _ _ _ _ _ _ (check lib config n record) f d () (by rw [ran])
  rw [run, Program.final, ran]
  rfl

/-- A rollback never fails when there is a previous selection. -/
theorem rollback_returns {d : Disk} {doc : Document} {n : Nat} (books : Books lib config d doc)
    (unlocked : d.locked = false) (chosen : doc.previous = some n) :
    (holding (rollback lib config) d).2 = .ok (.selected n) := by
  obtain ⟨least, found⟩ := books.fine.previous n chosen
  obtain ⟨record, listed⟩ := Option.isSome_iff_exists.mp found
  obtain ⟨value, passed⟩ := books.kept n record listed
  have range : inRange n config.minimumSequence = .ok () :=
    require_true ⟨least, books.fine.selection_le found⟩ _
  have locked : Books lib config (Effect.apply .lock d) doc := books.congr rfl rfl rfl
  rw [holding, Program.read_bind, Program.lift_ok_bind (require_true unlocked _),
    Program.effect_bind_result, Program.ensuring_result rfl, rollback, readState_eq locked, chosen]
  have saved : (save lib config (doc.choose n) (Effect.apply .lock d)).2 = .ok () := rfl
  change ((do
    Program.lift (inRange n config.minimumSequence)
    let record ← Program.lift (recordFor doc n)
    check lib config n record
    save lib config (doc.choose n)
    return .selected n : Store Result) (Effect.apply .lock d)).2 = _
  rw [Program.lift_ok_bind range, Program.lift_ok_bind (recordFor_ok.mpr listed),
    @check_eq lib config _ (Effect.apply .lock d) n record value _ passed]
  exact congrArg Prod.snd (Program.bind_ok saved)

/-- On every disk that commands and crashes lead to, the index is accepted, its
selections are in it and its snapshots pass; its highest sequence is at least any
that it had and any that was staged; what is older or another manifest for a
staged sequence is refused; a rollback returns, to a snapshot that was selected. -/
theorem snapshots_safe (lib : Library) (config : Config) (steps : List Step) :
    ∃ doc, state lib config (reached lib config steps) = .ok doc ∧
      (∀ n, doc.selected = some n ∨ doc.previous = some n →
        (Dict.find (Python.decimal n) doc.releases).isSome) ∧
      (∀ r ∈ doc.releases, ∃ n value, r.1 = Python.decimal n ∧
        verify lib config (reached lib config steps) n r.2 = .ok value) ∧
      (∀ earlier later, steps = earlier ++ later → ∃ old,
        state lib config (reached lib config earlier) = .ok old ∧ old.highest ≤ doc.highest) ∧
      (∀ earlier s later raw now n, steps = earlier ++ s :: later → s.command = .stage raw now →
        Completed lib config (reached lib config earlier) s (.staged n) ∨
          Completed lib config (reached lib config earlier) s (.unchanged n) →
        n ≤ doc.highest ∧ ∀ raw' now' value, manifest lib config raw' (some now') = .ok value →
          value.sequence < n ∨ value.sequence = n ∧ lib.sha256 raw' ≠ lib.sha256 raw →
          ∃ message, stage lib config raw' now' (reached lib config steps)
            = ([], .error message)) ∧
      ∀ n, doc.previous = some n →
        (holding (rollback lib config) (reached lib config steps)).2 = .ok (.selected n) ∧
        (∃ after, state lib config ((holding (rollback lib config)).final
          (reached lib config steps)) = .ok after ∧ after.selected = some n) ∧
        ∃ earlier later, steps = earlier ++ later ∧ ∃ old,
          state lib config (reached lib config earlier) = .ok old ∧ old.selected = some n := by
  obtain ⟨doc, books⟩ := reached_books lib config steps
  refine ⟨doc, books.state, ?_, ?_, ?_, ?_, ?_⟩
  · rintro n (selected | previous)
    · exact (books.fine.selected n selected).2
    · exact (books.fine.previous n previous).2
  · intro r inside
    obtain ⟨n, -, -, key⟩ := books.fine.keyed r inside
    have found : Dict.find (Python.decimal n) doc.releases = some r.2 :=
      Dict.find_of_mem books.fine.ordered (by rw [← key]; exact inside)
    obtain ⟨value, passed⟩ := books.kept n r.2 found
    exact ⟨n, value, key, passed⟩
  · intro earlier later split
    obtain ⟨old, kept⟩ := reached_books lib config earlier
    obtain ⟨doc', ends, persists⟩ := run_books later kept
    rw [← reached_append, ← split] at ends
    have same := books.state.symm.trans ends.state
    cases same
    exact ⟨old, kept.state, persists.highest⟩
  · intro earlier s later raw now n split staged completed
    obtain ⟨old, kept⟩ := reached_books lib config earlier
    have added : ∃ doc', Books lib config (next lib config (reached lib config earlier) s) doc' ∧
        ∃ value : Manifest, value.sequence = n ∧ Dict.find (Python.decimal n) doc'.releases
          = some { sha256 := lib.sha256 raw, version := value.version } := by
      rcases completed with done | done
      · obtain ⟨doc', there, -, achieved⟩ := completed_books kept done
        rw [staged] at achieved
        obtain ⟨value, -, number, found⟩ := achieved
        exact ⟨doc', there, value, number, found⟩
      · obtain ⟨doc', there, -, achieved⟩ := completed_books kept done
        rw [staged] at achieved
        obtain ⟨value, -, number, found⟩ := achieved
        exact ⟨doc', there, value, number, found⟩
    obtain ⟨doc', there, value, -, found⟩ := added
    obtain ⟨doc'', ends, persists⟩ := run_books later there
    have run : reached lib config steps = later.foldl (next lib config)
        (next lib config (reached lib config earlier) s) := by
      rw [split, reached_append, List.foldl_cons]
    rw [← run] at ends
    have same := books.state.symm.trans ends.state
    cases same
    have listed : n ≤ doc'.highest := by
      have bound := le_highest (Dict.mem_of_find found)
      rwa [Python.intOf_decimal, ← there.fine.highest] at bound
    refine ⟨listed.trans persists.highest, fun raw' now' value' read old_or_changed => ?_⟩
    apply stage_refused books read
    rcases old_or_changed with old | ⟨number, changed⟩
    · exact .inl (old.trans_le (listed.trans persists.highest))
    · by_cases top : n < doc.highest
      · exact .inl (number ▸ top)
      · -- the sequence is still the highest, so its record is still in the index
        have equal : n = doc.highest := by
          have bound := listed.trans persists.highest
          omega
        obtain ⟨m, positive, -, key⟩ := there.fine.keyed _ (Dict.mem_of_find found)
        have number' : n = m := decimal_inj key
        have kept' := highest_found books.fine (by omega)
        rw [← equal] at kept'
        obtain ⟨was, stays⟩ := Option.isSome_iff_exists.mp kept'
        have before := persists.records n was stays listed
        rw [found, Option.some.injEq] at before
        refine .inr ⟨was, by rw [number]; exact stays, fun same => changed ?_⟩
        rw [← same, ← before]
  · intro n chosen
    have returned := rollback_returns books (reached_unlocked steps) chosen
    obtain ⟨after, ends, -, -, selected⟩ := (holding_safe books .rollback).returned _ returned
    exact ⟨returned, ⟨after, ends.state, selected⟩, previous_selected steps books chosen⟩

end

/-! ## A store on a server -/

/-- A manifest with one empty object for data. -/
def release (sequence version issued expires : String) : Text :=
  "\x7b\"schema\":1,\"product\":\"Source2Root\",\"game\":\"cs2\",\"platform\":\"win64\",".toList ++
    "\"sequence\":".toList ++ sequence.toList ++ ",\"version\":\"".toList ++ version.toList ++
    "\",\"issued_at\":\"".toList ++ issued.toList ++ "\",\"expires_at\":\"".toList ++
    expires.toList ++ "\",\"files\":[\x7b\"name\":\"offsets.json\",\"sha256\":\"".toList ++
    "44136fa355b3678a1146ad16f7e8649e94fb4fc21fe77e8310c060f61caaff8a\",".toList ++
    "\"content\":\"\x7b\x7d\"\x7d]\x7d".toList

def first : Text := release "1" "1.0" "2026-01-01T00:00:00Z" "2026-01-31T00:00:00Z"

def second : Text := release "2" "1.1" "2026-01-02T00:00:00Z" "2026-02-01T00:00:00Z"

/-- The digests of the two manifests, of their data and of the empty text. -/
def digestOf (raw : Text) : Str :=
  str <|
    if raw = "\x7b\x7d".toList then
      "44136fa355b3678a1146ad16f7e8649e94fb4fc21fe77e8310c060f61caaff8a"
    else if raw = first then "e8e9b2cd6afc3f7621801f8667fd51ac1a5923498395c235cb4efca0c5c141ed"
    else if raw = second then "950a0755084c73c1c0c9176633aa9d618ada364f5858ed199e8b46eb2dafba42"
    else "e3b0c44298fc1c149afbf4c8996fb92427ae41e4649b934ca495991b7852b855"

/-- Seconds since 1970. -/
def secondsOf (time : Str) : Option Int :=
  if time = str "2026-01-01T00:00:00Z" then some 1767225600
  else if time = str "2026-01-02T00:00:00Z" then some 1767312000
  else if time = str "2026-01-31T00:00:00Z" then some 1769817600
  else if time = str "2026-02-01T00:00:00Z" then some 1769904000
  else none

def plainLibrary : Library where
  sha256 := digestOf
  hexdigest := by
    intro raw
    unfold digestOf
    split
    · decide +kernel
    · split
      · decide +kernel
      · split <;> decide +kernel
  timestamp := secondsOf

def windows : Config where
  url := str "https://updates.example.org/cs2.json"
  product := str "Source2Root"
  game := str "cs2"
  platform := str "win64"
  files := [str "offsets.json"]
  minimumSequence := 1
  ca := none
  printable := by decide +kernel
  known := by decide +kernel
  filenames := by
    refine ⟨by decide, List.nodup_singleton _, ?_⟩
    intro name member
    rw [List.mem_singleton.mp member]
    rfl
  minimum := by decide

/-- The second snapshot is staged in vain and again, both are selected one after
the other, and the second is rolled back, in vain and again. -/
def course : List Step := [
  { command := .stage first 1767400000, crash := 20 },
  { command := .stage second 1767400000, crash := 6 },
  { command := .stage second 1767400000, crash := 20 },
  { command := .select 1 (digestOf first), crash := 20 },
  { command := .select 2 (digestOf second), crash := 20 },
  { command := .rollback, crash := 3 },
  { command := .rollback, crash := 20 }]

/-- The highest sequence of the index and the two selections. -/
def selections (d : Disk) : Option (Nat × Option Nat × Option Nat) :=
  (state plainLibrary windows d).toOption.map fun doc => (doc.highest, doc.selected, doc.previous)

theorem course_runs :
    selections (reached plainLibrary windows course) = some (2, some 1, some 2) ∧
      (manifest plainLibrary windows first (some 1767400000)).toOption.map Manifest.sequence =
        some 1 ∧
      (holding (command plainLibrary windows (.stage second 1767400000))
        (reached plainLibrary windows (course.take 2))).1.length ≤ 20 ∧
      (holding (command plainLibrary windows (.stage second 1767400000))
        (reached plainLibrary windows (course.take 2))).2.toOption = some (.staged 2) := by
  decide +kernel

theorem ok_of_toOption {ε α : Type} {result : Except ε α} {a : α}
    (some_ : result.toOption = some a) : result = .ok a := by
  cases result with
  | error x => cases some_
  | ok b => exact congrArg Except.ok (Option.some.inj some_)

/-- After that the first manifest is refused, and one more rollback selects the
second snapshot again. -/
theorem snapshots_safe_rolled_back :
    (holding (rollback plainLibrary windows) (reached plainLibrary windows course)).2 =
        .ok (.selected 2) ∧
      ∃ message, stage plainLibrary windows first 1767400000
        (reached plainLibrary windows course) = ([], .error message) := by
  obtain ⟨chosen, read, whole, returned⟩ := course_runs
  obtain ⟨doc, found, -, -, -, refused, back⟩ := snapshots_safe plainLibrary windows course
  have previous : doc.previous = some 2 := by
    rw [selections, found] at chosen
    exact congrArg (fun s => s.2.2) (Option.some.inj chosen)
  obtain ⟨value, accepted, number⟩ := Option.map_eq_some_iff.mp read
  have staged := refused (course.take 2) _ (course.drop 3) second 1767400000 2 rfl rfl
    (.inl ⟨whole, ok_of_toOption returned⟩)
  refine ⟨(back 2 previous).1, ?_⟩
  exact staged.2 first 1767400000 value (ok_of_toOption accepted) (.inl (by omega))

end Source2Root.Snapshots
