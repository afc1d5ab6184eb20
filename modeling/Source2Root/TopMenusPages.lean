import Mathlib
import Source2Root.Pieces
import Source2Root.TopMenus
import Source2Root.Transition

/-!
# The pages of a top menu

The rows of all pages together are the visible objects in their order, each once; the
rows that lead to other pages lead to the neighbouring ones; a menu that changes while
it is built gives no page.
-/

set_option autoImplicit false

namespace Source2Root.TopMenus

/-! ## The order of the rows -/

/-- The order, then the label, then the key. -/
def rank (object : Object) : Int ×ₗ (List Char ×ₗ List Char) :=
  toLex (object.order, toLex (object.label, object.key))

theorem before_iff (a b : Object) : before a b = true ↔ rank a < rank b := by
  unfold before
  rw [rank, rank, Prod.Lex.toLex_lt_toLex, Prod.Lex.toLex_lt_toLex]
  by_cases order : a.order = b.order
  · rw [if_neg (not_not.mpr order)]
    by_cases label : a.label = b.label
    · rw [if_neg (not_not.mpr label)]
      simp [order, label]
    · rw [if_pos label]
      simp [order, label]
  · rw [if_pos order]
    simp [order]

theorem rank_key {a b : Object} (same : rank a = rank b) : a.key = b.key :=
  congrArg (fun r : Int ×ₗ (List Char ×ₗ List Char) => (ofLex (ofLex r).2).2) same

/-! ## The latest registrations -/

/-- For each key that was met there is one object in the table, and it is a latest one. -/
structure LatestOf (table met : List Object) : Prop where
  keys : (table.map Object.key).Nodup
  latest : ∀ object ∈ table, object ∈ met ∧
    ∀ other ∈ met, other.key = object.key → other.sequence ≤ object.sequence
  found : ∀ object ∈ met, ∃ latest ∈ table, latest.key = object.key

theorem insertLatest_keys (object : Object) (table : List Object) (key : Text) :
    key ∈ (insertLatest object table).map Object.key ↔
      key = object.key ∨ key ∈ table.map Object.key := by
  induction table with
  | nil => simp [insertLatest]
  | cons current rest ih =>
      rw [insertLatest]
      split
      · rename_i same
        split
        · simp [same]
        · simp [same]
      · rw [List.map_cons, List.mem_cons, ih, List.map_cons, List.mem_cons]
        tauto

theorem insertLatest_nodup {object : Object} {table : List Object}
    (keys : (table.map Object.key).Nodup) :
    ((insertLatest object table).map Object.key).Nodup := by
  induction table with
  | nil => simp [insertLatest]
  | cons current rest ih =>
      rw [List.map_cons, List.nodup_cons] at keys
      rw [insertLatest]
      split
      · rename_i same
        split
        · rw [List.map_cons, List.nodup_cons]
          exact same ▸ keys
        · rw [List.map_cons, List.nodup_cons]
          exact keys
      · rename_i different
        rw [List.map_cons, List.nodup_cons, insertLatest_keys]
        refine ⟨?_, ih keys.2⟩
        intro either
        rcases either with same | inside
        · exact different same
        · exact keys.1 inside

/-- The table has the new object or a later one of its key, and else what it had. -/
theorem mem_insertLatest {object latest : Object} {table : List Object}
    (keys : (table.map Object.key).Nodup) (member : latest ∈ insertLatest object table) :
    (latest = object ∧ ∀ other ∈ table, other.key = object.key →
        other.sequence ≤ object.sequence) ∨
      (latest ∈ table ∧ (latest.key = object.key → object.sequence ≤ latest.sequence)) := by
  induction table with
  | nil =>
      left
      simpa [insertLatest] using member
  | cons current rest ih =>
      rw [List.map_cons, List.nodup_cons] at keys
      have alone : current.key = object.key → ∀ other ∈ rest, other.key ≠ object.key := by
        intro same other inside again
        exact keys.1 (same.trans again.symm ▸ List.mem_map_of_mem inside)
      rw [insertLatest] at member
      split at member
      · rename_i same
        split at member
        · rename_i older
          rcases List.mem_cons.mp member with rfl | inside
          · left
            refine ⟨rfl, List.forall_mem_cons.mpr ⟨fun _ => older.le, ?_⟩⟩
            intro other inside again
            exact absurd again (alone same other inside)
          · right
            exact ⟨List.mem_cons_of_mem _ inside,
              fun again => absurd again (alone same latest inside)⟩
        · rename_i newer
          right
          refine ⟨member, ?_⟩
          rcases List.mem_cons.mp member with rfl | inside
          · exact fun _ => not_lt.mp newer
          · exact fun again => absurd again (alone same latest inside)
      · rename_i different
        rcases List.mem_cons.mp member with rfl | inside
        · exact .inr ⟨List.mem_cons_self, fun same => absurd same different⟩
        · rcases ih keys.2 inside with ⟨rfl, most⟩ | ⟨kept, most⟩
          · left
            refine ⟨rfl, List.forall_mem_cons.mpr ⟨fun same => absurd same different, most⟩⟩
          · exact .inr ⟨List.mem_cons_of_mem _ kept, most⟩

theorem LatestOf.insert {table met : List Object} (sound : LatestOf table met) (object : Object) :
    LatestOf (insertLatest object table) (met ++ [object]) where
  keys := insertLatest_nodup sound.keys
  latest := by
    intro latest member
    rcases mem_insertLatest sound.keys member with ⟨rfl, most⟩ | ⟨kept, most⟩
    · refine ⟨by simp, ?_⟩
      intro other inside same
      rcases List.mem_append.mp inside with before | now
      · obtain ⟨held, tabled, key⟩ := sound.found other before
        have bound := (sound.latest held tabled).2 other before key.symm
        exact bound.trans (most held tabled (key.trans same))
      · rw [List.mem_singleton.mp now]
    · obtain ⟨inside, bound⟩ := sound.latest latest kept
      refine ⟨List.mem_append_left _ inside, ?_⟩
      intro other among same
      rcases List.mem_append.mp among with before | now
      · exact bound other before same
      · rw [List.mem_singleton.mp now] at same ⊢
        exact most same.symm
  found := by
    intro other inside
    have key : other.key ∈ (insertLatest object table).map Object.key := by
      rw [insertLatest_keys]
      rcases List.mem_append.mp inside with before | now
      · obtain ⟨held, tabled, key⟩ := sound.found other before
        exact .inr (key ▸ List.mem_map_of_mem tabled)
      · rw [List.mem_singleton.mp now]
        exact .inl rfl
    obtain ⟨latest, member, same⟩ := List.mem_map.mp key
    exact ⟨latest, member, same⟩

theorem latestOf_fold (objects : List Object) :
    LatestOf (objects.foldl (fun latest object => insertLatest object latest) []) objects := by
  induction objects using List.reverseRecOn with
  | nil => exact ⟨List.nodup_nil, fun _ member => absurd member List.not_mem_nil,
      fun _ member => absurd member List.not_mem_nil⟩
  | append_singleton objects object ih =>
      rw [List.foldl_append]
      exact ih.insert object

/-! ## The active objects -/

/-- The object counts for its key: it is the latest registration of a running generation. -/
def Counts (running : Nat → Bool) (m : Menu) (object : Object) : Prop :=
  object ∈ m.running running ∧
    ∀ other ∈ m.running running, other.key = object.key → other.sequence ≤ object.sequence

theorem Counts.member {running : Nat → Bool} {m : Menu} {object : Object}
    (counts : Counts running m object) : object ∈ m.objects := List.mem_of_mem_filter counts.1

/-- No two objects have one sequence number. -/
def Menu.Sequenced (m : Menu) : Prop := (m.objects.map Object.sequence).Nodup

theorem same_of_sequence {m : Menu} (sequenced : m.Sequenced) {a b : Object}
    (first : a ∈ m.objects) (second : b ∈ m.objects) (same : a.sequence = b.sequence) : a = b :=
  List.inj_on_of_nodup_map sequenced first second same

theorem active_perm (running : Nat → Bool) (m : Menu) :
    (m.active running).Perm
      ((m.running running).foldl (fun latest object => insertLatest object latest) []) :=
  List.mergeSort_perm _ _

theorem active_keys (running : Nat → Bool) (m : Menu) :
    ((m.active running).map Object.key).Nodup :=
  ((active_perm running m).map Object.key).nodup_iff.mpr (latestOf_fold _).keys

theorem mem_active {m : Menu} (sequenced : m.Sequenced) {running : Nat → Bool} {object : Object} :
    object ∈ m.active running ↔ Counts running m object := by
  have table := latestOf_fold (m.running running)
  rw [(active_perm running m).mem_iff]
  constructor
  · exact table.latest object
  · intro counts
    obtain ⟨latest, member, key⟩ := table.found object counts.1
    obtain ⟨inside, most⟩ := table.latest latest member
    have equal : latest.sequence = object.sequence :=
      le_antisymm (counts.2 latest inside key) (most object counts.1 key.symm)
    have same := same_of_sequence sequenced (List.mem_of_mem_filter inside)
      counts.member equal
    exact same ▸ member

theorem active_sorted (running : Nat → Bool) (m : Menu) :
    (m.active running).Pairwise fun a b => before a b = true := by
  have sorted : (m.active running).Pairwise fun a b => (!before b a) = true := by
    refine List.pairwise_mergeSort ?_ ?_ _
    · intro a b c left right
      simp only [Bool.not_eq_true', ← Bool.not_eq_true, before_iff, not_lt] at left right ⊢
      exact left.trans right
    · intro a b
      simp only [Bool.or_eq_true, Bool.not_eq_true', ← Bool.not_eq_true, before_iff, not_lt]
      exact le_total _ _
  have keys := List.pairwise_map.mp (active_keys running m)
  refine (sorted.and keys).imp ?_
  intro a b both
  obtain ⟨ordered, different⟩ := both
  simp only [Bool.not_eq_true', ← Bool.not_eq_true, before_iff, not_lt] at ordered
  rw [before_iff]
  refine lt_of_le_of_ne ordered ?_
  intro same
  exact different (rank_key same)

/-! ## The menu of a later moment -/

/-- What a page shows of the menu. -/
def Menu.content (m : Menu) : Text × List Object := (m.title, m.purge.objects)

/-- The menu of a later moment: while the revision is the same nothing has changed. -/
structure Later (m m' : Menu) : Prop where
  revision : m.revision ≤ m'.revision
  content : m'.revision = m.revision → m'.content = m.content

theorem Later.refl (m : Menu) : Later m m := ⟨le_refl _, fun _ => rfl⟩

theorem Later.trans {first second third : Menu} (left : Later first second)
    (right : Later second third) : Later first third where
  revision := left.revision.trans right.revision
  content := by
    intro same
    have before := left.revision
    have after := right.revision
    rw [right.content (by omega), left.content (by omega)]

/-- A step that counts up. -/
theorem Later.counted {m m' : Menu} (counted : m'.revision = m.revision + 1) : Later m m' :=
  ⟨by omega, fun same => by omega⟩

theorem later_purge (m : Menu) : Later m m.purge := by
  refine ⟨le_refl _, fun _ => ?_⟩
  simp [Menu.content, Menu.purge, List.filter_filter]

theorem getD_toOption {m : Menu} {P : Menu → Prop} (here : P m) {outcome : Except String Menu}
    (done : ∀ m', outcome = .ok m' → P m') : P (outcome.toOption.getD m) := by
  cases outcome with
  | error message => exact here
  | ok m' => exact done m' rfl

theorem later_apply (m : Menu) (operation : Operation) : Later m (m.apply operation) := by
  cases operation with
  | add r =>
      simp only [Menu.apply, Menu.add]
      split
      · exact Later.refl m
      · split
        · exact later_purge m
        · split
          · exact later_purge m
          · exact Later.counted rfl
  | close sequence =>
      simp only [Menu.apply, Menu.close]
      split
      · exact Later.refl m
      · exact Later.counted rfl
  | setLabel sequence value =>
      refine getD_toOption (Later.refl m) fun m' done => ?_
      obtain ⟨_, _, done⟩ := bind_eq_ok.mp done
      split at done
      · cases done
      · split at done <;> cases done
        · exact Later.counted rfl
        · exact Later.refl m
  | setOrder sequence value =>
      refine getD_toOption (Later.refl m) fun m' done => ?_
      unfold Menu.setOrder at done
      split at done
      · cases done
      · split at done <;> cases done
        · exact Later.counted rfl
        · exact Later.refl m
  | setTitle value =>
      refine getD_toOption (Later.refl m) fun m' done => ?_
      obtain ⟨_, _, done⟩ := bind_eq_ok.mp done
      split at done <;> cases done
      · exact Later.counted rfl
      · exact Later.refl m
  | build => exact later_purge m

theorem later_perform (operations : List Operation) :
    ∀ m : Menu, Later m (m.perform operations) := by
  induction operations with
  | nil => exact Later.refl
  | cons operation rest ih =>
      intro m
      exact (later_apply m operation).trans (ih _)

/-! ## The decisions -/

section Decisions

theorem lookup_emplace_self {key : Text} {access : Access} {visibility : Visibility}
    (fresh : visibility.lookup key = none) :
    (visibility.emplace key access).lookup key = some access := by
  rw [Visibility.emplace, fresh]
  simp [List.lookup_append, fresh]

theorem lookup_emplace_other {key other : Text} {access : Access} (visibility : Visibility)
    (different : other ≠ key) :
    (visibility.emplace key access).lookup other = visibility.lookup other := by
  unfold Visibility.emplace
  split
  · rfl
  · have apart : (other == key) = false := by simpa using different
    have skipped : List.lookup other [(key, access)] = none := by
      simp [List.lookup, apart]
    rw [List.lookup_append, skipped, Option.or_none]

/-- A callback that only decides. -/
def pureAccess (access : Object → Access) : Callback := fun object _ => (access object, [])

/-- A callback that decides by the object alone, and whose operations on the menu leave
it at its revision. -/
structure Decides (access : Object → Access) (callback : Callback) (m : Menu) : Prop where
  decision : ∀ object m', Later m m' → m'.revision = m.revision →
    (callback object m').1 = access object
  unchanged : ∀ object m', Later m m' → m'.revision = m.revision →
    (m'.perform (callback object m').2).revision = m.revision

theorem decides_pureAccess (access : Object → Access) (m : Menu) :
    Decides access (pureAccess access) m where
  decision := fun _ _ _ _ => rfl
  unchanged := fun _ _ _ same => same

variable {access : Object → Access} {callback : Callback} {m : Menu}

/-- The first loop enters the decision of each category, and nothing else. -/
theorem decideCategories_decides (decides : Decides access callback m) :
    ∀ (objects : List Object) (visibility : Visibility) (m' : Menu), Later m m' →
      m'.revision = m.revision → (objects.map Object.key).Nodup →
      (∀ object ∈ objects, visibility.lookup object.key = none) →
      ∃ after left, decideCategories callback m.revision objects visibility m' =
          (.ok after, left) ∧ Later m left ∧ left.revision = m.revision ∧
        (∀ object ∈ objects, object.kind = .category →
          after.lookup object.key = some (access object)) ∧
        ∀ key, (∀ object ∈ objects, object.kind = .category → object.key ≠ key) →
          after.lookup key = visibility.lookup key := by
  intro objects
  induction objects with
  | nil =>
      intro visibility m' later same _ _
      exact ⟨visibility, m', rfl, later, same, fun _ member => absurd member List.not_mem_nil,
        fun _ _ => rfl⟩
  | cons object rest ih =>
      intro visibility m' later same keys fresh
      rw [List.map_cons, List.nodup_cons] at keys
      obtain ⟨fresh_here, fresh_later⟩ := List.forall_mem_cons.mp fresh
      have apart : ∀ other ∈ rest, other.key ≠ object.key := by
        intro other member equal
        exact keys.1 (equal ▸ List.mem_map_of_mem member)
      by_cases kind : object.kind = .category
      · have entered : ∀ other ∈ rest,
            (visibility.emplace object.key (access object)).lookup other.key = none := by
          intro other member
          rw [lookup_emplace_other _ (apart other member)]
          exact fresh_later other member
        have still := decides.unchanged object m' later same
        obtain ⟨after, left, done, last, kept, inside, outside⟩ := ih _ _
          (later.trans (later_perform _ m')) still keys.2 entered
        have here : after.lookup object.key = some (access object) := by
          rw [outside object.key (fun other member _ => apart other member)]
          exact lookup_emplace_self fresh_here
        refine ⟨after, left, ?_, last, kept, ?_, ?_⟩
        · rw [decideCategories, if_pos kind]
          dsimp only
          rw [if_neg (not_not.mpr still), decides.decision object m' later same]
          exact done
        · exact List.forall_mem_cons.mpr ⟨fun _ => here, inside⟩
        · intro key none
          obtain ⟨not_here, not_later⟩ := List.forall_mem_cons.mp none
          rw [outside key not_later, lookup_emplace_other _ (not_here kind).symm]
      · obtain ⟨after, left, done, last, kept, inside, outside⟩ :=
          ih visibility m' later same keys.2 fresh_later
        refine ⟨after, left, ?_, last, kept, ?_, ?_⟩
        · rw [decideCategories, if_neg kind]
          exact done
        · exact List.forall_mem_cons.mpr ⟨fun equal => absurd equal kind, inside⟩
        · intro key none
          exact outside key (List.forall_mem_cons.mp none).2

/-- What the second loop enters for an item. -/
def itemDecision (access : Object → Access) (visibility : Visibility) (object : Object) : Access :=
  if allowedCategory visibility object then access object else .hidden

theorem itemDecision_congr {visibility other : Visibility} {object : Object}
    (same : object.category.isEmpty = true ∨
      visibility.lookup object.category = other.lookup object.category) :
    itemDecision access visibility object = itemDecision access other object := by
  unfold itemDecision allowedCategory
  rcases same with empty | same
  · simp [empty]
  · rw [same]

/-- The second loop enters the decision of each item whose category is not itself an item. -/
theorem decideItems_decides (decides : Decides access callback m) :
    ∀ (objects : List Object) (visibility : Visibility) (m' : Menu), Later m m' →
      m'.revision = m.revision → (objects.map Object.key).Nodup →
      (∀ object ∈ objects, object.kind = .item → visibility.lookup object.key = none) →
      ∃ after left, decideItems callback m.revision objects visibility m' = (.ok after, left) ∧
        (∀ object ∈ objects, object.kind = .item →
          (object.category.isEmpty = true ∨
            ∀ other ∈ objects, other.kind = .item → other.key ≠ object.category) →
          after.lookup object.key = some (itemDecision access visibility object)) ∧
        ∀ key, (∀ object ∈ objects, object.kind = .item → object.key ≠ key) →
          after.lookup key = visibility.lookup key := by
  intro objects
  induction objects with
  | nil =>
      intro visibility m' _ _ _ _
      exact ⟨visibility, m', rfl, fun _ member => absurd member List.not_mem_nil, fun _ _ => rfl⟩
  | cons object rest ih =>
      intro visibility m' later same keys fresh
      rw [List.map_cons, List.nodup_cons] at keys
      obtain ⟨fresh_here, fresh_later⟩ := List.forall_mem_cons.mp fresh
      have apart : ∀ other ∈ rest, other.key ≠ object.key := by
        intro other member equal
        exact keys.1 (equal ▸ List.mem_map_of_mem member)
      by_cases kind : object.kind = .item
      · have entered : ∀ other ∈ rest, other.kind = .item →
            (visibility.emplace object.key (itemDecision access visibility object)).lookup
              other.key = none := by
          intro other member item
          rw [lookup_emplace_other _ (apart other member)]
          exact fresh_later other member item
        -- a hidden category leaves the menu alone, an open one asks the callback
        obtain ⟨operations, answer, further, still⟩ : ∃ operations,
            (if allowedCategory visibility object then callback object m' else (.hidden, [])) =
              (itemDecision access visibility object, operations) ∧
            Later m (m'.perform operations) ∧ (m'.perform operations).revision = m.revision := by
          unfold itemDecision
          cases allowedCategory visibility object with
          | true =>
              exact ⟨_, Prod.ext (decides.decision object m' later same) rfl,
                later.trans (later_perform _ m'), decides.unchanged object m' later same⟩
          | false => exact ⟨[], rfl, later, same⟩
        obtain ⟨after, left, done, inside, outside⟩ := ih _ _ further still keys.2 entered
        have here : after.lookup object.key = some (itemDecision access visibility object) := by
          rw [outside object.key (fun other member _ => apart other member)]
          exact lookup_emplace_self (fresh_here kind)
        refine ⟨after, left, ?_, ?_, ?_⟩
        · rw [decideItems, if_pos kind, answer]
          dsimp only
          rw [if_neg (not_not.mpr still)]
          exact done
        · refine List.forall_mem_cons.mpr ⟨fun _ _ => here, ?_⟩
          intro other member item free
          have later : other.category.isEmpty = true ∨
              ∀ third ∈ rest, third.kind = .item → third.key ≠ other.category := by
            rcases free with empty | free
            · exact .inl empty
            · exact .inr fun third inner => free third (List.mem_cons_of_mem _ inner)
          rw [inside other member item later]
          refine congrArg some (itemDecision_congr ?_)
          rcases free with empty | free
          · exact .inl empty
          · exact .inr (lookup_emplace_other _ (free object List.mem_cons_self kind).symm)
        · intro key none
          obtain ⟨not_here, not_later⟩ := List.forall_mem_cons.mp none
          rw [outside key not_later, lookup_emplace_other _ (not_here kind).symm]
      · obtain ⟨after, left, done, inside, outside⟩ :=
          ih visibility m' later same keys.2 fresh_later
        refine ⟨after, left, ?_, ?_, ?_⟩
        · rw [decideItems, if_neg kind]
          exact done
        · refine List.forall_mem_cons.mpr ⟨fun equal => absurd equal kind, ?_⟩
          intro other member item free
          refine inside other member item ?_
          rcases free with empty | free
          · exact .inl empty
          · exact .inr fun third inner => free third (List.mem_cons_of_mem _ inner)
        · intro key none
          exact outside key (List.forall_mem_cons.mp none).2

/-- What the two loops have entered for the active objects. -/
structure Decided (access : Object → Access) (active : List Object) (visibility : Visibility) :
    Prop where
  category : ∀ object ∈ active, object.kind = .category →
    decision visibility object = access object
  free : ∀ object ∈ active, object.kind = .item → object.category.isEmpty = true →
    decision visibility object = access object
  inside : ∀ object ∈ active, object.kind = .item → ∀ holder ∈ active,
    holder.kind = .category → holder.key = object.category → object.category.isEmpty = false →
    decision visibility object = if access holder = .enabled then access object else .hidden

theorem decided_loops (decides : Decides access callback m) {active : List Object}
    (keys : (active.map Object.key).Nodup) :
    ∃ categories visibility middle left,
      decideCategories callback m.revision active [] m.purge = (.ok categories, middle) ∧
      decideItems callback m.revision active categories middle = (.ok visibility, left) ∧
      Decided access active visibility := by
  obtain ⟨categories, middle, first, later, same, entered, others⟩ :=
    decideCategories_decides decides active [] m.purge (later_purge m) rfl keys fun _ _ => rfl
  have kinds : ∀ holder ∈ active, holder.kind = .category → ∀ other ∈ active,
      other.kind = .item → other.key ≠ holder.key := by
    intro holder member kind other inner item equal
    have identical := List.inj_on_of_nodup_map keys inner member equal
    rw [identical, kind] at item
    cases item
  have fresh : ∀ object ∈ active, object.kind = .item →
      categories.lookup object.key = none := by
    intro object member item
    refine others object.key fun holder inner kind => ?_
    exact (kinds holder inner kind object member item).symm
  obtain ⟨visibility, left, second, items, kept⟩ :=
    decideItems_decides decides active categories middle later same keys fresh
  refine ⟨categories, visibility, middle, left, first, second, ?_, ?_, ?_⟩
  · intro object member kind
    rw [decision, kept object.key (kinds object member kind), entered object member kind]
    rfl
  · intro object member item empty
    rw [decision, items object member item (.inl empty), itemDecision, allowedCategory, empty]
    rfl
  · intro object member item holder inner kind key filled
    have free : ∀ other ∈ active, other.kind = .item → other.key ≠ object.category :=
      key ▸ kinds holder inner kind
    rw [decision, items object member item (.inr free), itemDecision, allowedCategory, filled,
      ← key, entered holder inner kind]
    cases access holder <;> rfl

end Decisions

/-! ## The rows that are shown -/

section Shown
variable (access : Object → Access) (running : Nat → Bool) (m : Menu) (category : Text)

/-- The object is a category that counts and that the viewer may use. -/
def EnabledCategory (key : Text) : Prop :=
  ∃ holder, Counts running m holder ∧ holder.kind = .category ∧ holder.key = key ∧
    access holder = .enabled

/-- The object is a row of the category's pages: an item of it, or, with no category, a
category that is enabled and has an item the viewer may see. -/
def Visible (object : Object) : Prop :=
  Counts running m object ∧ access object ≠ .hidden ∧
    ((object.kind = .item ∧ object.category = category) ∨
      (object.kind = .category ∧ category = [] ∧ access object = .enabled ∧
        ∃ child, Counts running m child ∧ child.kind = .item ∧ child.category = object.key ∧
          access child ≠ .hidden))

/-- The pages of the category can be built. -/
def Available : Prop := category = [] ∨ EnabledCategory access running m category

variable {access running m category}

/-- The decision on an item of the category whose pages are built. -/
theorem decided_item {visibility : Visibility} (sequenced : m.Sequenced)
    (decided : Decided access (m.active running) visibility)
    (available : Available access running m category) {object : Object}
    (member : object ∈ m.active running) (item : object.kind = .item)
    (same : object.category = category) : decision visibility object = access object := by
  cases empty : object.category.isEmpty with
  | true => exact decided.free object member item empty
  | false =>
      rcases available with rfl | ⟨holder, counts, kind, key, enabled⟩
      · rw [same] at empty
        cases empty
      · rw [decided.inside object member item holder ((mem_active sequenced).mpr counts) kind
          (key.trans same.symm) empty, if_pos enabled]

/-- The decision on an item of a category that is shown as a row. -/
theorem decided_child {visibility : Visibility}
    (named : ∀ object ∈ m.objects, object.key ≠ [])
    (decided : Decided access (m.active running) visibility) {holder child : Object}
    (member : holder ∈ m.active running) (kind : holder.kind = .category)
    (inner : child ∈ m.active running) (item : child.kind = .item)
    (same : child.category = holder.key) :
    decision visibility child = if access holder = .enabled then access child else .hidden := by
  have inside : holder ∈ m.objects := by
    have latest := (active_perm running m).mem_iff.mp member
    exact List.mem_of_mem_filter ((latestOf_fold _).latest holder latest).1
  have filled : child.category.isEmpty = false := by
    rw [same]
    cases key : holder.key with
    | nil => exact absurd key (named holder inside)
    | cons c rest => rfl
  exact decided.inside child inner item holder member kind same.symm filled

theorem mem_shown {visibility : Visibility} (sequenced : m.Sequenced)
    (named : ∀ object ∈ m.objects, object.key ≠ [])
    (decided : Decided access (m.active running) visibility)
    (available : Available access running m category) {object : Object} :
    object ∈ shown category (m.active running) visibility ↔
      Visible access running m category object := by
  simp only [shown, List.mem_filter, visible, Bool.and_eq_true, Bool.or_eq_true, bne_iff_ne,
    beq_iff_eq, List.any_eq_true, List.isEmpty_iff, Visible]
  constructor
  · intro row
    obtain ⟨member, seen, ⟨item, same⟩ | ⟨⟨kind, empty⟩, child, inner, ⟨item, same⟩, open_⟩⟩ := row
    · rw [decided_item sequenced decided available member item same] at seen
      exact ⟨(mem_active sequenced).mp member, seen, .inl ⟨item, same⟩⟩
    · rw [decided.category object member kind] at seen
      rw [decided_child named decided member kind inner item same] at open_
      have enabled : access object = .enabled := by
        by_contra other
        rw [if_neg other] at open_
        exact open_ rfl
      rw [if_pos enabled] at open_
      exact ⟨(mem_active sequenced).mp member, seen, .inr ⟨kind, empty, enabled, child,
        (mem_active sequenced).mp inner, item, same, open_⟩⟩
  · intro row
    obtain ⟨counts, seen, ⟨item, same⟩ | ⟨kind, empty, enabled, child, inner, item, same, open_⟩⟩ :=
      row
    · have member := (mem_active sequenced).mpr counts
      refine ⟨member, ?_, .inl ⟨item, same⟩⟩
      rw [decided_item sequenced decided available member item same]
      exact seen
    · have member := (mem_active sequenced).mpr counts
      have below := (mem_active sequenced).mpr inner
      refine ⟨member, ?_, .inr ⟨⟨kind, empty⟩, child, below, ⟨item, same⟩, ?_⟩⟩
      · rw [decided.category object member kind]
        exact seen
      · rw [decided_child named decided member kind below item same, if_pos enabled]
        exact open_

/-- A row is shown with the viewer's access to its object. -/
theorem decision_shown {visibility : Visibility} (sequenced : m.Sequenced)
    (decided : Decided access (m.active running) visibility)
    (available : Available access running m category) {object : Object}
    (member : object ∈ shown category (m.active running) visibility) :
    decision visibility object = access object := by
  obtain ⟨inside, row⟩ := List.mem_filter.mp member
  simp only [Bool.and_eq_true, Bool.or_eq_true, beq_iff_eq] at row
  obtain ⟨_, ⟨item, same⟩ | ⟨⟨kind, _⟩, _⟩⟩ := row
  · exact decided_item sequenced decided available inside item same
  · exact decided.category object inside kind

/-- The title is found just when the category's pages can be built. -/
theorem pageTitle_available {visibility : Visibility} (sequenced : m.Sequenced)
    (decided : Decided access (m.active running) visibility) (title : Text) :
    (Available access running m category →
      ∃ text, pageTitle title category (m.active running) visibility = .ok text) ∧
    (¬ Available access running m category →
      pageTitle title category (m.active running) visibility =
        .error "Top menu category is no longer available.") := by
  unfold pageTitle
  cases empty : category.isEmpty with
  | true =>
      refine ⟨fun _ => ⟨title, rfl⟩, fun never => absurd (.inl (List.isEmpty_iff.mp empty)) never⟩
  | false =>
      have filled : category ≠ [] := by
        intro nil
        rw [nil] at empty
        cases empty
      rw [if_neg (by simp)]
      cases found : (m.active running).find? fun object => object.key == category &&
          object.kind == .category && decision visibility object == .enabled with
      | none =>
          refine ⟨?_, fun _ => rfl⟩
          intro available
          obtain ⟨holder, counts, kind, key, enabled⟩ := available.resolve_left filled
          have member := (mem_active sequenced).mpr counts
          have missed := List.find?_eq_none.mp found holder member
          rw [decided.category holder member kind] at missed
          simp [key, kind, enabled] at missed
      | some holder =>
          refine ⟨fun _ => ⟨holder.label, rfl⟩, ?_⟩
          intro never
          have member := List.mem_of_find?_eq_some found
          have passed := List.find?_some found
          simp only [Bool.and_eq_true, beq_iff_eq] at passed
          obtain ⟨⟨key, kind⟩, enabled⟩ := passed
          rw [decided.category holder member kind] at enabled
          exact absurd (.inr ⟨holder, (mem_active sequenced).mp member, kind, key, enabled⟩) never

end Shown

/-! ## The rows of a page -/

theorem mem_rowIf {condition : Bool} {row other : Row} (member : other ∈ rowIf condition row) :
    other = row := by
  unfold rowIf at member
  split at member
  · exact List.mem_singleton.mp member
  · exact absurd member List.not_mem_nil

theorem rowIf_length (condition : Bool) (row : Row) : (rowIf condition row).length ≤ 1 := by
  cases condition <;> simp [rowIf]

theorem rowIf_objects {condition : Bool} {row : Row} (free : row.object = none) :
    (rowIf condition row).filterMap Row.object = [] := by
  cases condition <;> simp [rowIf, free]

theorem rowIf_pages {condition : Bool} {row : Row} :
    ((rowIf condition row).filter fun row => 0 ≤ row.page).map Row.page =
      if condition = true ∧ 0 ≤ row.page then [row.page] else [] := by
  by_cases leads : 0 ≤ row.page <;> cases condition <;> simp [rowIf, leads]

section Rows
variable {category : Text} {objects : List Object} {visibility : Visibility} {page : Nat}

theorem nonempty_length (filled : objects.isEmpty = false) : 0 < objects.length := by
  rw [List.length_pos_iff]
  intro nil
  rw [nil] at filled
  cases filled

theorem following_page :
    page * perPage + perPage < objects.length ↔ page < lastPage objects := by
  unfold lastPage perPage
  cases empty : objects.isEmpty with
  | true =>
      rw [List.isEmpty_iff.mp empty]
      simp
  | false =>
      have some_row := nonempty_length empty
      simp only [Bool.false_eq_true, if_false]
      omega

theorem lastPage_covers (objects : List Object) :
    objects.length ≤ (lastPage objects + 1) * perPage := by
  have none_after : ¬ lastPage objects * perPage + perPage < objects.length :=
    following_page.not.mpr (lt_irrefl _)
  rw [Nat.succ_mul]
  omega

theorem rows_objects :
    (rows category objects visibility page).filterMap Row.object =
      (objects.drop (page * perPage)).take perPage := by
  have here : Row.object ∘ objectRow visibility = some := rfl
  unfold rows
  simp only [List.filterMap_append, List.filterMap_map, here, List.filterMap_some, rowIf_objects,
    List.append_nil]

theorem rows_length : (rows category objects visibility page).length ≤ 32 := by
  have slice : ((objects.drop (page * perPage)).take perPage).length ≤ 28 := List.length_take_le _ _
  have one := rowIf_length
  unfold rows
  simp only [List.length_append, List.length_map]
  have nothing := one objects.isEmpty
    { label := "No available actions".toList, enabled := false, empty := true }
  have previous := one (page != 0)
    { label := "Previous page".toList, enabled := true, page := (page : Int) - 1 }
  have next := one (page * perPage + perPage < objects.length)
    { label := "Next page".toList, enabled := true, page := page + 1 }
  have back := one (!category.isEmpty)
    { label := "Back to categories".toList, enabled := true, back := true }
  omega

theorem rows_object {row : Row} (member : row ∈ rows category objects visibility page)
    {object : Object} (here : row.object = some object) :
    object ∈ objects ∧ row.label = object.label ∧
      row.enabled = (decision visibility object == .enabled) := by
  unfold rows at member
  simp only [List.mem_append] at member
  rcases member with (((inside | other) | other) | other) | other
  · obtain ⟨shown, found, rfl⟩ := List.mem_map.mp inside
    cases here
    exact ⟨List.mem_of_mem_drop (List.mem_of_mem_take found), rfl, rfl⟩
  all_goals
    rw [mem_rowIf other] at here
    cases here

/-- The rows that lead to pages lead to the one before and the one after. -/
theorem rows_pages :
    ((rows category objects visibility page).filter fun row => 0 ≤ row.page).map Row.page =
      (if page ≠ 0 then [(page : Int) - 1] else []) ++
        (if page < lastPage objects then [(page : Int) + 1] else []) := by
  have slice : ∀ list : List Object,
      (list.map (objectRow visibility)).filter (fun row => 0 ≤ row.page) = [] := by
    intro list
    simp [List.filter_eq_nil_iff, objectRow]
  have previous : (page != 0) = true ∧ (0 : Int) ≤ (page : Int) - 1 ↔ page ≠ 0 := by
    rw [bne_iff_ne]
    omega
  have next : decide (page * perPage + perPage < objects.length) = true ∧
      (0 : Int) ≤ (page : Int) + 1 ↔ page < lastPage objects := by
    rw [decide_eq_true_eq, following_page]
    omega
  unfold rows
  simp only [List.filter_append, List.map_append, slice, rowIf_pages, previous, next]
  simp

theorem rows_nonempty (inside : page ≤ lastPage objects) :
    rows category objects visibility page ≠ [] := by
  unfold rows
  intro nothing
  simp only [List.append_eq_nil_iff, List.map_eq_nil_iff] at nothing
  cases empty : objects.isEmpty with
  | true =>
      rw [empty] at nothing
      exact absurd nothing.1.1.1.2 (List.cons_ne_nil _ _)
  | false =>
      have some_row := nonempty_length empty
      have start : page * perPage < objects.length := by
        unfold lastPage at inside
        unfold perPage at inside ⊢
        simp only [empty, Bool.false_eq_true, if_false] at inside
        omega
      have slice : ((objects.drop (page * perPage)).take perPage).length ≠ 0 := by
        rw [List.length_take, List.length_drop]
        unfold perPage at start ⊢
        omega
      exact slice (List.length_eq_zero_iff.mpr nothing.1.1.1.1)

end Rows

/-! ## The menus that plugins make -/

/-- Every object has a sequence number of its own, and a key. -/
structure Menu.Sound (m : Menu) : Prop where
  sequenced : m.Sequenced
  used : ∀ object ∈ m.objects, object.sequence < m.nextSequence
  named : ∀ object ∈ m.objects, object.key ≠ []

theorem Menu.Sound.purge {m : Menu} (sound : m.Sound) : m.purge.Sound where
  sequenced := sound.sequenced.sublist (List.filter_sublist.map Object.sequence)
  used := fun object member => sound.used object (List.mem_of_mem_filter member)
  named := fun object member => sound.named object (List.mem_of_mem_filter member)

theorem Menu.Sound.edit {m : Menu} (sound : m.Sound) (sequence : Nat) {f : Object → Object}
    (same : ∀ object, (f object).sequence = object.sequence ∧ (f object).key = object.key) :
    (m.edit sequence f).Sound := by
  have kept : ∀ object : Object,
      (if object.sequence = sequence then f object else object).sequence = object.sequence ∧
        (if object.sequence = sequence then f object else object).key = object.key := by
    intro object
    split
    · exact same object
    · exact ⟨rfl, rfl⟩
  constructor
  · have sequences : (m.objects.map fun object =>
        if object.sequence = sequence then f object else object).map Object.sequence =
        m.objects.map Object.sequence := by
      rw [List.map_map]
      exact List.map_congr_left fun object _ => (kept object).1
    rw [Menu.Sequenced, Menu.edit, sequences]
    exact sound.sequenced
  · intro object member
    obtain ⟨old, inside, rfl⟩ := List.mem_map.mp member
    show _ < m.nextSequence
    rw [(kept old).1]
    exact sound.used old inside
  · intro object member
    obtain ⟨old, inside, rfl⟩ := List.mem_map.mp member
    exact (kept old).2 ▸ sound.named old inside

theorem Menu.Sound.close {m : Menu} (sound : m.Sound) (sequence : Nat) :
    (m.close sequence).Sound := by
  unfold Menu.close
  split
  · exact sound
  · exact sound.edit sequence fun _ => ⟨rfl, rfl⟩

theorem Menu.Sound.setLabel {m m' : Menu} (sound : m.Sound) {sequence : Nat} {value : Text}
    (done : m.setLabel sequence value = .ok m') : m'.Sound := by
  obtain ⟨_, _, done⟩ := bind_eq_ok.mp done
  split at done
  · cases done
  · split at done
    · cases done
      exact sound.edit sequence fun _ => ⟨rfl, rfl⟩
    · cases done
      exact sound

theorem Menu.Sound.setOrder {m m' : Menu} (sound : m.Sound) {sequence : Nat} {value : Int}
    (done : m.setOrder sequence value = .ok m') : m'.Sound := by
  unfold Menu.setOrder at done
  split at done
  · cases done
  · split at done
    · cases done
      exact sound.edit sequence fun _ => ⟨rfl, rfl⟩
    · cases done
      exact sound

theorem Menu.Sound.setTitle {m m' : Menu} (sound : m.Sound) {value : Text}
    (done : m.setTitle value = .ok m') : m'.Sound := by
  obtain ⟨_, _, done⟩ := bind_eq_ok.mp done
  split at done
  · cases done
    exact ⟨sound.sequenced, sound.used, sound.named⟩
  · cases done
    exact sound

theorem checkKey_filled {value : Text} (fine : checkKey value false = .ok ()) : value ≠ [] := by
  rintro rfl
  cases fine

theorem Menu.Sound.add {m : Menu} (sound : m.Sound) (r : Menu.Registration) :
    (m.add r).2.Sound := by
  unfold Menu.add
  cases checked : r.check with
  | error message => exact sound
  | ok done =>
      have purged := sound.purge
      have key : r.key ≠ [] := by
        obtain ⟨_, first, _⟩ := bind_eq_ok.mp checked
        exact checkKey_filled first
      dsimp only
      split
      · exact purged
      · split
        · exact purged
        · constructor
          · have fresh : m.nextSequence ∉ m.purge.objects.map Object.sequence := by
              intro member
              obtain ⟨object, inside, same⟩ := List.mem_map.mp member
              exact absurd same (purged.used object inside).ne
            have appended : ((m.purge.objects ++ [r.object m.nextSequence]).map
                Object.sequence).Nodup := by
              rw [List.map_append, List.nodup_append]
              refine ⟨purged.sequenced, List.nodup_singleton _, ?_⟩
              intro left member right last equal
              rw [List.map_singleton, List.mem_singleton] at last
              rw [equal, last] at member
              exact fresh member
            exact appended
          · intro object member
            rcases List.mem_append.mp member with inside | last
            · exact (purged.used object inside).trans (Nat.lt_succ_self _)
            · rw [List.mem_singleton.mp last]
              exact Nat.lt_succ_self _
          · intro object member
            rcases List.mem_append.mp member with inside | last
            · exact purged.named object inside
            · rw [List.mem_singleton.mp last]
              exact key

theorem Menu.Sound.apply {m : Menu} (sound : m.Sound) (operation : Operation) :
    (m.apply operation).Sound := by
  cases operation with
  | add r => exact sound.add r
  | close sequence => exact sound.close sequence
  | setLabel sequence value => exact getD_toOption sound fun _ => sound.setLabel
  | setOrder sequence value => exact getD_toOption sound fun _ => sound.setOrder
  | setTitle value => exact getD_toOption sound fun _ => sound.setTitle
  | build => exact sound.purge

/-- The menu of a title after some operations. -/
def Menu.Reachable (m : Menu) : Prop :=
  ∃ title operations, m = ({ title } : Menu).perform operations

theorem Menu.Reachable.sound {m : Menu} (reachable : m.Reachable) : m.Sound := by
  obtain ⟨title, operations, rfl⟩ := reachable
  have start : ({ title } : Menu).Sound :=
    ⟨List.nodup_nil, fun _ member => absurd member List.not_mem_nil,
      fun _ member => absurd member List.not_mem_nil⟩
  unfold Menu.perform
  induction operations using List.reverseRecOn with
  | nil => exact start
  | append_singleton operations operation ih =>
      rw [List.foldl_append]
      exact ih.apply operation

/-! ## The pages of a menu -/

/-- The rows that a category shows: in their order, each key once, and exactly those the
viewer may see; an item only while its category is enabled. -/
structure ShownOf (access : Object → Access) (running : Nat → Bool) (m : Menu) (category : Text)
    (shown : List Object) : Prop where
  sorted : shown.Pairwise fun a b => before a b = true
  keys : (shown.map Object.key).Nodup
  exact_rows : ∀ object, object ∈ shown ↔ Visible access running m category object
  items : ∀ object ∈ shown, object.kind = .item →
    object.category = [] ∨ EnabledCategory access running m object.category

/-- What a page is, of the rows that its category shows. -/
structure PageOf (access : Object → Access) (shown : List Object) (page : Page) : Prop where
  inside : page.page ≤ lastPage shown
  objects : page.rows.filterMap Row.object = (shown.drop (page.page * perPage)).take perPage
  nonempty : page.rows ≠ []
  bounded : page.rows.length ≤ 32
  neighbours : (page.rows.filter fun row => 0 ≤ row.page).map Row.page =
    (if page.page ≠ 0 then [(page.page : Int) - 1] else []) ++
      (if page.page < lastPage shown then [(page.page : Int) + 1] else [])
  labelled : ∀ row ∈ page.rows, ∀ object, row.object = some object →
    row.label = object.label ∧ (row.enabled = true ↔ access object = .enabled)

section Pages
variable {m : Menu} {category : Text} {access : Object → Access} {callback : Callback}

/-- `Build` with a callback that leaves the menu at its revision. -/
theorem build_decides (decides : Decides access callback m) (running : Nat → Bool)
    (named : checkKey category true = .ok ()) :
    ∃ visibility, Decided access (m.active running) visibility ∧
      ∀ requested, (m.build category requested running callback).1 =
        match pageTitle m.title category (m.active running) visibility with
        | .error message => .error message
        | .ok title =>
            let shown := shown category (m.active running) visibility
            .ok { title, category,
                  rows := rows category shown visibility (min requested (lastPage shown)),
                  page := min requested (lastPage shown), revision := m.revision } := by
  obtain ⟨categories, visibility, middle, left, first, second, decided⟩ :=
    decided_loops decides (active_keys running m)
  refine ⟨visibility, decided, ?_⟩
  intro requested
  unfold Menu.build
  rw [named]
  dsimp only
  rw [first]
  dsimp only
  rw [second]
  dsimp only
  cases pageTitle m.title category (m.active running) visibility <;> rfl

/-- The pages of a category that can be built are the pieces of its sorted visible rows. -/
theorem build_available (decides : Decides access callback m) (running : Nat → Bool)
    (sound : m.Sound) (named : checkKey category true = .ok ())
    (available : Available access running m category) :
    ∃ (shown : List Object) (pages : Nat → Page),
      ShownOf access running m category shown ∧
      (∀ requested, (m.build category requested running callback).1 = .ok (pages requested)) ∧
      (∀ requested, (pages requested).page = min requested (lastPage shown) ∧
        PageOf access shown (pages requested) ∧
        pages requested = pages (min requested (lastPage shown))) ∧
      (List.range (lastPage shown + 1)).flatMap
        (fun number => (pages number).rows.filterMap Row.object) = shown := by
  obtain ⟨visibility, decided, built⟩ := build_decides decides running named
  obtain ⟨title, titled⟩ := (pageTitle_available sound.sequenced decided m.title).1 available
  rw [titled] at built
  have members : ∀ object, object ∈ shown category (m.active running) visibility ↔
      Visible access running m category object := by
    intro object
    exact mem_shown sound.sequenced sound.named decided available
  refine ⟨shown category (m.active running) visibility, fun requested =>
    { title, category,
      rows := rows category (shown category (m.active running) visibility) visibility
        (min requested (lastPage (shown category (m.active running) visibility))),
      page := min requested (lastPage (shown category (m.active running) visibility)),
      revision := m.revision },
    ⟨(active_sorted running m).sublist List.filter_sublist,
      (active_keys running m).sublist (List.filter_sublist.map Object.key), members, ?_⟩,
    built, ?_, ?_⟩
  · intro object among item
    obtain ⟨_, _, ⟨_, same⟩ | ⟨other, _⟩⟩ := (members object).mp among
    · exact same ▸ available
    · rw [other] at item
      cases item
  · intro requested
    have inside := min_le_right requested
      (lastPage (shown category (m.active running) visibility))
    refine ⟨rfl, ⟨inside, rows_objects, rows_nonempty inside, rows_length, rows_pages, ?_⟩, ?_⟩
    · intro row here object same
      obtain ⟨among, label, enabled⟩ := rows_object here same
      have decision := decision_shown sound.sequenced decided available among
      refine ⟨label, ?_⟩
      rw [enabled, decision, beq_iff_eq]
    · simp only [min_assoc, min_self]
  · refine Eq.trans (List.flatMap_congr ?_) (Pieces.pieces_cover _ (lastPage_covers _))
    intro number among
    have small := Nat.lt_succ_iff.mp (List.mem_range.mp among)
    dsimp only
    rw [min_eq_left small]
    exact rows_objects

/-- A category that may not be seen has no pages. -/
theorem build_unavailable (decides : Decides access callback m) (running : Nat → Bool)
    (sound : m.Sound) (never : ¬ (checkKey category true = .ok () ∧ Available access running m category))
    (requested : Nat) :
    ∃ message, (m.build category requested running callback).1 = .error message := by
  cases named : checkKey category true with
  | error message =>
      refine ⟨message, ?_⟩
      rw [Menu.build, named]
  | ok done =>
      obtain ⟨visibility, decided, built⟩ := build_decides decides running named
      have missing : ¬ Available access running m category := fun available =>
        never ⟨named, available⟩
      have untitled := (pageTitle_available sound.sequenced decided m.title).2 missing
      rw [untitled] at built
      exact ⟨_, built requested⟩

end Pages

/-! ## Menus that change while they are built -/

section Changes
variable (access : Callback) (revision : Nat)

/-- The first loop goes on only while the revision is the first one. -/
theorem decideCategories_later : ∀ (objects : List Object) (visibility : Visibility) (m : Menu),
    Later m (decideCategories access revision objects visibility m).2 ∧
      (m.revision = revision → ∀ after,
        (decideCategories access revision objects visibility m).1 = .ok after →
        (decideCategories access revision objects visibility m).2.revision = revision) := by
  intro objects
  induction objects with
  | nil => exact fun _ m => ⟨Later.refl m, fun same _ _ => same⟩
  | cons object rest ih =>
      intro visibility m
      rw [decideCategories]
      split
      · have later := later_perform (access object m).2 m
        dsimp only
        split
        · exact ⟨later, fun _ after missing => nomatch missing⟩
        · rename_i same
          obtain ⟨further, kept⟩ := ih (visibility.emplace object.key (access object m).1)
            (m.perform (access object m).2)
          exact ⟨later.trans further, fun _ => kept (not_not.mp same)⟩
      · exact ih visibility m

theorem decideItems_later : ∀ (objects : List Object) (visibility : Visibility) (m : Menu),
    Later m (decideItems access revision objects visibility m).2 ∧
      (m.revision = revision → ∀ after,
        (decideItems access revision objects visibility m).1 = .ok after →
        (decideItems access revision objects visibility m).2.revision = revision) := by
  intro objects
  induction objects with
  | nil => exact fun _ m => ⟨Later.refl m, fun same _ _ => same⟩
  | cons object rest ih =>
      intro visibility m
      rw [decideItems]
      split
      · dsimp only
        generalize (if allowedCategory visibility object then access object m else (.hidden, [])) =
          answer
        have later := later_perform answer.2 m
        split
        · exact ⟨later, fun _ after missing => nomatch missing⟩
        · rename_i same
          obtain ⟨further, kept⟩ := ih (visibility.emplace object.key answer.1) (m.perform answer.2)
          exact ⟨later.trans further, fun _ => kept (not_not.mp same)⟩
      · exact ih visibility m

/-- A build that gives a page has left the menu as it was. -/
theorem build_unchanged (category : Text) (requested : Nat) (running : Nat → Bool) (m : Menu)
    {page : Page} (built : (m.build category requested running access).1 = .ok page) :
    (m.build category requested running access).2.revision = m.revision ∧
      (m.build category requested running access).2.content = m.content ∧
      page.revision = m.revision := by
  have purged := later_purge m
  obtain ⟨later, kept⟩ := decideCategories_later access m.revision (m.active running) [] m.purge
  unfold Menu.build at built ⊢
  cases named : checkKey category true with
  | error message =>
      rw [named] at built
      cases built
  | ok done =>
      rw [named] at built
      dsimp only at built ⊢
      cases first : decideCategories access m.revision (m.active running) [] m.purge with
      | mk outcome middle =>
          rw [first] at built later kept
          cases outcome with
          | error message => cases built
          | ok categories =>
              dsimp only at built later kept ⊢
              have same := kept rfl categories rfl
              obtain ⟨further, kept'⟩ :=
                decideItems_later access m.revision (m.active running) categories middle
              cases second : decideItems access m.revision (m.active running) categories middle with
              | mk outcome final =>
                  rw [second] at built further kept'
                  cases outcome with
                  | error message => cases built
                  | ok visibility =>
                      dsimp only at built further kept' ⊢
                      have last := kept' same visibility rfl
                      cases titled : pageTitle m.title category (m.active running) visibility with
                      | error message =>
                          rw [titled] at built
                          cases built
                      | ok title =>
                          rw [titled] at built
                          cases built
                          exact ⟨last, ((purged.trans later).trans further).content last, rfl⟩

end Changes

/-- A menu that plugins have made in any way gives, to a viewer whose access leaves it at
its revision, the pages of its sorted visible rows: their pieces in order, with rows that
lead to the neighbouring pages, the last page for every number past it.  A category that
is not enabled has no page, and a build during which the menu changes raises. -/
theorem topMenus_paging {m : Menu} (reachable : m.Reachable) (category : Text)
    (running : Nat → Bool) :
    (∀ access callback, Decides access callback m → checkKey category true = .ok () →
      Available access running m category → ∃ (shown : List Object) (pages : Nat → Page),
        ShownOf access running m category shown ∧
        (∀ requested, (m.build category requested running callback).1 =
          .ok (pages requested)) ∧
        (∀ requested, (pages requested).page = min requested (lastPage shown) ∧
          PageOf access shown (pages requested) ∧
          pages requested = pages (min requested (lastPage shown))) ∧
        (List.range (lastPage shown + 1)).flatMap
          (fun number => (pages number).rows.filterMap Row.object) = shown) ∧
    (∀ access callback, Decides access callback m →
      ¬ (checkKey category true = .ok () ∧ Available access running m category) →
      ∀ requested, ∃ message,
        (m.build category requested running callback).1 = .error message) ∧
    ∀ (access : Callback) requested,
      ((m.build category requested running access).2.content ≠ m.content ∨
        (m.build category requested running access).2.revision ≠ m.revision) →
      ∃ message, (m.build category requested running access).1 = .error message := by
  have sound := reachable.sound
  refine ⟨?_, ?_, ?_⟩
  · intro access callback decides named available
    exact build_available decides running sound named available
  · intro access callback decides never requested
    exact build_unavailable decides running sound never requested
  · intro access requested differs
    cases built : (m.build category requested running access).1 with
    | error message => exact ⟨message, rfl⟩
    | ok page =>
        obtain ⟨revision, content, _⟩ := build_unchanged access category requested running m built
        rcases differs with differs | differs
        · exact absurd content differs
        · exact absurd revision differs

instance {running : Nat → Bool} {m : Menu} {object : Object} :
    Decidable (Counts running m object) :=
  inferInstanceAs (Decidable (_ ∧ _))

instance {access : Object → Access} {running : Nat → Bool} {m : Menu} {key : Text} :
    Decidable (EnabledCategory access running m key) :=
  decidable_of_iff (∃ holder ∈ m.running running, Counts running m holder ∧
      holder.kind = .category ∧ holder.key = key ∧ access holder = .enabled)
    ⟨fun ⟨holder, _, counts, rest⟩ => ⟨holder, counts, rest⟩,
      fun ⟨holder, counts, rest⟩ => ⟨holder, counts.1, counts, rest⟩⟩

instance {access : Object → Access} {running : Nat → Bool} {m : Menu} {category : Text}
    {object : Object} : Decidable (Visible access running m category object) :=
  decidable_of_iff (Counts running m object ∧ access object ≠ .hidden ∧
      ((object.kind = .item ∧ object.category = category) ∨
        (object.kind = .category ∧ category = [] ∧ access object = .enabled ∧
          ∃ child ∈ m.running running, Counts running m child ∧ child.kind = .item ∧
            child.category = object.key ∧ access child ≠ .hidden)))
    (and_congr_right fun _ => and_congr_right fun _ => or_congr_right <|
      and_congr_right fun _ => and_congr_right fun _ => and_congr_right fun _ =>
        exists_congr fun _ => ⟨fun both => both.2, fun rest => ⟨rest.1.1, rest⟩⟩)

/-- How many rows a category has. -/
theorem ShownOf.length {access : Object → Access} {running : Nat → Bool} {m : Menu}
    {category : Text} {shown : List Object} (sound : m.Sound)
    (is : ShownOf access running m category shown) :
    shown.length =
      (m.objects.filter fun object => Visible access running m category object).length := by
  have nodup : m.objects.Nodup := List.Nodup.of_map _ sound.sequenced
  refine List.Perm.length_eq ((List.perm_ext_iff_of_nodup (List.Nodup.of_map _ is.keys)
    (nodup.filter _)).mpr fun object => ?_)
  rw [is.exact_rows, List.mem_filter, decide_eq_true_eq]
  exact ⟨fun row => ⟨row.1.member, row⟩, fun both => both.2⟩

/-- An item of a plugin's generation, with a name of so many letters. -/
def kicks (letters owner : Nat) : Menu.Registration where
  kind := .item
  key := List.replicate letters 'k'
  category := "admin".toList
  label := "Kick".toList
  permission := []
  plugin := "base".toList
  owner
  order := letters

/-- A category with thirty items; a later generation has registered one of them again. -/
def adminMenu : Menu :=
  ({ title := "Menu".toList } : Menu).perform
    (.add { kicks 0 1 with kind := .category, key := "admin".toList, category := [] } ::
      ((List.range 30).map fun n => .add (kicks (n + 1) 1)) ++ [.add (kicks 3 2)])

/-- One item is not shown, and another is not to be chosen. -/
def someAccess (object : Object) : Access :=
  if object.key.length = 9 then .hidden
  else if object.key.length = 7 then .disabled
  else .enabled

/-- The callback changes the title to what it is, and builds a page of its own. -/
def tidyAccess : Callback := fun object m => (someAccess object, [.setTitle m.title, .build])

theorem decides_tidyAccess (m : Menu) : Decides someAccess tidyAccess m where
  decision := fun _ _ _ _ => rfl
  unchanged := by
    intro _ m' _ same
    show (((m'.setTitle m'.title).toOption).getD m').purge.revision = m.revision
    refine getD_toOption (P := fun left => left.purge.revision = m.revision) same fun left done => ?_
    obtain ⟨_, _, done⟩ := bind_eq_ok.mp done
    split at done
    · exact absurd rfl ‹_›
    · cases done
      exact same

theorem topMenus_paging_admin : ∃ (shown : List Object) (pages : Nat → Page),
    (∀ requested, (adminMenu.build "admin".toList requested (fun _ => true) tidyAccess).1 =
      .ok (pages requested)) ∧ shown.length = 29 ∧ (pages 7).page = 1 ∧
      PageOf someAccess shown (pages 7) ∧
      (∃ object ∈ shown, object.key.length = 3 ∧ object.owner = 2) ∧
      (∀ object ∈ shown, object.key.length = 3 → object.owner = 2) ∧
      ∃ object ∈ shown, someAccess object = .disabled := by
  have reachable : adminMenu.Reachable := ⟨_, _, rfl⟩
  obtain ⟨shown, pages, is, built, paged, _⟩ :=
    (topMenus_paging reachable "admin".toList fun _ => true).1 someAccess tidyAccess
      (decides_tidyAccess adminMenu) (by decide +kernel) (.inr (by decide +kernel))
  have length : shown.length = 29 := by
    rw [is.length reachable.sound]
    decide +kernel
  obtain ⟨number, page, _⟩ := paged 7
  have rows (P : Object → Prop) (some_ : ∃ object ∈ adminMenu.objects,
      Visible someAccess (fun _ => true) adminMenu "admin".toList object ∧ P object) :
      ∃ object ∈ shown, P object := by
    obtain ⟨object, _, row, holds⟩ := some_
    exact ⟨object, (is.exact_rows object).mpr row, holds⟩
  refine ⟨shown, pages, built, length, ?_, page, rows _ (by decide +kernel), ?_,
    rows _ (by decide +kernel)⟩
  · rw [number, lastPage, length]
    cases empty : shown with
    | nil => simp [empty] at length
    | cons object rest => rfl
  · have latest : ∀ object ∈ adminMenu.objects,
        Visible someAccess (fun _ => true) adminMenu "admin".toList object →
          object.key.length = 3 → object.owner = 2 := by
      decide +kernel
    intro object member
    have row := (is.exact_rows object).mp member
    exact latest object row.1.member row

end Source2Root.TopMenus
