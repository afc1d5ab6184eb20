import Source2Root.MigrationTexts

/-!
# Loading what the migration writes

The core reads the two texts of the migration as the groups and the administrators that
they are written from, or refuses one for its length.
-/

set_option autoImplicit false

namespace Source2Root.Migration

open Python
open KeyValues (Entries KeyValue)
open SteamId (Numeral Denotes)

/-! ## Entries and what they mean -/

def Group.entry (group : Group) : KeyValue := .object (bytes group.name) group.inside.entries

def Admin.entry (admin : Admin) : KeyValue := .object (bytes admin.label) admin.inside.entries

theorem permissionLayout_items (permissions : List Str) :
    (permissionLayout permissions).entries.items =
      permissions.map fun permission => KeyValue.value (bytes permission) ['1'] := by
  induction permissions with
  | nil => rfl
  | cons permission rest ih =>
      rw [List.map_cons, ← ih]
      rfl

theorem groupLayout_items (groups : List Group) :
    (groupLayout groups).entries.items = groups.map Group.entry := by
  induction groups with
  | nil => rfl
  | cons group rest ih =>
      rw [List.map_cons, ← ih]
      rfl

theorem adminLayout_items (admins : List Admin) :
    (adminLayout admins).entries.items = admins.map Admin.entry := by
  induction admins with
  | nil => rfl
  | cons admin rest ih =>
      rw [List.map_cons, ← ih]
      rfl

def Group.list (group : Group) : KeyValue :=
  .object "permissions".toList (permissionLayout group.permissions).entries

def immunityField (level : Nat) : KeyValue :=
  .value "immunity".toList (Source2Root.decimal level)

theorem Group.entry_children (group : Group) :
    group.entry.children =
      immunityField group.immunity :: if group.lists = true then [group.list] else [] := by
  show (immunityField group.immunity) :: group.listLayout.entries.items = _
  unfold Group.listLayout
  split
  · rfl
  · rfl

theorem Admin.entry_children (admin : Admin) :
    admin.entry.children =
      [.value "identity".toList (Source2Root.decimal admin.account),
        .value "group".toList (bytes admin.group), immunityField admin.immunity] := rfl

/-- The group that the core makes of one. -/
def Group.core (group : Group) : Admins.Group where
  name := bytes group.name
  permissions := if group.lists = true then group.permissions.map bytes else []
  immunity := group.immunity
  root := lower group.name = str "root"

theorem lower_clean {s : Str} (clean : s.any control = false) : (lower s).any control = false := by
  rw [List.any_eq_false] at clean ⊢
  intro c inside
  obtain ⟨d, member, rfl⟩ := List.mem_map.mp inside
  have fine := clean d member
  unfold lowerPoint
  split
  · simp only [control, Bool.or_eq_true, decide_eq_true_eq, beq_iff_eq]
    omega
  · exact fine

theorem lower_known {s : Str} (known : encode s ≠ none) : encode (lower s) ≠ none := by
  obtain ⟨raw, encoded⟩ := Option.ne_none_iff_exists'.mp known
  obtain ⟨each, -⟩ := encode_eq_some.mp encoded
  have each' : ∀ c ∈ lower s, encodePoint c ≠ none := by
    intro c inside
    obtain ⟨d, member, rfl⟩ := List.mem_map.mp inside
    unfold lowerPoint
    split
    · rw [encodePoint, if_pos (by omega)]
      exact Option.some_ne_none _
    · exact each d member
  rw [encode_eq_some.mpr ⟨each', rfl⟩]
  exact Option.some_ne_none _

theorem Fit.lower {limit : Nat} {s : Str} (fit : Fit limit s) : Fit limit (lower s) where
  known := lower_known fit.known
  filled := fun empty => fit.filled (List.map_eq_nil_iff.mp empty)
  short := by
    rw [bytes_lower, Admins.lower_length]
    exact fit.short
  clean := lower_clean fit.clean

theorem bytes_inj {s t : Str} (left : encode s ≠ none) (right : encode t ≠ none) :
    bytes s = bytes t ↔ s = t := by
  obtain ⟨raw, encoded⟩ := Option.ne_none_iff_exists'.mp left
  obtain ⟨raw', encoded'⟩ := Option.ne_none_iff_exists'.mp right
  obtain ⟨-, rfl⟩ := encode_eq_some.mp encoded
  obtain ⟨-, rfl⟩ := encode_eq_some.mp encoded'
  exact ⟨fun same => encode_injective encoded (same ▸ encoded'), fun same => by rw [same]⟩

theorem immune_field {entry : KeyValue} {level : Nat} {fallback : Int}
    (small : level ≤ 2147483647) (there : immunityField level ∈ entry.children)
    (only : ∀ child ∈ entry.children, Admins.lower child.name = "immunity".toList →
      child = immunityField level) : Admins.Immune entry fallback level := by
  refine ⟨fun child has => ?_, fun absent => ?_⟩
  · exact ⟨_, _, only child has.1 has.2, _, level, SteamId.numeral_decimal level, small, rfl,
      Or.inl rfl⟩
  · exact absurd ⟨there, rfl⟩ (absent (immunityField level))

/-- What a listed permission has to be, beyond what `text` checks. -/
structure Group.Valid (group : Group) : Prop extends group.Fine where
  valid : ∀ permission ∈ group.permissions, Admins.validPermission (bytes permission) = true
  once : group.permissions.Nodup

theorem Group.lists_iff {group : Group} :
    group.lists = true ↔ lower group.name ≠ str "root" ∧ group.permissions ≠ [] := by
  simp [Group.lists]

theorem Group.means {group : Group} (fine : group.Valid) :
    Admins.GroupMeans group.entry group.core := by
  have names : Admins.lower "immunity".toList = "immunity".toList ∧
      Admins.lower "permissions".toList = "permissions".toList := by decide +kernel
  have listed (child : KeyValue) (has : Admins.HasField group.entry "permissions".toList child) :
      group.lists = true ∧ child = group.list := by
    obtain ⟨inside, named⟩ := has
    rw [Group.entry_children] at inside
    rcases List.mem_cons.mp inside with rfl | inside
    · rw [show (immunityField group.immunity).name = "immunity".toList from rfl, names.1] at named
      exact absurd named (by decide)
    · split at inside
      · rename_i lists
        exact ⟨lists, List.mem_singleton.mp inside⟩
      · exact nomatch inside
  refine ⟨⟨fine.name.bytes_filled, fine.name.short, ?_⟩, ⟨rfl, ?_, ?_⟩, rfl, ?_, ⟨?_, ?_⟩, ?_⟩
  · rw [show group.entry.name = bytes group.name from rfl, ← bytes_lower]
    exact fine.name.lower.printable
  · intro child inside
    rw [Group.entry_children] at inside
    rcases List.mem_cons.mp inside with rfl | inside
    · exact List.mem_cons.mpr (Or.inl names.1)
    · split at inside
      · rw [List.mem_singleton.mp inside]
        exact List.mem_cons_of_mem _ (List.mem_singleton.mpr names.2)
      · exact nomatch inside
  · rw [Group.entry_children]
    split
    · show [Admins.lower "immunity".toList, Admins.lower "permissions".toList].Nodup
      rw [names.1, names.2]
      decide
    · exact List.nodup_singleton _
  · refine immune_field fine.immunity ?_ ?_
    · rw [Group.entry_children]
      exact List.mem_cons_self ..
    · intro child inside named
      rw [Group.entry_children] at inside
      rcases List.mem_cons.mp inside with rfl | inside
      · rfl
      · split at inside
        · rw [List.mem_singleton.mp inside, show group.list.name = "permissions".toList from rfl,
            names.2] at named
          exact absurd named (by decide)
        · exact nomatch inside
  · intro child has
    obtain ⟨lists, rfl⟩ := listed child has
    have items : group.list.children =
        group.permissions.map fun permission => KeyValue.value (bytes permission) ['1'] :=
      permissionLayout_items _
    have core : group.core.permissions = group.permissions.map bytes := if_pos lists
    rw [items, core]
    refine ⟨rfl, ?_, ?_, ?_⟩
    · intro permission inside
      obtain ⟨name, member, rfl⟩ := List.mem_map.mp inside
      exact ⟨bytes name, rfl, (fine.permissions name member).bytes_filled, fine.valid name member⟩
    · rw [List.map_map]
      rfl
    · refine fine.once.map_on fun s inside t inside' same => ?_
      exact (bytes_inj (fine.permissions s inside).known (fine.permissions t inside').known).mp same
  · intro absent
    by_cases lists : group.lists = true
    · refine absurd ⟨?_, names.2⟩ (absent group.list)
      rw [Group.entry_children, if_pos lists]
      exact List.mem_cons_of_mem _ (List.mem_singleton_self _)
    · exact if_neg lists
  · have root : encode (str "root") ≠ none := by decide
    rw [show group.entry.name = bytes group.name from rfl, ← bytes_lower,
      show "root".toList = bytes (str "root") from rfl, bytes_inj fine.name.lower.known root]
    exact decide_eq_true_iff

/-- The administrator that the core makes of one in this group. -/
def Admin.core (admin : Admin) (group : Group) : Admins.Admin where
  label := bytes admin.label
  group := bytes group.name
  permissions := group.core.permissions
  immunity := admin.immunity
  root := group.core.root

theorem Admin.means {groups : List Group} {group : Group} {admin : Admin} (fine : admin.Fine)
    (valid : group.Valid) (inside : group ∈ groups) (named : group.name = admin.group) :
    Admins.AdminMeans (groups.map Group.entry) admin.entry admin.account (admin.core group) := by
  have names : Admins.lower "identity".toList = "identity".toList ∧
      Admins.lower "group".toList = "group".toList ∧
      Admins.lower "immunity".toList = "immunity".toList := by decide +kernel
  refine ⟨⟨fine.label.short, fine.label.printable, rfl⟩, ⟨rfl, ?_, ?_⟩, ?_, group.core, ?_, rfl,
    rfl, rfl, ?_⟩
  · rw [Admin.entry_children]
    simp only [List.forall_mem_cons, KeyValue.name, immunityField, names.1, names.2.1, names.2.2,
      Admins.adminFields]
    exact ⟨by simp, by simp, by simp, List.forall_mem_nil _⟩
  · rw [Admin.entry_children]
    simp only [List.map_cons, List.map_nil, KeyValue.name, immunityField, names.1, names.2.1,
      names.2.2]
    decide
  · refine ⟨_, ⟨"identity".toList, ?_, names.1⟩, .number (SteamId.numeral_decimal _),
      SteamId.valid_iff.mpr fine.account⟩
    rw [Admin.entry_children]
    exact List.mem_cons_self ..
  · refine ⟨bytes admin.group, ⟨"group".toList, ?_, names.2.1⟩, group.entry,
      List.mem_map_of_mem inside, ?_, Group.means valid⟩
    · rw [Admin.entry_children]
      simp
    · rw [← named]
      rfl
  · refine immune_field fine.immunity ?_ ?_
    · rw [Admin.entry_children]
      simp
    · intro child member lowered
      rw [Admin.entry_children] at member
      simp only [List.mem_cons, List.not_mem_nil, or_false] at member
      rcases member with rfl | rfl | rfl
      · rw [show KeyValue.name (.value "identity".toList _) = "identity".toList from rfl,
          names.1] at lowered
        exact absurd lowered (by decide)
      · rw [show KeyValue.name (.value "group".toList _) = "group".toList from rfl,
          names.2.1] at lowered
        exact absurd lowered (by decide)
      · rfl

/-! ## Loading what was written -/

/-- What the loops of the tool see to. -/
structure Outcome.Sound (m : Outcome) : Prop where
  groups : ∀ group ∈ m.groups, group.Valid
  names : (m.groups.map fun group => lower group.name).Nodup
  few : m.groups.length ≤ 128
  admins : ∀ admin ∈ m.admins, admin.Fine
  placed : ∀ admin ∈ m.admins, ∃ group ∈ m.groups, group.name = admin.group
  accounts : (m.admins.map Admin.account).Nodup
  short : m.admins.length ≤ 4096

/-- The row of the table of the core for an administrator. -/
def Outcome.Row (m : Outcome) (admin : Admin) (row : Nat × Admins.Admin) : Prop :=
  ∃ group ∈ m.groups, group.name = admin.group ∧ row = (admin.account, admin.core group)

theorem rows_accounts {m : Outcome} {admins : List Admin} {table : Admins.Table}
    (rows : List.Forall₂ m.Row admins table) :
    table.map Prod.fst = admins.map Admin.account := by
  induction rows with
  | nil => rfl
  | cons here _ ih =>
      obtain ⟨group, -, -, rfl⟩ := here
      rw [List.map_cons, List.map_cons, ih]

theorem Outcome.Sound.rows_mean {m : Outcome} (sound : m.Sound) {admins : List Admin}
    {table : Admins.Table} (rows : List.Forall₂ m.Row admins table)
    (fine : ∀ admin ∈ admins, admin.Fine) :
    List.Forall₂ (fun admin row =>
      Admins.AdminMeans (m.groups.map Group.entry) (Admin.entry admin) row.1 row.2)
        admins table := by
  induction rows with
  | nil => exact List.Forall₂.nil
  | cons here _ ih =>
      obtain ⟨group, inside, named, rfl⟩ := here
      obtain ⟨first, later⟩ := List.forall_mem_cons.mp fine
      exact List.Forall₂.cons (Admin.means first (sound.groups _ inside) inside named) (ih later)

theorem Outcome.Sound.defines {m : Outcome} (sound : m.Sound) {table : Admins.Table}
    (rows : List.Forall₂ m.Row m.admins table) :
    Admins.Defines (m.groups.map Group.entry) (m.admins.map Admin.entry) table where
  fit := by
    refine ⟨List.forall_mem_map.mpr fun group inside => ⟨_, Group.means (sound.groups _ inside)⟩,
      ?_, by rw [List.length_map]; exact sound.few⟩
    have same : (m.groups.map Group.entry).map (fun entry => Admins.lower entry.name) =
        (m.groups.map fun group => lower group.name).map bytes := by
      rw [List.map_map, List.map_map]
      exact List.map_congr_left fun group _ => (bytes_lower group.name).symm
    rw [same]
    refine sound.names.map_on fun s inside t inside' equal => ?_
    obtain ⟨group, member, rfl⟩ := List.mem_map.mp inside
    obtain ⟨other, member', rfl⟩ := List.mem_map.mp inside'
    exact (bytes_inj (sound.groups _ member).name.lower.known
      (sound.groups _ member').name.lower.known).mp equal
  entries := by
    rw [List.forall₂_map_left_iff]
    exact sound.rows_mean rows sound.admins
  accounts := by
    rw [rows_accounts rows]
    exact sound.accounts
  count := by
    rw [List.length_map]
    exact sound.short

/-- The directory of the core with the files of the tool in it. -/
def Files.directory (files : Files) : Admins.Directory where
  admins := some (.ok files.admins)
  groups := some (.ok files.groups)

/-- Neither text is longer than the core reads. -/
def Files.Short (files : Files) : Prop :=
  files.admins.length ≤ KeyValues.maxFile ∧ files.groups.length ≤ KeyValues.maxFile

theorem Outcome.files_eq_some {m : Outcome} {files : Files} (written : m.files = some files) :
    files.admins = bytes m.adminText ∧ files.groups = bytes m.groupText ∧
      files.settings = bytes m.settingsText := by
  obtain ⟨admins, first, rest⟩ := Option.bind_eq_some_iff.mp written
  obtain ⟨groups, second, rest⟩ := Option.bind_eq_some_iff.mp rest
  obtain ⟨maps, third, rest⟩ := Option.bind_eq_some_iff.mp rest
  obtain ⟨settings, fourth, rfl⟩ := Option.map_eq_some_iff.mp rest
  exact ⟨(encode_eq_some.mp first).2, (encode_eq_some.mp second).2, (encode_eq_some.mp fourth).2⟩

theorem Outcome.Sound.holds {m : Outcome} (sound : m.Sound) {files : Files}
    (written : m.files = some files) (small : files.Short) :
    Admins.Holds "Groups" (.ok files.groups) (m.groups.map Group.entry) ∧
      Admins.Holds "Admins" (.ok files.admins) (m.admins.map Admin.entry) := by
  obtain ⟨admins, groups, -⟩ := Outcome.files_eq_some written
  have fine : ∀ group ∈ m.groups, group.Fine := fun group inside =>
    (sound.groups group inside).toFine
  have word (name : Text) (known : name = "Groups".toList ∨ name = "Admins".toList) :
      (KeyValues.Word.quoted name).Fine [] := by
    rcases known with rfl | rfl <;>
      exact ⟨by decide, by simp [KeyValues.expressible, KeyValues.forbidden]⟩
  rw [← groupLayout_items, ← adminLayout_items]
  exact ⟨file_holds (groupLayout_spread _) (by decide) (word _ (Or.inl rfl)) (groupLayout_fine fine)
      (by decide) (groups.trans (groupText_bytes fine)) small.2,
    file_holds (adminLayout_spread _) (by decide) (word _ (Or.inr rfl))
      (adminLayout_fine sound.admins) (by decide) (admins.trans (adminText_bytes sound.admins))
      small.1⟩

/-- The core makes the table of the administrators from the texts, or refuses one for its
length. -/
theorem Outcome.Sound.loaded {m : Outcome} (sound : m.Sound) {files : Files}
    (written : m.files = some files) (p : Admins.Permissions) :
    (files.Short → ∃ table, p.load files.directory = ({ admins := table }, .ok ()) ∧
      List.Forall₂ m.Row m.admins table) ∧
    (¬files.Short → ∃ e, p.load files.directory = (p, .error e)) := by
  have admins_there : files.directory.admins = some (.ok files.admins) := rfl
  have groups_there : files.directory.groups = some (.ok files.groups) := rfl
  have reading := Admins.load_files p admins_there groups_there
  constructor
  · intro small
    obtain ⟨group_text, admin_text⟩ := sound.holds written small
    have each : ∀ admin ∈ m.admins, ∃ row, m.Row admin row := by
      intro admin inside
      obtain ⟨group, member, named⟩ := sound.placed admin inside
      exact ⟨_, group, member, named, rfl⟩
    obtain ⟨table, rows⟩ := Admins.forall₂_of_forall_exists each
    have configured : Admins.Configures files.directory table :=
      ⟨_, _, .files rfl rfl group_text admin_text, sound.defines rows⟩
    rcases reading with ⟨other, loaded, only⟩ | ⟨-, none_⟩
    · rw [← (only table).mp configured] at loaded
      exact ⟨table, loaded, rows⟩
    · exact absurd configured (none_ table)
  · intro long
    rcases reading with ⟨other, loaded, only⟩ | ⟨refused, -⟩
    · obtain ⟨groups, admins, texts, -⟩ := (only other).mpr rfl
      obtain ⟨⟨_, _, _, _, same, short, _⟩, _, _, _, _, same', short', _⟩ :=
        texts.of_files rfl rfl
      refine absurd ⟨?_, ?_⟩ long
      · rw [Except.ok.inj same']
        exact short'
      · rw [Except.ok.inj same]
        exact short
    · exact refused

end Source2Root.Migration
