import Source2Root.KeyValuesGrammar
import Source2Root.PermissionsMeaning

/-!
# What the two texts define is what is in force

`Permissions::Load` replaces the table by the one the two files define, or reports
an error and leaves it.  `Find`, `Allows` and `Immunity` then answer what the
entries say.
-/

set_option autoImplicit false

namespace Source2Root.Admins

open KeyValues (KeyValue Entries Printing)
open SteamId (Denotes)

/-! ## The files -/

/-- A text of at most 1 MiB that is one object of this name with these entries. -/
def Holds (name : String) (reading : Reading) (entries : List KeyValue) : Prop :=
  ∃ (p : Printing) (spelled : Text) (children : Entries), p.Fine ∧ reading = .ok p.text ∧
    p.text.length ≤ KeyValues.maxFile ∧ p.entries.items = [.object spelled children] ∧
    lower spelled = lower name.toList ∧ entries = children.items

theorem root_eq_ok {file name : String} {reading : Reading} {entries : List KeyValue} :
    root file name reading = .ok entries ↔ Holds name reading entries := by
  unfold root Holds
  constructor
  · intro found
    cases got : readKeyValues file reading with
    | error e =>
        rw [got] at found
        cases found
    | ok parsed =>
        rw [got] at found
        simp only at found
        split at found
        · rename_i spelled children items
          split at found
          · rename_i named
            injection found with same
            cases reading with
            | error what => cases got
            | ok content =>
                simp only [readKeyValues, KeyValues.readFile] at got
                split at got
                · cases got
                · rename_i short
                  cases accepted : KeyValues.read content with
                  | error failure =>
                      rw [accepted] at got
                      cases got
                  | ok entries' =>
                      rw [accepted] at got
                      injection got with parsed_eq
                      obtain ⟨p, fine, text_eq, entries_eq⟩ := KeyValues.read_sound accepted
                      exact ⟨p, spelled, children, fine, by rw [text_eq],
                        by rw [text_eq]; exact not_lt.mp short,
                        by rw [entries_eq, parsed_eq, items], named, same.symm⟩
          · cases found
        · cases found
  · intro ⟨p, spelled, children, fine, reading_eq, short, items, named, same⟩
    have got : readKeyValues file reading = .ok p.entries := by
      rw [reading_eq]
      simp only [readKeyValues, KeyValues.readFile]
      rw [if_neg (not_lt.mpr short), KeyValues.read_complete fine]
    rw [got]
    simp only
    rw [items]
    simp only
    rw [if_pos named, same]

/-- The entries of the group file and of the administrator file; there are none where
neither file is there, not even one of the earlier format. -/
inductive Texts (directory : Directory) : List KeyValue → List KeyValue → Prop
  | bare (no_admins : directory.admins = none) (no_groups : directory.groups = none)
      (fresh : directory.legacy = false) : Texts directory [] []
  | files {admin_file group_file : Reading} {groups admins : List KeyValue}
      (has_admins : directory.admins = some admin_file)
      (has_groups : directory.groups = some group_file)
      (group_text : Holds "Groups" group_file groups)
      (admin_text : Holds "Admins" admin_file admins) : Texts directory groups admins

theorem Texts.of_files {directory : Directory} {admin_file group_file : Reading}
    (has_admins : directory.admins = some admin_file)
    (has_groups : directory.groups = some group_file) {groups admins : List KeyValue}
    (texts : Texts directory groups admins) :
    Holds "Groups" group_file groups ∧ Holds "Admins" admin_file admins := by
  cases texts with
  | bare no_admins => exact nomatch has_admins.symm.trans no_admins
  | files has_admins' has_groups' group_text admin_text =>
      cases has_admins.symm.trans has_admins'
      cases has_groups.symm.trans has_groups'
      exact ⟨group_text, admin_text⟩

theorem Holds.unique {name : String} {reading : Reading} {entries other : List KeyValue}
    (holds : Holds name reading entries) (holds' : Holds name reading other) : entries = other := by
  have read : root "" name reading = .ok entries := root_eq_ok.mpr holds
  exact Except.ok.inj (read.symm.trans (root_eq_ok.mpr holds'))

theorem Texts.unique {directory : Directory} {groups admins groups' admins' : List KeyValue}
    (texts : Texts directory groups admins) (texts' : Texts directory groups' admins') :
    groups = groups' ∧ admins = admins' := by
  cases texts with
  | bare no_admins =>
      cases texts' with
      | bare => exact ⟨rfl, rfl⟩
      | files has_admins => exact nomatch no_admins.symm.trans has_admins
  | files has_admins has_groups group_text admin_text =>
      obtain ⟨group_text', admin_text'⟩ := texts'.of_files has_admins has_groups
      exact ⟨group_text.unique group_text', admin_text.unique admin_text'⟩

/-- What the directory defines. -/
def Configures (directory : Directory) (table : Table) : Prop :=
  ∃ groups admins, Texts directory groups admins ∧ Defines groups admins table

theorem defines_nothing {table : Table} : Defines [] [] table ↔ table = [] := by
  constructor
  · intro defines
    exact List.forall₂_nil_left_iff.mp defines.entries
  · rintro rfl
    refine ⟨⟨?_, List.nodup_nil, Nat.zero_le _⟩, List.Forall₂.nil, List.nodup_nil, Nat.zero_le _⟩
    intro entry member
    exact nomatch member

/-- `Permissions::Load` where both files are there. -/
theorem load_files (p : Permissions) {directory : Directory} {admin_file group_file : Reading}
    (has_admins : directory.admins = some admin_file)
    (has_groups : directory.groups = some group_file) :
    (∃ table, p.load directory = ({ admins := table }, .ok ()) ∧
        ∀ other, Configures directory other ↔ other = table) ∨
      (∃ e, p.load directory = (p, .error e)) ∧ ∀ table, ¬Configures directory table := by
  unfold Permissions.load
  rw [has_admins, has_groups]
  simp only
  cases groups_root : root "admin_groups.cfg" "Groups" group_file with
  | error e =>
      refine Or.inr ⟨⟨e, rfl⟩, ?_⟩
      intro table ⟨groups, admins, texts, _⟩
      have group_text := (texts.of_files has_admins has_groups).1
      exact nomatch groups_root.symm.trans (root_eq_ok.mpr group_text)
  | ok group_entries =>
      simp only
      have same_groups : ∀ {groups admins}, Texts directory groups admins →
          groups = group_entries := by
        intro groups admins texts
        have read : root "admin_groups.cfg" "Groups" group_file = .ok groups :=
          root_eq_ok.mpr (texts.of_files has_admins has_groups).1
        exact Except.ok.inj (read.symm.trans groups_root)
      cases loaded : readGroups group_entries with
      | error e =>
          refine Or.inr ⟨⟨e, rfl⟩, ?_⟩
          intro table ⟨groups, admins, texts, defines⟩
          have fit := defines.fit
          rw [same_groups texts, ← readGroups_eq_ok] at fit
          obtain ⟨groups', fine⟩ := fit
          exact nomatch loaded.symm.trans fine
      | ok groups =>
          simp only
          cases admins_root : root "admins.cfg" "Admins" admin_file with
          | error e =>
              refine Or.inr ⟨⟨e, rfl⟩, ?_⟩
              intro table ⟨_, admins, texts, _⟩
              have admin_text := (texts.of_files has_admins has_groups).2
              exact nomatch admins_root.symm.trans (root_eq_ok.mpr admin_text)
          | ok admin_entries =>
              simp only
              have made_iff : ∀ table, Configures directory table ↔
                  readAdmins groups admin_entries = .ok table := by
                intro table
                rw [readAdmins_eq_ok loaded]
                constructor
                · intro ⟨_, admins, texts, defines⟩
                  have read : root "admins.cfg" "Admins" admin_file = .ok admins :=
                    root_eq_ok.mpr (texts.of_files has_admins has_groups).2
                  have same_admins : admins = admin_entries :=
                    Except.ok.inj (read.symm.trans admins_root)
                  rwa [same_groups texts, same_admins] at defines
                · intro defines
                  exact ⟨group_entries, admin_entries, Texts.files has_admins has_groups
                    (root_eq_ok.mp groups_root) (root_eq_ok.mp admins_root), defines⟩
              cases made : readAdmins groups admin_entries with
              | error e =>
                  refine Or.inr ⟨⟨e, rfl⟩, ?_⟩
                  intro table configured
                  exact nomatch made.symm.trans ((made_iff table).mp configured)
              | ok table =>
                  refine Or.inl ⟨table, rfl, ?_⟩
                  intro other
                  rw [made_iff, made]
                  constructor
                  · intro same
                    exact (Except.ok.inj same).symm
                  · intro same
                    rw [same]

/-- `Load` puts in force the table that the directory defines; where it defines none
the table in force stays. -/
theorem load_cases (p : Permissions) (directory : Directory) :
    (∃ table, p.load directory = ({ admins := table }, .ok ()) ∧
        ∀ other, Configures directory other ↔ other = table) ∨
      (∃ e, p.load directory = (p, .error e)) ∧ ∀ table, ¬Configures directory table := by
  cases admin_file : directory.admins with
  | some _ =>
      cases group_file : directory.groups with
      | some _ => exact load_files p admin_file group_file
      | none =>
          refine Or.inr ⟨by rw [Permissions.load, admin_file, group_file]; exact ⟨_, rfl⟩, ?_⟩
          intro table ⟨groups, admins, texts, _⟩
          cases texts with
          | bare no_admins => exact nomatch admin_file.symm.trans no_admins
          | files _ has_groups => exact nomatch group_file.symm.trans has_groups
  | none =>
      cases group_file : directory.groups with
      | some _ =>
          refine Or.inr ⟨by rw [Permissions.load, admin_file, group_file]; exact ⟨_, rfl⟩, ?_⟩
          intro table ⟨groups, admins, texts, _⟩
          cases texts with
          | bare _ no_groups => exact nomatch group_file.symm.trans no_groups
          | files has_admins => exact nomatch admin_file.symm.trans has_admins
      | none =>
          have only_bare : ∀ {groups admins}, Texts directory groups admins →
              directory.legacy = false ∧ groups = [] ∧ admins = [] := by
            intro groups admins texts
            cases texts with
            | bare _ _ fresh => exact ⟨fresh, rfl, rfl⟩
            | files has_admins => exact nomatch admin_file.symm.trans has_admins
          rw [Permissions.load, admin_file, group_file]
          simp only
          cases legacy : directory.legacy with
          | false =>
              refine Or.inl ⟨[], rfl, ?_⟩
              intro table
              constructor
              · intro ⟨groups, admins, texts, defines⟩
                obtain ⟨-, rfl, rfl⟩ := only_bare texts
                exact defines_nothing.mp defines
              · intro same
                exact ⟨[], [], Texts.bare admin_file group_file legacy, defines_nothing.mpr same⟩
          | true =>
              refine Or.inr ⟨⟨_, rfl⟩, ?_⟩
              intro table ⟨groups, admins, texts, _⟩
              exact nomatch legacy.symm.trans (only_bare texts).1

/-! ## What the table allows -/

theorem forall₂_mem_right {α β : Type} {r : α → β → Prop} {l : List α} {m : List β}
    (related : List.Forall₂ r l m) {b : β} (member : b ∈ m) : ∃ a ∈ l, r a b := by
  induction related with
  | nil => exact nomatch member
  | cons here _ ih =>
      rcases List.mem_cons.mp member with same | later
      · exact ⟨_, List.mem_cons_self .., same ▸ here⟩
      · obtain ⟨a, inside, found⟩ := ih later
        exact ⟨a, List.mem_cons_of_mem _ inside, found⟩

theorem forall₂_mem_left {α β : Type} {r : α → β → Prop} {l : List α} {m : List β}
    (related : List.Forall₂ r l m) {a : α} (member : a ∈ l) : ∃ b ∈ m, r a b := by
  obtain ⟨b, inside, found⟩ := forall₂_mem_right related.flip member
  exact ⟨b, inside, found⟩

theorem account_unique {entry : KeyValue} {allowed : List Text} (shaped : Shaped entry allowed)
    {id other : Nat} (account : Account entry id) (account' : Account entry other) : id = other := by
  obtain ⟨text, has, means⟩ := account
  obtain ⟨text', has', means'⟩ := account'
  have same := hasValue_unique shaped has has'
  subst same
  exact Except.ok.inj ((SteamId.parse_iff.mpr means).symm.trans (SteamId.parse_iff.mpr means'))

theorem lookup_admin {groups admins : List KeyValue} {table : Table}
    (defines : Defines groups admins table) {id : Nat} {admin : Admin} :
    table.lookup id = some admin ↔ ∃ entry ∈ admins, AdminMeans groups entry id admin := by
  rw [Loading.lookup_eq_some defines.accounts]
  constructor
  · intro member
    obtain ⟨entry, inside, means⟩ := forall₂_mem_right defines.entries member
    exact ⟨entry, inside, means⟩
  · intro ⟨entry, inside, means⟩
    obtain ⟨⟨id', admin'⟩, member, means'⟩ := forall₂_mem_left defines.entries inside
    have same_id : id = id' := account_unique means.shaped means.account means'.account
    subst same_id
    obtain ⟨loaded, found⟩ := readGroups_eq_ok.mpr defines.fit
    have read := (readAdmin_eq_ok found).mpr means
    rw [(readAdmin_eq_ok found).mpr means'] at read
    cases read
    exact member

/-- An entry for the account whose group is root or lists the permission. -/
def Authorised (groups admins : List KeyValue) (account : Nat) (permission : Text) : Prop :=
  ∃ entry ∈ admins, Account entry account ∧ ∃ group, MemberOf groups entry group ∧
    (lower group.name = "root".toList ∨ permission ∈ group.permissions)

/-- The immunity of an account: its entry's own, or its group's, or none. -/
structure ImmunityInForce (groups admins : List KeyValue) (account : Nat) (value : Int) : Prop where
  entry : ∀ entry ∈ admins, Account entry account →
    ∃ group, MemberOf groups entry group ∧ Immune entry group.immunity value
  absent : (∀ entry ∈ admins, ¬Account entry account) → value = 0

theorem root_iff {groups : List KeyValue} {entry : KeyValue} {group : Group}
    (member : MemberOf groups entry group) :
    group.root = true ↔ lower group.name = "root".toList := by
  obtain ⟨name, -, named, -, -, means⟩ := member
  rw [means.name]
  exact means.root

theorem find_eq_some {groups admins : List KeyValue} {p : Permissions}
    (defines : Defines groups admins p.admins) {player : Player} {admin : Admin} :
    p.find player = some admin ↔
      authenticated player = true ∧ ∃ entry ∈ admins, AdminMeans groups entry player.steamId admin := by
  unfold Permissions.find
  split
  · rename_i known
    rw [lookup_admin defines]
    exact (and_iff_right known).symm
  · rename_i unknown
    constructor
    · intro same
      cases same
    · intro ⟨known, _⟩
      exact absurd known unknown

theorem memberOf_unique {groups admins : List KeyValue} {table : Table}
    (defines : Defines groups admins table) {entry : KeyValue} {allowed : List Text}
    (shaped : Shaped entry allowed) {group other : Group} (member : MemberOf groups entry group)
    (member' : MemberOf groups entry other) : group = other := by
  obtain ⟨name, has, named⟩ := member
  obtain ⟨name', has', named'⟩ := member'
  have same := hasValue_unique shaped has has'
  subst same
  obtain ⟨loaded, found⟩ := readGroups_eq_ok.mpr defines.fit
  have read := (lookup_groups found).mpr named
  rw [(lookup_groups found).mpr named'] at read
  exact (Option.some.inj read).symm

theorem shaped_of_mem {groups admins : List KeyValue} {table : Table}
    (defines : Defines groups admins table) {entry : KeyValue} (inside : entry ∈ admins) :
    ∃ id admin, AdminMeans groups entry id admin := by
  obtain ⟨⟨id, admin⟩, -, means⟩ := forall₂_mem_left defines.entries inside
  exact ⟨id, admin, means⟩

theorem allows_iff {groups admins : List KeyValue} {p : Permissions}
    (defines : Defines groups admins p.admins) (player : Player) (permission : Text) :
    p.allows player permission = true ↔ validPermission permission = true ∧
      (permission = [] ∨
        authenticated player = true ∧ Authorised groups admins player.steamId permission) := by
  unfold Permissions.allows
  by_cases valid : validPermission permission = true
  · rw [valid, Bool.not_true, if_neg Bool.false_ne_true, and_iff_right rfl]
    by_cases empty : permission = []
    · rw [if_pos empty]
      simp [empty]
    · rw [if_neg empty, or_iff_right empty]
      cases found : p.find player with
      | none =>
          constructor
          · intro same
            cases same
          · intro ⟨known, entry, inside, account, group, member, _⟩
            obtain ⟨id, admin, means⟩ := shaped_of_mem defines inside
            have same := account_unique means.shaped means.account account
            subst same
            have there := (find_eq_some defines).mpr ⟨known, entry, inside, means⟩
            exact nomatch found.symm.trans there
      | some admin =>
          obtain ⟨known, entry, inside, means⟩ := (find_eq_some defines).mp found
          obtain ⟨group, member, -, permissions_eq, root_eq, -⟩ := means.member
          simp only [Bool.or_eq_true, List.contains_iff_mem, permissions_eq, root_eq]
          rw [root_iff member]
          constructor
          · intro granted
            exact ⟨known, entry, inside, means.account, group, member, granted⟩
          · intro ⟨_, entry', inside', account', group', member', granted⟩
            obtain ⟨id', admin', means'⟩ := shaped_of_mem defines inside'
            have same := account_unique means'.shaped means'.account account'
            subst same
            have again := (find_eq_some defines).mpr ⟨known, entry', inside', means'⟩
            rw [found] at again
            cases again
            obtain ⟨group'', member'', -, permissions_eq', root_eq', -⟩ := means'.member
            have group_same := memberOf_unique defines means'.shaped member' member''
            subst group_same
            rw [← root_iff member', ← root_eq', ← permissions_eq', root_eq, permissions_eq,
              root_iff member] at granted
            exact granted
  · rw [Bool.not_eq_true] at valid
    rw [valid]
    simp

theorem immunity_inForce {groups admins : List KeyValue} {p : Permissions}
    (defines : Defines groups admins p.admins) (player : Player) :
    (authenticated player = true →
        ImmunityInForce groups admins player.steamId (p.immunity player)) ∧
      (authenticated player = false → p.immunity player = 0) := by
  unfold Permissions.immunity
  cases found : p.find player with
  | none =>
      refine ⟨fun known => ⟨?_, fun _ => rfl⟩, fun _ => rfl⟩
      intro entry inside account
      obtain ⟨id, admin, means⟩ := shaped_of_mem defines inside
      have same := account_unique means.shaped means.account account
      subst same
      exact nomatch found.symm.trans ((find_eq_some defines).mpr ⟨known, entry, inside, means⟩)
  | some admin =>
      obtain ⟨known, entry, inside, means⟩ := (find_eq_some defines).mp found
      constructor
      · intro _
        refine ⟨?_, fun absent => absurd means.account (absent entry inside)⟩
        intro entry' inside' account'
        obtain ⟨id', admin', means'⟩ := shaped_of_mem defines inside'
        have same := account_unique means'.shaped means'.account account'
        subst same
        have again := (find_eq_some defines).mpr ⟨known, entry', inside', means'⟩
        rw [found] at again
        cases again
        obtain ⟨group, member, -, -, -, immune⟩ := means'.member
        exact ⟨group, member, immune⟩
      · intro unknown
        exact nomatch known.symm.trans unknown

/-! ## What is refused -/

/-- What no two texts may hold. -/
inductive Fault (groups admins : List KeyValue) : Prop
  | unknownGroup {entry : KeyValue} {name : Text} (inside : entry ∈ admins)
      (has : HasValue entry "group".toList name)
      (unknown : ∀ other ∈ groups, lower other.name ≠ lower name)
  | repeatedAccount {entry other : KeyValue} {id : Nat} (inside : [entry, other].Sublist admins)
      (account : Account entry id) (again : Account other id)
  | repeatedGroup {entry other : KeyValue} (inside : [entry, other].Sublist groups)
      (same : lower entry.name = lower other.name)
  | unknownField {entry child : KeyValue} (member : child ∈ entry.children)
      (unknown : entry ∈ groups ∧ lower child.name ∉ groupFields ∨
        entry ∈ admins ∧ lower child.name ∉ adminFields)
  | repeatedField {entry child other : KeyValue} (inside : entry ∈ groups ∨ entry ∈ admins)
      (members : [child, other].Sublist entry.children)
      (same : lower child.name = lower other.name)
  | malformedPermission {entry child permission : KeyValue} (inside : entry ∈ groups)
      (has : HasField entry "permissions".toList child) (member : permission ∈ child.children)
      (malformed : ¬Grants permission)
  | malformedImmunity {entry : KeyValue} {text : Text} (inside : entry ∈ groups ∨ entry ∈ admins)
      (has : HasValue entry "immunity".toList text)
      (malformed : ∀ value, ¬ImmunityText text value)

theorem not_nodup_of_sublist {α β : Type} {f : α → β} {a b : α} {l : List α}
    (inside : [a, b].Sublist l) (same : f a = f b) : ¬(l.map f).Nodup := by
  intro nodup
  have pair := nodup.sublist (inside.map f)
  simp [same] at pair

theorem forall₂_sublist {α β : Type} {r : α → β → Prop} {l part : List α} (inside : part.Sublist l) :
    ∀ {m : List β}, List.Forall₂ r l m → ∃ rows, rows.Sublist m ∧ List.Forall₂ r part rows := by
  induction inside with
  | slnil =>
      intro m _
      exact ⟨[], List.nil_sublist m, List.Forall₂.nil⟩
  | cons a _ ih =>
      intro m related
      cases related with
      | cons _ others =>
          obtain ⟨rows, shorter, found⟩ := ih others
          exact ⟨rows, shorter.cons _, found⟩
  | cons_cons a _ ih =>
      intro m related
      cases related with
      | cons here others =>
          obtain ⟨rows, shorter, found⟩ := ih others
          exact ⟨_ :: rows, shorter.cons_cons _, List.Forall₂.cons here found⟩

theorem immune_text {entry : KeyValue} {fallback value : Int}
    (immune : Immune entry fallback value) {text : Text}
    (has : HasValue entry "immunity".toList text) : ImmunityText text value := by
  obtain ⟨spelled, field⟩ := has
  obtain ⟨spelled', text', same, means⟩ := immune.own _ field
  cases same
  exact means

theorem not_defines_of_fault {groups admins : List KeyValue} (fault : Fault groups admins)
    (table : Table) : ¬Defines groups admins table := by
  intro defines
  cases fault with
  | unknownGroup inside has unknown =>
      obtain ⟨id, admin, means⟩ := shaped_of_mem defines inside
      obtain ⟨group, ⟨name', has', other, there, named, -⟩, -⟩ := means.member
      have same := hasValue_unique means.shaped has has'
      subst same
      exact unknown other there named
  | repeatedAccount inside account again =>
      obtain ⟨rows, shorter, found⟩ := forall₂_sublist inside defines.entries
      obtain ⟨row, rest, means, others, rfl⟩ := List.forall₂_cons_left_iff.mp found
      obtain ⟨row', rest', means', last, rfl⟩ := List.forall₂_cons_left_iff.mp others
      obtain rfl := List.forall₂_nil_left_iff.mp last
      have same : row.1 = row'.1 :=
        (account_unique means.shaped means.account account).trans
          (account_unique means'.shaped means'.account again).symm
      exact not_nodup_of_sublist shorter same defines.accounts
  | repeatedGroup inside same => exact not_nodup_of_sublist inside same defines.fit.names
  | unknownField member unknown =>
      rcases unknown with ⟨inside, stranger⟩ | ⟨inside, stranger⟩
      · obtain ⟨group, means⟩ := defines.fit.each _ inside
        exact stranger (means.shaped.known _ member)
      · obtain ⟨id, admin, means⟩ := shaped_of_mem defines inside
        exact stranger (means.shaped.known _ member)
  | repeatedField inside members same =>
      rcases inside with inside | inside
      · obtain ⟨group, means⟩ := defines.fit.each _ inside
        exact not_nodup_of_sublist members same means.shaped.once
      · obtain ⟨id, admin, means⟩ := shaped_of_mem defines inside
        exact not_nodup_of_sublist members same means.shaped.once
  | malformedPermission inside has member malformed =>
      obtain ⟨group, means⟩ := defines.fit.each _ inside
      exact malformed ((means.permissions.listed _ has).2.1 _ member)
  | malformedImmunity inside has malformed =>
      rcases inside with inside | inside
      · obtain ⟨group, means⟩ := defines.fit.each _ inside
        exact malformed _ (immune_text means.immunity has)
      · obtain ⟨id, admin, means⟩ := shaped_of_mem defines inside
        obtain ⟨group, -, -, -, -, immune⟩ := means.member
        exact malformed _ (immune_text immune has)

/-! ## Loading and looking up -/

/-- One group, root, and one administrator in it. -/
def rootDirectory : Directory where
  groups := some (.ok "Groups \x7b root \x7b \x7d \x7d".toList)
  admins := some (.ok "Admins \x7b a \x7b identity [U:1:1] group root \x7d \x7d".toList)

def rootPlayer : Player where
  slot := 0
  connection := 1
  steamId := 76561197960265729
  authenticated := true

def rootAdmin : Admin where
  label := ['a']
  group := "root".toList
  permissions := []
  immunity := 0
  root := true

set_option maxRecDepth 100000 in
theorem rootDirectory_load : ({} : Permissions).load rootDirectory =
    ({ admins := [(76561197960265729, rootAdmin)] }, .ok ()) := by
  decide +kernel

/-- `Load` puts in force the table that the two texts define, and is refused, with the
table left as it was, exactly where they define none; what the new table allows is
what the entries say. -/
theorem load_exact (p : Permissions) (directory : Directory) :
    (∀ e, (p.load directory).2 = .error e →
      (p.load directory).1 = p ∧ ∀ table, ¬Configures directory table) ∧
    (∀ groups admins, Texts directory groups admins → Fault groups admins →
      ∃ e, (p.load directory).2 = .error e) ∧
    ((p.load directory).2 = .ok () →
      (∀ table, Configures directory table ↔ table = (p.load directory).1.admins) ∧
      ∃ groups admins, Texts directory groups admins ∧
        Defines groups admins (p.load directory).1.admins ∧
        (∀ player permission, (p.load directory).1.allows player permission = true ↔
          validPermission permission = true ∧
            (permission = [] ∨ authenticated player = true ∧
              Authorised groups admins player.steamId permission)) ∧
        ∀ player,
          (authenticated player = true → ImmunityInForce groups admins player.steamId
            ((p.load directory).1.immunity player)) ∧
          (authenticated player = false → (p.load directory).1.immunity player = 0)) := by
  rcases load_cases p directory with ⟨table, loaded, only⟩ | ⟨⟨e, loaded⟩, none_defined⟩
  · rw [loaded]
    refine ⟨fun e refused => (nomatch refused), ?_, fun _ => ⟨only, ?_⟩⟩
    · intro groups admins texts fault
      obtain ⟨groups', admins', texts', defines⟩ := (only table).mpr rfl
      exact absurd defines (by
        have same := texts.unique texts'
        rw [← same.1, ← same.2]
        exact not_defines_of_fault fault table)
    · obtain ⟨groups, admins, texts, defines⟩ := (only table).mpr rfl
      exact ⟨groups, admins, texts, defines, allows_iff defines, immunity_inForce defines⟩
  · rw [loaded]
    exact ⟨fun _ _ => ⟨rfl, none_defined⟩, fun _ _ _ _ => ⟨e, rfl⟩, fun fine => (nomatch fine)⟩

/-- No text that is not a permission name is allowed, not even to root. -/
theorem root_refused_malformed :
    (({} : Permissions).load rootDirectory).2 = .ok () ∧
    authenticated rootPlayer = true ∧
    (∃ groups admins, Texts rootDirectory groups admins ∧
      Authorised groups admins rootPlayer.steamId "invalid.*".toList) ∧
    (({} : Permissions).load rootDirectory).1.allows rootPlayer "invalid.*".toList = false := by
  rcases load_cases {} rootDirectory with ⟨table, loaded, only⟩ | ⟨⟨e, refused⟩, -⟩
  · obtain ⟨groups, admins, texts, defines⟩ := (only table).mpr rfl
    rw [rootDirectory_load] at loaded ⊢
    cases loaded
    have found : Permissions.find { admins := [(76561197960265729, rootAdmin)] } rootPlayer =
        some rootAdmin := rfl
    obtain ⟨-, entry, inside, means⟩ := (find_eq_some defines).mp found
    obtain ⟨group, member, -, -, root_eq, -⟩ := means.member
    exact ⟨rfl, by decide, ⟨groups, admins, texts, entry, inside, means.account, group, member,
      Or.inl ((root_iff member).mp root_eq.symm)⟩, by decide⟩
  · rw [rootDirectory_load] at refused
    cases refused

end Source2Root.Admins
