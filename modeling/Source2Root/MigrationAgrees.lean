import Source2Root.MigrationReads

/-!
# The migration and the core agree

Whatever the tool accepts of an earlier administrator file, the core reads from the two
texts as the rights that the file gives: one account for each entry, with the permissions
and the immunity of that entry.
-/

set_option autoImplicit false

namespace Source2Root.Migration

open Python
open SteamId (Denotes)

/-! ## The entries -/

/-- How an entry comes to its group. -/
def Joined (native : Bool) (members : Value.Members) (key : Str) (group : Group) : Prop :=
  if native = true then
    ∃ name, Dict.find (str "group") members = some (.string name) ∧ key = lower name
  else
    ∃ values, Dict.find (str "permissions") members = some (.array values) ∧
      (∀ permission, permission ∈ group.permissions ↔ .string permission ∈ values) ∧
      group.immunity = 0 ∧ lower group.name ≠ str "root"

/-- The administrator that an entry has made, in one of the groups. -/
def Entered (native : Bool) (groups : Groups) (entry : Value) (admin : Admin) : Prop :=
  ∃ members key group id, entry = .object members ∧ (key, group) ∈ groups ∧
    group.name = admin.group ∧
    Dict.find (identityKey native) members = some (.string id) ∧ Denotes (bytes id) admin.account ∧
    Named members admin.account admin.label ∧ Level members group.immunity admin.immunity ∧
    Joined native members key group

theorem Entered.more {native : Bool} {groups groups' : Groups} {entry : Value} {admin : Admin}
    (entered : Entered native groups entry admin) (kept : ∀ pair ∈ groups, pair ∈ groups') :
    Entered native groups' entry admin := by
  obtain ⟨members, key, group, id, same, inside, rest⟩ := entered
  exact ⟨members, key, group, id, same, kept _ inside, rest⟩

def importedGroup (name : Str) (permissions : List Str) : Group :=
  { name, immunity := 0, permissions }

/-- The groups that the tool has made up for lists of permissions. -/
structure Progress.Made (p : Progress) : Prop where
  found : ∀ pair ∈ p.imported, (pair.2, importedGroup pair.2 pair.1) ∈ p.groups
  named : ∀ pair ∈ p.groups, ∃ admin ∈ p.admins, pair.1 = importedName admin.account

/-- What holds between the rounds of the loop. -/
structure Progress.Sound (native : Bool) (start : Groups) (done : List Value) (p : Progress) :
    Prop where
  groups : Groups.Sound p.groups
  admins : ∀ admin ∈ p.admins, admin.Fine
  accounts : (p.admins.map Admin.account).Nodup
  entered : List.Forall₂ (Entered native p.groups) done p.admins
  same : native = true → p.groups = start
  made : native = false → p.Made

theorem importedName_fine (account : Nat) (small : account < 10 ^ 20) :
    Fit 64 (importedName account) ∧ lower (importedName account) = importedName account ∧
      importedName account ≠ str "root" := by
  have ascii : Ascii (importedName account) :=
    Ascii.append (show Ascii (str "imported_") by decide) (decimal_ascii account)
  refine ⟨⟨?_, ?_, ?_, ?_⟩, ?_, ?_⟩
  · rw [encode_ascii ascii]
    exact Option.some_ne_none _
  · exact List.append_ne_nil_of_left_ne_nil (by decide) _
  · rw [importedName, bytes_append, bytes_decimal, List.length_append]
    have short := decimal_length small (by decide)
    have first : (bytes (str "imported_")).length = 9 := rfl
    omega
  · rw [importedName, List.any_append, decimal_clean]
    rfl
  · have digits : (Python.decimal account).map lowerPoint = Python.decimal account := by
      refine (List.map_congr_left fun c inside => ?_).trans (List.map_id _)
      have digit := Python.decimal_digits account c inside
      simp only [Python.isDigit, Bool.and_eq_true, decide_eq_true_eq] at digit
      exact if_neg fun both => by omega
    rw [importedName, lower, List.map_append, digits]
    rfl
  · intro same
    have first := congrArg List.head? same
    rw [importedName, List.head?_append_of_ne_nil _ (by decide)] at first
    exact absurd first (by decide)

theorem importedName_inj {m n : Nat} (same : importedName m = importedName n) : m = n :=
  (Python.intOf_decimal m).symm.trans
    ((congrArg intOf (List.append_cancel_left same)).trans (Python.intOf_decimal n))

theorem namedGroup_eq_some {p p' : Progress} {group : Group} {members : Value.Members}
    (once : (p.groups.map Prod.fst).Nodup) (found : namedGroup p members = some (p', group)) :
    p' = p ∧ ∃ name, Dict.find (str "group") members = some (.string name) ∧
      (lower name, group) ∈ p.groups := by
  obtain ⟨name, named, found⟩ := Option.bind_eq_some_iff.mp found
  obtain ⟨group', known, same⟩ := Option.map_eq_some_iff.mp found
  cases same
  exact ⟨rfl, name, (text_eq_some.mp named).1, (Loading.lookup_eq_some once).mp known⟩

/-- What the group of an entry that lists permissions is, old or new. -/
structure Grown (p p' : Progress) (account : Nat) (permissions : List Str) (group : Group) :
    Prop where
  admins : p'.admins = p.admins
  kept : ∀ pair ∈ p.groups, pair ∈ p'.groups
  groups : Groups.Sound p'.groups
  inside : ∃ key, (key, group) ∈ p'.groups
  group : ∃ name, group = importedGroup name permissions
  found : ∀ pair ∈ p'.imported, (pair.2, importedGroup pair.2 pair.1) ∈ p'.groups
  named : ∀ pair ∈ p'.groups, pair ∈ p.groups ∨ pair.1 = importedName account

theorem importGroup_grown {p : Progress} (groups : Groups.Sound p.groups) (made : p.Made)
    {account : Nat} (small : account < 10 ^ 20)
    (fresh : ∀ admin ∈ p.admins, admin.account ≠ account) {permissions : List Str}
    (valid : ∀ permission ∈ permissions,
      Fit 96 permission ∧ Admins.validPermission (bytes permission) = true)
    (once : permissions.Nodup) :
    Grown p (p.importGroup account permissions).1 account permissions
      (p.importGroup account permissions).2 := by
  unfold Progress.importGroup
  cases known : p.imported.lookup permissions with
  | some name =>
      obtain ⟨before, after, split, -⟩ := List.lookup_eq_some_iff.mp known
      have there := made.found (permissions, name) (by rw [split]; simp)
      have found := (Loading.lookup_eq_some groups.once).mpr there
      simp only [Progress.setDefault, found]
      exact ⟨rfl, fun _ member => member, groups, ⟨_, there⟩, ⟨name, rfl⟩, made.found,
        fun _ member => Or.inl member⟩
  | none =>
      obtain ⟨fit, lowered, -⟩ := importedName_fine account small
      have absent : p.groups.lookup (importedName account) = none := by
        refine Loading.lookup_eq_none.mpr fun member => ?_
        obtain ⟨pair, inside, same⟩ := List.mem_map.mp member
        obtain ⟨admin, there, named⟩ := made.named pair inside
        exact fresh admin there (importedName_inj (named.symm.trans same))
      simp only [Progress.setDefault, absent]
      refine ⟨rfl, fun _ member => List.mem_append_left _ member,
        groups.snoc lowered.symm ⟨⟨fit, fun s inside => (valid s inside).1, Nat.zero_le _⟩,
          fun s inside => (valid s inside).2, once⟩ absent,
        ⟨_, List.mem_append_right _ (List.mem_singleton_self _)⟩, ⟨_, rfl⟩, ?_, ?_⟩
      · refine List.forall_mem_append.mpr ⟨fun pair inside => ?_, ?_⟩
        · exact List.mem_append_left _ (made.found pair inside)
        · exact List.forall_mem_singleton.mpr
            (List.mem_append_right _ (List.mem_singleton_self _))
      · refine List.forall_mem_append.mpr ⟨fun pair inside => Or.inl inside, ?_⟩
        exact List.forall_mem_singleton.mpr (Or.inr rfl)

theorem permittedGroup_grown {p p' : Progress} (groups : Groups.Sound p.groups) (made : p.Made)
    {account : Nat} (small : account < 10 ^ 20)
    (fresh : ∀ admin ∈ p.admins, admin.account ≠ account) {members : Value.Members} {group : Group}
    (found : permittedGroup p account members = some (p', group)) :
    ∃ values permissions, Dict.find (str "permissions") members = some (.array values) ∧
      (∀ permission, permission ∈ permissions ↔ .string permission ∈ values) ∧
      Grown p p' account permissions group := by
  unfold permittedGroup at found
  split at found
  · rename_i values listed
    obtain ⟨names, ran, same⟩ := Option.map_eq_some_iff.mp found
    have read (permission : Str) :
        permission ∈ sortedSet names ↔ .string permission ∈ values := by
      rw [mem_sortedSet, mem_mapM ran]
      constructor
      · rintro ⟨value, inside, one⟩
        rwa [(namedPermission_eq_some one).1] at inside
      · intro inside
        obtain ⟨one, named⟩ := mapM_defined ran _ inside
        obtain ⟨same, -⟩ := namedPermission_eq_some named
        cases same
        exact ⟨_, inside, named⟩
    have valid : ∀ permission ∈ sortedSet names,
        Fit 96 permission ∧ Admins.validPermission (bytes permission) = true := by
      intro permission inside
      obtain ⟨value, -, one⟩ := (mem_mapM ran permission).mp (mem_sortedSet.mp inside)
      exact (namedPermission_eq_some one).2
    have grown := importGroup_grown groups made small fresh valid (nodup_sortedSet names)
    rw [same] at grown
    exact ⟨values, _, listed, read, grown⟩
  · cases found

theorem readAdmin_eq_some {account : Nat} {group : Group} {members : Value.Members}
    {admin : Admin} (read : readAdmin account group members = some admin) :
    admin.account = account ∧ admin.group = group.name ∧ Fit 128 admin.label ∧
      Named members account admin.label ∧ Level members group.immunity admin.immunity ∧
      admin.immunity ≤ 2147483647 := by
  obtain ⟨label, labelled, read⟩ := Option.bind_eq_some_iff.mp read
  obtain ⟨level, immune, rfl⟩ := Option.map_eq_some_iff.mp read
  obtain ⟨named, fit⟩ := text_eq_some.mp labelled
  obtain ⟨immune, small⟩ := immunity_eq_some.mp immune
  exact ⟨rfl, rfl, fit, Option.some.inj named, immune, small⟩

/-- The groups and the books after an entry's group is found. -/
structure Settled (native : Bool) (start : Groups) (p p' : Progress) (account : Nat)
    (members : Value.Members) (group : Group) : Prop where
  admins : p'.admins = p.admins
  kept : ∀ pair ∈ p.groups, pair ∈ p'.groups
  groups : Groups.Sound p'.groups
  joined : ∃ key, (key, group) ∈ p'.groups ∧ Joined native members key group
  same : native = true → p'.groups = start
  found : native = false →
    ∀ pair ∈ p'.imported, (pair.2, importedGroup pair.2 pair.1) ∈ p'.groups
  named : native = false → ∀ pair ∈ p'.groups, pair ∈ p.groups ∨ pair.1 = importedName account

theorem group_settled {native : Bool} {start : Groups} {done : List Value} {p p' : Progress}
    (sound : p.Sound native start done) {account : Nat} (small : account < 10 ^ 20)
    (fresh : ∀ admin ∈ p.admins, admin.account ≠ account) {members : Value.Members} {group : Group}
    (found : (if native then namedGroup p members else permittedGroup p account members) =
      some (p', group)) : Settled native start p p' account members group := by
  cases native with
  | true =>
      obtain ⟨rfl, name, named, inside⟩ := namedGroup_eq_some sound.groups.once found
      exact ⟨rfl, fun _ member => member, sound.groups, ⟨_, inside, name, named, rfl⟩, sound.same,
        nofun, nofun⟩
  | false =>
      obtain ⟨values, permissions, listed, read, grown⟩ :=
        permittedGroup_grown sound.groups (sound.made rfl) small fresh found
      obtain ⟨key, inside⟩ := grown.inside
      obtain ⟨name, rfl⟩ := grown.group
      have own : lower name ≠ str "root" := by
        have key_eq : key = lower name := grown.groups.keys _ inside
        rcases grown.named _ inside with old | new
        · obtain ⟨admin, there, imported⟩ := (sound.made rfl).named _ old
          have bound := (sound.admins admin there).account.2
          rw [← key_eq, show key = _ from imported]
          exact (importedName_fine _ (Nat.lt_of_le_of_lt bound (by decide))).2.2
        · rw [← key_eq, show key = _ from new]
          exact (importedName_fine _ small).2.2
      exact ⟨grown.admins, grown.kept, grown.groups,
        ⟨key, inside, values, listed, read, rfl, own⟩, nofun, fun _ => grown.found,
        fun _ => grown.named⟩

theorem addEntry_keeps {native : Bool} {start : Groups} {done : List Value} {p p' : Progress}
    {value : Value} (sound : p.Sound native start done)
    (added : addEntry native p value = some p') : p'.Sound native start (done ++ [value]) := by
  unfold addEntry at added
  split at added
  · rename_i members
    obtain ⟨account, identified, added⟩ := Option.bind_eq_some_iff.mp added
    obtain ⟨id, spelled, denotes, low, high⟩ := identity_eq_some identified
    split at added
    · cases added
    · rename_i unseen
      obtain ⟨⟨q, group⟩, found, added⟩ := Option.bind_eq_some_iff.mp added
      obtain ⟨admin, read, rfl⟩ := Option.map_eq_some_iff.mp added
      have fresh : ∀ admin ∈ p.admins, admin.account ≠ account := by
        simpa using unseen
      obtain ⟨same_account, own, label, named, level, small⟩ := readAdmin_eq_some read
      have settled := group_settled sound (Nat.lt_of_le_of_lt high (by decide)) fresh found
      obtain ⟨key, inside, joined⟩ := settled.joined
      have placed := (settled.groups.valid _ inside).name
      have fine : admin.Fine := ⟨label, own ▸ placed, same_account ▸ ⟨low, high⟩, small⟩
      have entered : Entered native q.groups (.object members) admin :=
        ⟨members, key, group, id, rfl, inside, own.symm, spelled, same_account ▸ denotes,
          same_account ▸ named, level, joined⟩
      refine ⟨settled.groups, List.forall_mem_append.mpr ⟨settled.admins ▸ sound.admins,
        List.forall_mem_singleton.mpr fine⟩, ?_, ?_, settled.same, fun foundation =>
        ⟨settled.found foundation, ?_⟩⟩
      · rw [settled.admins, List.map_append, List.nodup_append_comm]
        refine List.nodup_cons.mpr ⟨fun member => ?_, sound.accounts⟩
        obtain ⟨other, there, equal⟩ := List.mem_map.mp member
        exact fresh other there (equal.trans same_account)
      · rw [settled.admins]
        exact List.rel_append (sound.entered.imp fun _ _ entered => entered.more settled.kept)
          (List.Forall₂.cons entered List.Forall₂.nil)
      · intro pair member
        rcases settled.named foundation pair member with old | new
        · obtain ⟨other, there, equal⟩ := (sound.made foundation).named pair old
          exact ⟨other, List.mem_append_left _ (settled.admins ▸ there), equal⟩
        · exact ⟨admin, List.mem_append_right _ (List.mem_singleton_self _), same_account ▸ new⟩
  · cases added

theorem entries_read {native : Bool} {p p' : Progress} {entries : List Value}
    (groups : Groups.Sound p.groups) (none_ : p.admins = [] ∧ p.imported = [])
    (bare : native = false → p.groups = [])
    (ran : entries.foldlM (addEntry native) p = some p') :
    p'.Sound native p.groups entries := by
  refine foldlM_start (Progress.Sound native p.groups)
    (fun sound added => addEntry_keeps sound added) ?_ ran
  refine ⟨groups, ?_, ?_, ?_, fun _ => rfl, fun foundation => ⟨?_, ?_⟩⟩
  · rw [none_.1]
    exact List.forall_mem_nil _
  · rw [none_.1]
    exact List.nodup_nil
  · rw [none_.1]
    exact List.Forall₂.nil
  · rw [none_.2]
    exact List.forall_mem_nil _
  · rw [bare foundation]
    exact List.forall_mem_nil _

/-! ## The whole file -/

theorem mem_sortedGroups {groups : Groups} {group : Group} :
    group ∈ sortedGroups groups ↔ ∃ key, (key, group) ∈ groups := by
  rw [sortedGroups, (List.mergeSort_perm _ _).mem_iff, List.mem_map]
  exact ⟨fun ⟨pair, inside, same⟩ => ⟨pair.1, same ▸ inside⟩, fun ⟨key, inside⟩ => ⟨_, inside, rfl⟩⟩

theorem sortedGroups_names {groups : Groups} (sound : Groups.Sound groups) :
    ((sortedGroups groups).map fun group => lower group.name).Nodup := by
  have same : (groups.map Prod.snd).map (fun group => lower group.name) =
      groups.map Prod.fst := by
    rw [List.map_map]
    exact List.map_congr_left fun entry inside => (sound.keys entry inside).symm
  have kept := (List.mergeSort_perm (groups.map Prod.snd)
    fun a b => decide (a.name ≤ b.name)).map fun group => lower group.name
  exact kept.nodup_iff.mpr (same ▸ sound.once)

/-- The groups are those of a file of the native format. -/
def Origin (data : Value.Members) (groups : Groups) : Prop :=
  ∃ items, Dict.find (str "groups") data = some (.object items) ∧ Listed items groups

theorem start_eq_some {data : Value.Members} {converted : Converted} {p : Progress}
    (started : start data = some (converted, p)) :
    Groups.Sound p.groups ∧ (p.admins = [] ∧ p.imported = []) ∧
      (native data = true → Origin data p.groups) ∧ (native data = false → p.groups = []) := by
  unfold start at started
  split at started
  · rename_i absent
    cases started
    refine ⟨Groups.sound_nil, ⟨rfl, rfl⟩, fun there => ?_, fun _ => rfl⟩
    rw [native, absent] at there
    cases there
  · rename_i items listed
    obtain ⟨settings, -, started⟩ := Option.bind_eq_some_iff.mp started
    obtain ⟨groups, ran, same⟩ := Option.map_eq_some_iff.mp started
    cases same
    have read := groups_read ran
    refine ⟨read.sound, ⟨rfl, rfl⟩, fun _ => ⟨items, listed, read⟩, fun absent => ?_⟩
    rw [native, listed] at absent
    cases absent
  · cases started

/-- What the tool has seen to when it writes. -/
theorem convert_eq_some {data : Value.Members} {entries : List Value} {m : Outcome}
    (converted : convert data entries = some m) :
    m.Sound ∧ ∃ groups, Groups.Sound groups ∧ m.groups = sortedGroups groups ∧
      (native data = true → Origin data groups) ∧
      List.Forall₂ (Entered (native data) groups) entries m.admins := by
  unfold convert at converted
  split at converted
  · cases converted
  · rename_i few
    obtain ⟨⟨settings, p⟩, started, converted⟩ := Option.bind_eq_some_iff.mp converted
    obtain ⟨q, ran, converted⟩ := Option.bind_eq_some_iff.mp converted
    obtain ⟨groups, none_, origin, bare⟩ := start_eq_some started
    have sound := entries_read groups none_ bare ran
    split at converted
    · cases converted
    · rename_i fits
      cases converted
      have placed : ∀ admin ∈ q.admins, ∃ group ∈ sortedGroups q.groups,
          group.name = admin.group := by
        intro admin inside
        obtain ⟨entry, -, members, key, group, id, -, member, named, -⟩ :=
          Admins.forall₂_mem_right sound.entered inside
        exact ⟨group, mem_sortedGroups.mpr ⟨key, member⟩, named⟩
      refine ⟨⟨fun group inside => ?_, sortedGroups_names sound.groups, ?_, sound.admins, placed,
        sound.accounts, ?_⟩, q.groups, sound.groups, rfl, fun there => ?_, sound.entered⟩
      · obtain ⟨key, member⟩ := mem_sortedGroups.mp inside
        exact sound.groups.valid _ member
      · rw [sortedGroups, List.length_mergeSort, List.length_map]
        exact Nat.not_lt.mp fun many => fits (Or.inl many)
      · rw [← sound.entered.length_eq]
        exact Nat.not_lt.mp few
      · rw [sound.same there]
        exact origin there

/-- The row that the core makes of an entry keeps what the entry gives. -/
theorem gives_kept {data : Value.Members} {groups : Groups} {m : Outcome}
    (sound : Groups.Sound groups) (sorted : m.groups = sortedGroups groups)
    (origin : native data = true → Origin data groups) {entry : Value} {admin : Admin}
    (fine : admin.Fine) (entered : Entered (native data) groups entry admin)
    {row : Nat × Admins.Admin} (made : m.Row admin row) :
    ∃ rights, Gives data entry rights ∧ rights.Kept row := by
  obtain ⟨members, key, group, id, rfl, inside, named, spelled, denotes, labelled, level, joined⟩ :=
    entered
  obtain ⟨group', inside', named', rfl⟩ := made
  obtain ⟨key', inside'⟩ := mem_sortedGroups.mp (sorted ▸ inside')
  have valid := SteamId.valid_iff.mpr fine.account
  have own : key = lower group.name := sound.keys _ inside
  have own' : key' = lower group'.name := sound.keys _ inside'
  have same : key' = key := by
    rw [own, own', named, named']
  obtain rfl : group' = group := by
    have first := (Loading.lookup_eq_some sound.once).mpr inside
    have second := (Loading.lookup_eq_some sound.once).mpr inside'
    rw [same] at second
    exact Option.some.inj (second.symm.trans first)
  have listed (other : lower group'.name ≠ str "root") :
      (admin.core group').permissions = group'.permissions.map bytes := by
    by_cases filled : group'.permissions = []
    · rw [filled]
      refine if_neg fun lists => ?_
      exact (Group.lists_iff.mp lists).2 filled
    · exact if_pos (Group.lists_iff.mpr ⟨other, filled⟩)
  cases format : native data with
  | true =>
      rw [format] at spelled joined
      obtain ⟨items, there, read⟩ := origin format
      obtain ⟨name, member, lowered⟩ := joined
      obtain ⟨object, values, item, permissions, granted, shared⟩ := read.read _ inside
      refine ⟨_, .named there spelled denotes valid labelled member item (own.symm.trans lowered)
        permissions shared level, rfl, rfl, ?_, decide_eq_true_iff, ?_, rfl⟩
      · intro name same
        cases same
        rfl
      · intro other permission
        rw [listed other, List.mem_map]
        exact exists_congr fun name => and_congr (granted name) eq_comm
  | false =>
      rw [format] at spelled joined
      obtain ⟨values, permissions, granted, zero, other⟩ := joined
      have absent : Dict.find (str "groups") data = none := by
        simpa [native] using format
      rw [zero] at level
      refine ⟨_, .permitted absent spelled denotes valid labelled permissions level, rfl, rfl,
        nofun, ?_, ?_, rfl⟩
      · exact decide_eq_true_iff.trans (iff_of_false other not_false)
      · intro _ permission
        rw [listed other, List.mem_map]
        exact exists_congr fun name => and_congr (granted name) eq_comm

/-- No two groups of the file have one name. -/
def Distinct (data : Value.Members) : Prop :=
  ∀ items, Dict.find (str "groups") data = some (.object items) →
    (items.map fun item => lower item.1).Nodup

theorem Origin.distinct {data : Value.Members} {groups : Groups} (origin : Origin data groups) :
    Distinct data := by
  obtain ⟨items, there, read⟩ := origin
  intro items' there'
  rw [there] at there'
  cases there'
  exact read.keys ▸ read.sound.once

theorem denotes_unique {text : Text} {n m : Nat} (left : Denotes text n) (right : Denotes text m)
    (valid : validSteamIdentity n = true) (valid' : validSteamIdentity m = true) : n = m :=
  Except.ok.inj ((SteamId.read_of_denotes left valid).symm.trans
    (SteamId.read_of_denotes right valid'))

/-- An entry gives one thing. -/
theorem Gives.unique {data : Value.Members} (distinct : Distinct data) {entry : Value}
    {rights other : Rights} (left : Gives data entry rights) (right : Gives data entry other) :
    rights = other := by
  cases left with
  | named native identity denotes valid labelled member inside same permissions shared immune =>
      cases right with
      | named native' identity' denotes' valid' labelled' member' inside' same' permissions'
          shared' immune' =>
          cases native.symm.trans native'
          cases identity.symm.trans identity'
          cases denotes_unique denotes denotes' valid valid'
          cases labelled.symm.trans labelled'
          cases member.symm.trans member'
          cases List.inj_on_of_nodup_map (distinct _ native) inside inside'
            (same.trans same'.symm)
          cases permissions.symm.trans permissions'
          cases shared.symm.trans shared'
          cases immune.symm.trans immune'
          rfl
      | permitted foundation => exact nomatch native.symm.trans foundation
  | permitted foundation identity denotes valid labelled permissions immune =>
      cases right with
      | named native => exact nomatch native.symm.trans foundation
      | permitted _ identity' denotes' valid' labelled' permissions' immune' =>
          cases identity.symm.trans identity'
          cases denotes_unique denotes denotes' valid valid'
          cases labelled.symm.trans labelled'
          cases permissions.symm.trans permissions'
          cases immune.symm.trans immune'
          rfl

/-! ## What players may do -/

/-- What someone with these rights may do. -/
def Rights.Allow (rights : Rights) (permission : Text) : Prop :=
  rights.root ∨ ∃ name, rights.permission name ∧ permission = bytes name

theorem Rights.Kept.allow {rights : Rights} {row : Nat × Admins.Admin} (kept : rights.Kept row)
    (permission : Text) :
    (row.2.root || row.2.permissions.contains permission) = true ↔ rights.Allow permission := by
  rw [Bool.or_eq_true, List.contains_iff_mem, kept.root, Rights.Allow]
  by_cases root : rights.root
  · exact iff_of_true (Or.inl root) (Or.inl root)
  · rw [or_iff_right root, or_iff_right root, kept.permissions root]

/-- The table has one row for each entry, of what the entry gives. -/
structure Carried (data : Value.Members) (entries : List Value) (table : Admins.Table) : Prop where
  rows : List.Forall₂ (fun entry row =>
    ∃ rights, (∀ other, Gives data entry other ↔ other = rights) ∧ rights.Kept row) entries table
  once : (table.map Prod.fst).Nodup

theorem Carried.lookup {data : Value.Members} {entries : List Value} {table : Admins.Table}
    (carried : Carried data entries table) {entry : Value} (inside : entry ∈ entries)
    {rights : Rights} (gives : Gives data entry rights) :
    ∃ admin, table.lookup rights.account = some admin ∧ rights.Kept (rights.account, admin) := by
  obtain ⟨⟨account, admin⟩, member, rights', only, kept⟩ :=
    Admins.forall₂_mem_left carried.rows inside
  cases (only rights).mp gives
  obtain rfl : account = rights.account := kept.account
  exact ⟨admin, (Loading.lookup_eq_some carried.once).mpr member, kept⟩

theorem Carried.found {data : Value.Members} {entries : List Value} {table : Admins.Table}
    (carried : Carried data entries table) {account : Nat} {admin : Admins.Admin}
    (found : table.lookup account = some admin) :
    ∃ entry ∈ entries, ∃ rights, Gives data entry rights ∧ rights.account = account ∧
      rights.Kept (account, admin) := by
  have member := (Loading.lookup_eq_some carried.once).mp found
  obtain ⟨entry, inside, rights, only, kept⟩ := Admins.forall₂_mem_right carried.rows member
  exact ⟨entry, inside, rights, (only rights).mpr rfl, kept.account.symm, kept⟩

theorem Carried.allows {data : Value.Members} {entries : List Value} {table : Admins.Table}
    (carried : Carried data entries table) {player : Player}
    (known : Admins.authenticated player = true) {permission : Text}
    (valid : Admins.validPermission permission = true) (filled : permission ≠ []) :
    ({ admins := table } : Admins.Permissions).allows player permission = true ↔
      ∃ entry ∈ entries, ∃ rights, Gives data entry rights ∧ rights.account = player.steamId ∧
        rights.Allow permission := by
  have find : ({ admins := table } : Admins.Permissions).find player =
      table.lookup player.steamId := if_pos known
  rw [Admins.Permissions.allows, valid, Bool.not_true, if_neg Bool.false_ne_true, if_neg filled,
    find]
  cases found : table.lookup player.steamId with
  | some admin =>
      obtain ⟨entry, inside, rights, gives, same, kept⟩ := carried.found found
      refine (kept.allow permission).trans ⟨fun allow => ?_, ?_⟩
      · exact ⟨entry, inside, rights, gives, same, allow⟩
      · rintro ⟨entry', inside', rights', gives', same', allow⟩
        obtain ⟨admin', found', kept'⟩ := carried.lookup inside' gives'
        rw [same', found] at found'
        cases found'
        exact (kept.allow permission).mp ((kept'.allow permission).mpr allow)
  | none =>
      refine iff_of_false Bool.false_ne_true ?_
      rintro ⟨entry, inside, rights, gives, same, -⟩
      obtain ⟨admin, found', -⟩ := carried.lookup inside gives
      rw [same, found] at found'
      cases found'

theorem Carried.immunity {data : Value.Members} {entries : List Value} {table : Admins.Table}
    (carried : Carried data entries table) {player : Player}
    (known : Admins.authenticated player = true) (level : Int) :
    ({ admins := table } : Admins.Permissions).immunity player = level ↔
      (∃ entry ∈ entries, ∃ rights, Gives data entry rights ∧ rights.account = player.steamId ∧
        level = rights.immunity) ∨
      (∀ entry ∈ entries, ∀ rights, Gives data entry rights → rights.account ≠ player.steamId) ∧
        level = 0 := by
  have find : ({ admins := table } : Admins.Permissions).find player =
      table.lookup player.steamId := if_pos known
  rw [Admins.Permissions.immunity, find]
  cases found : table.lookup player.steamId with
  | some admin =>
      obtain ⟨entry, inside, rights, gives, same, kept⟩ := carried.found found
      constructor
      · rintro rfl
        exact Or.inl ⟨entry, inside, rights, gives, same, kept.immunity⟩
      · rintro (⟨entry', inside', rights', gives', same', rfl⟩ | ⟨nobody, -⟩)
        · obtain ⟨admin', found', kept'⟩ := carried.lookup inside' gives'
          rw [same', found] at found'
          cases found'
          exact kept'.immunity
        · exact absurd same (nobody entry inside rights gives)
  | none =>
      constructor
      · rintro rfl
        refine Or.inr ⟨fun entry inside rights gives same => ?_, rfl⟩
        obtain ⟨admin, found', -⟩ := carried.lookup inside gives
        rw [same, found] at found'
        cases found'
      · rintro (⟨entry, inside, rights, gives, same, -⟩ | ⟨-, rfl⟩)
        · obtain ⟨admin, found', -⟩ := carried.lookup inside gives
          rw [same, found] at found'
          cases found'
        · rfl

theorem forall₂_through {α β γ : Type} {r : α → β → Prop} {s : β → γ → Prop} {t : α → γ → Prop}
    {as : List α} {bs : List β} {cs : List γ} (first : List.Forall₂ r as bs)
    (second : List.Forall₂ s bs cs) (both : ∀ b ∈ bs, ∀ {a c}, r a b → s b c → t a c) :
    List.Forall₂ t as cs := by
  induction first generalizing cs with
  | nil =>
      cases second
      exact List.Forall₂.nil
  | cons here _ ih =>
      cases second with
      | cons there later =>
          obtain ⟨one, others⟩ := List.forall_mem_cons.mp both
          exact List.Forall₂.cons (one here there) (ih later others)

theorem convert_carried {data : Value.Members} {entries : List Value} {m : Outcome}
    (converted : convert data entries = some m) {table : Admins.Table}
    (rows : List.Forall₂ m.Row m.admins table) : Carried data entries table := by
  obtain ⟨sound, groups, listed, sorted, origin, entered⟩ := convert_eq_some converted
  have distinct : Distinct data := by
    cases format : native data with
    | true => exact (origin format).distinct
    | false =>
        intro items there
        rw [native, there] at format
        cases format
  refine ⟨forall₂_through entered rows fun admin inside _ _ entered made => ?_, ?_⟩
  · obtain ⟨rights, gives, kept⟩ :=
      gives_kept listed sorted origin (sound.admins admin inside) entered made
    exact ⟨rights, fun other => ⟨fun gives' => gives'.unique distinct gives, fun same =>
      same ▸ gives⟩, kept⟩
  · exact rows_accounts rows ▸ sound.accounts

/-- What the tool writes of an earlier file, the core reads as what that file gives: each
entry has one row, and a player may do what an entry of theirs gives and has its immunity.
A text that is too long for the core is refused and leaves the table in force. -/
theorem migration_agrees {raw : Text} {files : Files} (prepared : prepare raw = some files)
    (p : Admins.Permissions) :
    ∃ data entries, read raw (1024 * 1024) = some data ∧
      entriesOf data = some entries ∧
      (¬files.Short → ∃ e, p.load files.directory = (p, .error e)) ∧
      (files.Short → ∃ table, p.load files.directory = ({ admins := table }, .ok ()) ∧
        Carried data entries table ∧
        ∀ player, Admins.authenticated player = true →
          (∀ permission ≠ [], Admins.validPermission permission = true →
            (({ admins := table } : Admins.Permissions).allows player permission = true ↔
              ∃ entry ∈ entries, ∃ rights, Gives data entry rights ∧
                rights.account = player.steamId ∧ rights.Allow permission)) ∧
          ∀ level, ({ admins := table } : Admins.Permissions).immunity player = level ↔
            (∃ entry ∈ entries, ∃ rights, Gives data entry rights ∧
              rights.account = player.steamId ∧ level = rights.immunity) ∨
            (∀ entry ∈ entries, ∀ rights, Gives data entry rights →
              rights.account ≠ player.steamId) ∧ level = 0) := by
  obtain ⟨data, known, prepared⟩ := Option.bind_eq_some_iff.mp prepared
  obtain ⟨entries, listed, prepared⟩ := Option.bind_eq_some_iff.mp prepared
  obtain ⟨m, converted, written⟩ := Option.bind_eq_some_iff.mp prepared
  obtain ⟨short, long⟩ := (convert_eq_some converted).1.loaded written p
  refine ⟨data, entries, known, listed, long, fun small => ?_⟩
  obtain ⟨table, loaded, rows⟩ := short small
  have carried := convert_carried converted rows
  refine ⟨table, loaded, carried, fun player authentic => ⟨?_, carried.immunity authentic⟩⟩
  exact fun permission filled valid => carried.allows authentic valid filled

/-- A file of the native format with one group and one administrator. -/
def earlierText : Text :=
  ("\x7b\"schema\":1,\"groups\":\x7b\"m\":\x7b\"permissions\":[\"map\"],\"immunity\":5\x7d\x7d," ++
    "\"admins\":[\x7b\"steamid\":\"[U:1:7]\",\"group\":\"M\",\"name\":\"a\"\x7d]\x7d").toList

theorem migration_agrees_one : ∃ files table, prepare earlierText = some files ∧
    ({} : Admins.Permissions).load files.directory = ({ admins := table }, .ok ()) ∧
    table.length = 1 := by
  have sizes : (prepare earlierText).map (fun files => (files.admins.length, files.groups.length)) =
      some (115, 132) := by
    decide +kernel
  obtain ⟨files, prepared, same⟩ := Option.map_eq_some_iff.mp sizes
  obtain ⟨data, entries, known, listed, -, short⟩ := migration_agrees prepared {}
  have small : files.Short := by
    obtain ⟨admins, groups⟩ := Prod.mk.inj same
    exact ⟨admins.trans_le (by decide), groups.trans_le (by decide)⟩
  obtain ⟨table, loaded, carried, -⟩ := short small
  have one : ((read earlierText (1024 * 1024)).bind entriesOf).map List.length = some 1 := by
    decide +kernel
  rw [known, Option.bind_some, listed] at one
  refine ⟨files, table, prepared, loaded, ?_⟩
  rw [← carried.rows.length_eq]
  exact Option.some.inj one

end Source2Root.Migration
