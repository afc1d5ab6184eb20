import Source2Root.MigrationLoads

/-!
# What the migration reads

The rights that an entry of an earlier administrator file gives, and what the pieces of the
tool make of the file: identities, names of permissions and groups.
-/

set_option autoImplicit false

namespace Source2Root.Migration

open Python
open SteamId (Numeral Denotes)

/-! ## What an earlier file says -/

/-- What one entry gives.  A group has a name of its own only in the native format. -/
structure Rights where
  account : Nat
  label : Str
  group : Option Str
  root : Prop
  permission : Str → Prop
  immunity : Nat

/-- A permission that the commands of a list stand for. -/
def Commands (values : List Value) (permission : Str) : Prop :=
  .string (str "*") ∈ values ∧ permission ∈ commandPermissions.map Prod.snd ∨
    ∃ name, .string name ∈ values ∧ (name, permission) ∈ commandPermissions

/-- The immunity that an object gives itself, or this one. -/
def Level (members : Value.Members) (fallback level : Nat) : Prop :=
  (Dict.find (str "immunity") members).getD (.integer fallback) = .integer level

def Named (members : Value.Members) (account : Nat) (label : Str) : Prop :=
  (Dict.find (str "name") members).getD (.string (Python.decimal account)) = .string label

/-- The rights that an entry of a file gives. -/
inductive Gives (data : Value.Members) : Value → Rights → Prop
  | named {items : List (Str × Value)} {entry group : Value.Members} {id name own label : Str}
      {values : List Value} {account level immunity : Nat}
      (native : Dict.find (str "groups") data = some (.object items))
      (identity : Dict.find (str "steamid") entry = some (.string id))
      (denotes : Denotes (bytes id) account) (valid : validSteamIdentity account = true)
      (labelled : Named entry account label)
      (member : Dict.find (str "group") entry = some (.string name))
      (inside : (own, .object group) ∈ items) (same : lower own = lower name)
      (permissions : Dict.find (str "permissions") group = some (.array values))
      (shared : Level group 0 level) (immune : Level entry level immunity) :
      Gives data (.object entry)
        { account, label, group := some own, root := lower own = str "root",
          permission := Commands values, immunity }
  | permitted {entry : Value.Members} {id label : Str} {values : List Value}
      {account immunity : Nat} (foundation : Dict.find (str "groups") data = none)
      (identity : Dict.find (str "identity") entry = some (.string id))
      (denotes : Denotes (bytes id) account) (valid : validSteamIdentity account = true)
      (labelled : Named entry account label)
      (permissions : Dict.find (str "permissions") entry = some (.array values))
      (immune : Level entry 0 immunity) :
      Gives data (.object entry)
        { account, label, group := none, root := False,
          permission := fun permission => .string permission ∈ values, immunity }

/-- The row of the core's table allows what the rights do. -/
structure Rights.Kept (rights : Rights) (row : Nat × Admins.Admin) : Prop where
  account : row.1 = rights.account
  label : row.2.label = bytes rights.label
  group : ∀ name, rights.group = some name → row.2.group = bytes name
  root : row.2.root = true ↔ rights.root
  permissions : ¬rights.root → ∀ permission,
    permission ∈ row.2.permissions ↔ ∃ name, rights.permission name ∧ permission = bytes name
  immunity : row.2.immunity = rights.immunity

/-! ## The pieces -/

theorem foldlM_invariant {α β : Type} {step : β → α → Option β} (Inv : List α → β → Prop)
    (kept : ∀ {done b a b'}, Inv done b → step b a = some b' → Inv (done ++ [a]) b') :
    ∀ {items done : List α} {b b' : β}, Inv done b → items.foldlM step b = some b' →
      Inv (done ++ items) b' := by
  intro items
  induction items with
  | nil =>
      intro done b b' holds ran
      cases ran
      rwa [List.append_nil]
  | cons a rest ih =>
      intro done b b' holds ran
      rw [List.foldlM_cons] at ran
      obtain ⟨middle, one, others⟩ := Option.bind_eq_some_iff.mp ran
      rw [List.append_cons]
      exact ih (kept holds one) others

theorem foldlM_start {α β : Type} {step : β → α → Option β} (Inv : List α → β → Prop)
    (kept : ∀ {done b a b'}, Inv done b → step b a = some b' → Inv (done ++ [a]) b')
    {items : List α} {b b' : β} (holds : Inv [] b) (ran : items.foldlM step b = some b') :
    Inv items b' := by
  have whole := foldlM_invariant Inv kept holds ran
  rwa [List.nil_append] at whole

theorem mem_mapM {α β : Type} {f : α → Option β} :
    ∀ {items : List α} {results : List β}, items.mapM f = some results →
      ∀ b, b ∈ results ↔ ∃ a ∈ items, f a = some b := by
  intro items
  induction items with
  | nil =>
      intro results ran b
      cases ran
      simp
  | cons a rest ih =>
      intro results ran b
      rw [List.mapM_cons] at ran
      obtain ⟨first, one, ran⟩ := Option.bind_eq_some_iff.mp ran
      obtain ⟨others, more, same⟩ := Option.bind_eq_some_iff.mp ran
      cases same
      rw [List.mem_cons, ih more b]
      constructor
      · rintro (rfl | ⟨a', inside, found⟩)
        · exact ⟨a, List.mem_cons_self .., one⟩
        · exact ⟨a', List.mem_cons_of_mem _ inside, found⟩
      · rintro ⟨a', inside, found⟩
        rcases List.mem_cons.mp inside with rfl | inside
        · exact Or.inl (Option.some.inj (found.symm.trans one))
        · exact Or.inr ⟨a', inside, found⟩

theorem mapM_defined {α β : Type} {f : α → Option β} :
    ∀ {items : List α} {results : List β}, items.mapM f = some results →
      ∀ a ∈ items, ∃ b, f a = some b := by
  intro items
  induction items with
  | nil => exact fun _ => List.forall_mem_nil _
  | cons a rest ih =>
      intro results ran
      rw [List.mapM_cons] at ran
      obtain ⟨first, one, ran⟩ := Option.bind_eq_some_iff.mp ran
      obtain ⟨others, more, -⟩ := Option.bind_eq_some_iff.mp ran
      exact List.forall_mem_cons.mpr ⟨⟨first, one⟩, ih more⟩

theorem mem_sortedSet {values : List Str} {value : Str} :
    value ∈ sortedSet values ↔ value ∈ values := by
  rw [sortedSet, (List.mergeSort_perm _ _).mem_iff, List.mem_dedup]

theorem nodup_sortedSet (values : List Str) : (sortedSet values).Nodup :=
  (List.mergeSort_perm _ _).nodup_iff.mpr (List.nodup_dedup values)

theorem immunity_eq_some {value : Value} {level : Nat} :
    immunity value = some level ↔ value = .integer level ∧ level ≤ 2147483647 := by
  unfold immunity
  split
  · rename_i n
    split
    · rename_i within
      rw [Option.some.injEq]
      constructor
      · rintro rfl
        exact ⟨by rw [Int.toNat_of_nonneg within.1], by omega⟩
      · rintro ⟨same, -⟩
        cases same
        rfl
    · rename_i outside
      refine iff_of_false nofun fun both => ?_
      obtain ⟨same, small⟩ := both
      cases same
      omega
  · rename_i other
    refine iff_of_false nofun fun both => ?_
    exact other _ both.1

/-- Every permission of a command is one that the core knows the form of. -/
theorem command_fine : ∀ permission ∈ commandPermissions.map Prod.snd,
    Fit 96 permission ∧ Admins.validPermission (bytes permission) = true := by
  have each : ∀ permission ∈ commandPermissions.map Prod.snd,
      (encode permission).isSome = true ∧ permission ≠ [] ∧ (bytes permission).length ≤ 96 ∧
        permission.any control = false ∧ Admins.validPermission (bytes permission) = true := by
    decide +kernel
  intro permission inside
  obtain ⟨known, filled, short, clean, valid⟩ := each permission inside
  exact ⟨⟨Option.isSome_iff_ne_none.mp known, filled, short, clean⟩, valid⟩

theorem lookup_commands {name permission : Str} :
    commandPermissions.lookup name = some permission ↔ (name, permission) ∈ commandPermissions :=
  Loading.lookup_eq_some (by decide +kernel)

theorem mem_commandPermission {values : List Value} {granted : List (List Str)}
    (ran : values.mapM commandPermission = some granted) (permission : Str) :
    permission ∈ granted.flatten ↔ Commands values permission := by
  rw [List.mem_flatten]
  constructor
  · rintro ⟨names, inside, member⟩
    obtain ⟨value, listed, found⟩ := (mem_mapM ran names).mp inside
    unfold commandPermission at found
    split at found
    · rename_i name
      split at found
      · rename_i every
        subst every
        cases found
        exact Or.inl ⟨listed, member⟩
      · obtain ⟨one, known, rfl⟩ := Option.map_eq_some_iff.mp found
        rw [List.mem_singleton.mp member]
        exact Or.inr ⟨name, listed, lookup_commands.mp known⟩
    · cases found
  · rintro (⟨listed, member⟩ | ⟨name, listed, known⟩)
    · have every : commandPermission (.string (str "*")) =
          some (commandPermissions.map Prod.snd) := by
        rw [commandPermission, if_pos rfl]
      exact ⟨_, (mem_mapM ran _).mpr ⟨_, listed, every⟩, member⟩
    · refine ⟨_, (mem_mapM ran [permission]).mpr ⟨_, listed, ?_⟩, List.mem_singleton_self _⟩
      have other : name ≠ str "*" := by
        rintro rfl
        have absent : commandPermissions.lookup (str "*") = none := by decide +kernel
        exact nomatch absent.symm.trans (lookup_commands.mpr known)
      rw [commandPermission, if_neg other, lookup_commands.mpr known]
      rfl

/-! ## Identities -/

theorem bytes_numeral {digits : Str} {n : Nat} (read : number digits = some n) :
    Numeral (bytes digits) n := by
  unfold number at read
  split at read
  · rename_i accepted
    cases read
    obtain ⟨filled, digit, -⟩ := accepted
    have each : ∀ c ∈ digits, 48 ≤ c ∧ c ≤ 57 := by
      intro c inside
      simpa only [Python.isDigit, Bool.and_eq_true, decide_eq_true_eq] using
        List.all_eq_true.mp digit c inside
    have value : ∀ (rest : Str) (start : Nat), (∀ c ∈ rest, 48 ≤ c ∧ c ≤ 57) →
        (rest.map byte).foldl (fun n c => 10 * n + (c.toNat - 48)) start =
          rest.foldl (fun n c => 10 * n + (c - 48)) start := by
      intro rest
      induction rest with
      | nil => exact fun _ _ => rfl
      | cons c rest ih =>
          intro start within
          obtain ⟨here, later⟩ := List.forall_mem_cons.mp within
          rw [List.map_cons, List.foldl_cons, List.foldl_cons,
            byte_toNat (Nat.lt_of_le_of_lt here.2 (by decide)), ih _ later]
    rw [bytes_ascii fun c inside => Nat.lt_of_le_of_lt (each c inside).2 (by decide)]
    refine ⟨fun empty => filled (List.map_eq_nil_iff.mp empty), ?_, value digits 0 each⟩
    rw [List.all_eq_true]
    intro b member
    obtain ⟨c, inside, rfl⟩ := List.mem_map.mp member
    rw [isDigit, byte_toNat (Nat.lt_of_le_of_lt (each c inside).2 (by decide))]
    simpa using each c inside
  · cases read

/-- The tool and the core read one account from a text. -/
theorem account_denotes {value : Str} {n : Nat} (read : account value = some n) :
    Denotes (bytes value) n := by
  unfold account at read
  split at read
  · rename_i legacy
    obtain ⟨rest, rfl⟩ := List.isPrefixOf_iff_prefix.mp legacy
    have dropped : (str "STEAM_" ++ rest).drop 6 = rest := rfl
    rw [dropped] at read
    split at read
    · rename_i realm first parity second half
      split at read
      · rename_i known
        obtain ⟨known, rfl, bit, rfl⟩ := known
        obtain ⟨m, number, rfl⟩ := Option.map_eq_some_iff.mp read
        have half_ := bytes_numeral number
        have spelled (r p : Nat) (low : r < 128) (low' : p < 128) :
            bytes (str "STEAM_" ++ r :: 58 :: p :: 58 :: half) =
              SteamId.legacyText (byte r) (byte p) (bytes half) := by
          rw [bytes_append, bytes_cons, bytes_cons, bytes_cons, bytes_cons, pointBytes_ascii low,
            pointBytes_ascii low']
          rfl
        have sum : individualBase + (m * 2 + (parity - 48)) =
            IndividualBase + 2 * m + (parity - 48) := by
          rw [Nat.mul_comm m 2, ← Nat.add_assoc]
          rfl
        rw [spelled realm parity (by omega) (by omega), sum]
        have bit_ : byte parity = digit (parity - 48) := by
          rcases bit with rfl | rfl <;> rfl
        rw [bit_]
        refine .legacy ?_ (by omega) half_
        rcases known with rfl | rfl
        · exact Or.inl rfl
        · exact Or.inr rfl
      · cases read
    · cases read
  · split at read
    · rename_i modern
      obtain ⟨rest, rfl⟩ := List.isPrefixOf_iff_prefix.mp modern
      split at read
      · rename_i closed
        obtain ⟨m, number, rfl⟩ := Option.map_eq_some_iff.mp read
        have dropped : (str "[U:1:" ++ rest).drop 5 = rest := rfl
        rw [dropped] at number
        have filled : rest ≠ [] := by
          rintro rfl
          exact absurd closed (by decide)
        have last : rest = rest.dropLast ++ [93] := by
          rw [List.getLast?_append_of_ne_nil _ filled] at closed
          exact (List.dropLast_append_getLast? 93 closed).symm
        have spelled : bytes (str "[U:1:" ++ rest) = SteamId.modernText (bytes rest.dropLast) := by
          rw [last, List.dropLast_concat, bytes_append, bytes_append, SteamId.modernText,
            List.append_assoc]
          rfl
        rw [spelled]
        exact .modern (bytes_numeral number)
      · cases read
    · exact .number (bytes_numeral read)

theorem identity_eq_some {value : Option Value} {n : Nat} (read : identity value = some n) :
    ∃ id, value = some (.string id) ∧ Denotes (bytes id) n ∧ individualBase < n ∧
      n ≤ individualBase + 0xffffffff := by
  unfold identity at read
  split at read
  · rename_i id
    obtain ⟨m, found, ranged⟩ := Option.bind_eq_some_iff.mp read
    split at ranged
    · rename_i within
      cases ranged
      exact ⟨id, rfl, account_denotes found, within.1, within.2⟩
    · cases ranged
  · cases read

/-! ## The groups -/

/-- What the groups of a run are: each is kept under its name in lower case. -/
structure Groups.Sound (groups : Groups) : Prop where
  keys : ∀ entry ∈ groups, entry.1 = lower entry.2.name
  valid : ∀ entry ∈ groups, entry.2.Valid
  once : (groups.map Prod.fst).Nodup

theorem Groups.sound_nil : Groups.Sound [] where
  keys := List.forall_mem_nil _
  valid := List.forall_mem_nil _
  once := List.nodup_nil

theorem Groups.Sound.snoc {groups : Groups} (sound : Groups.Sound groups) {key : Str}
    {group : Group} (named : key = lower group.name) (valid : group.Valid)
    (fresh : groups.lookup key = none) : Groups.Sound (groups ++ [(key, group)]) where
  keys := List.forall_mem_append.mpr ⟨sound.keys, List.forall_mem_singleton.mpr named⟩
  valid := List.forall_mem_append.mpr ⟨sound.valid, List.forall_mem_singleton.mpr valid⟩
  once := by
    rw [List.map_append, List.nodup_append_comm]
    exact List.nodup_cons.mpr ⟨Loading.lookup_eq_none.mp fresh, sound.once⟩

/-- The group is one of the items of the file. -/
def Read (items : List (Str × Value)) (group : Group) : Prop :=
  ∃ members values, (group.name, .object members) ∈ items ∧
    Dict.find (str "permissions") members = some (.array values) ∧
    (∀ permission, permission ∈ group.permissions ↔ Commands values permission) ∧
    Level members 0 group.immunity

theorem Read.append {items more : List (Str × Value)} {group : Group} (read : Read items group) :
    Read (items ++ more) group := by
  obtain ⟨members, values, inside, rest⟩ := read
  exact ⟨members, values, List.mem_append_left _ inside, rest⟩

theorem readGroup_eq_some {item : Str × Value} {group : Group}
    (read : readGroup item = some group) :
    group.name = item.1 ∧ group.Valid ∧ Read [item] group := by
  obtain ⟨name, value⟩ := item
  unfold readGroup at read
  split at read
  · rename_i members same
    split at read
    · rename_i values listed
      obtain ⟨own, named, read⟩ := Option.bind_eq_some_iff.mp read
      obtain ⟨granted, ran, read⟩ := Option.bind_eq_some_iff.mp read
      obtain ⟨level, immune, rfl⟩ := Option.map_eq_some_iff.mp read
      obtain ⟨spelled, fit⟩ := text_eq_some.mp named
      obtain ⟨immune, small⟩ := immunity_eq_some.mp immune
      cases spelled
      cases same
      have member (permission : Str) :
          permission ∈ sortedSet granted.flatten ↔ Commands values permission :=
        mem_sortedSet.trans (mem_commandPermission ran permission)
      have known : ∀ permission ∈ sortedSet granted.flatten,
          permission ∈ commandPermissions.map Prod.snd := by
        intro permission inside
        rcases (member permission).mp inside with ⟨-, listed⟩ | ⟨name, -, pair⟩
        · exact listed
        · exact List.mem_map_of_mem (f := Prod.snd) pair
      refine ⟨rfl, ⟨⟨fit, fun permission inside => (command_fine _ (known _ inside)).1, small⟩,
        fun permission inside => (command_fine _ (known _ inside)).2, nodup_sortedSet _⟩, ?_⟩
      exact ⟨members, values, List.mem_singleton_self _, listed, member, immune⟩
    · cases read
  · cases read

/-- These groups are the items of the file, in their order. -/
structure Listed (items : List (Str × Value)) (groups : Groups) : Prop where
  sound : Groups.Sound groups
  read : ∀ entry ∈ groups, Read items entry.2
  keys : groups.map Prod.fst = items.map fun item => lower item.1

theorem addGroup_keeps {done : List (Str × Value)} {groups groups' : Groups} {item : Str × Value}
    (holds : Listed done groups) (added : addGroup groups item = some groups') :
    Listed (done ++ [item]) groups' := by
  obtain ⟨group, read, added⟩ := Option.bind_eq_some_iff.mp added
  split at added
  · rename_i fresh
    cases added
    obtain ⟨named, valid, one⟩ := readGroup_eq_some read
    refine ⟨holds.sound.snoc (by rw [named]) valid fresh, List.forall_mem_append.mpr ⟨?_, ?_⟩, ?_⟩
    · exact fun entry inside => (holds.read entry inside).append
    · obtain ⟨members, values, inside, rest⟩ := one
      exact List.forall_mem_singleton.mpr
        ⟨members, values, List.mem_append_right _ inside, rest⟩
    · rw [List.map_append, List.map_append, holds.keys]
      rfl
  · cases added

theorem groups_read {items : List (Str × Value)} {groups : Groups}
    (ran : items.foldlM addGroup [] = some groups) : Listed items groups :=
  foldlM_start Listed (fun holds added => addGroup_keeps holds added)
    ⟨Groups.sound_nil, List.forall_mem_nil _, rfl⟩ ran

/-! ## Named permissions -/

/-- A part of a name between two points. -/
def Part (part : Str) : Prop := part ≠ [] ∧ ∀ c ∈ part, nameUnit c = true

theorem unit_byte {c : Nat} (unit : nameUnit c = true) :
    c < 128 ∧ Admins.permissionByte (byte c) = true ∧ byte c ≠ '.' ∧ control c = false := by
  have ascii : c < 128 := by
    simp only [nameUnit, Bool.or_eq_true, Bool.and_eq_true, decide_eq_true_eq, beq_iff_eq] at unit
    omega
  exact ⟨ascii, byte_cases (P := fun c => nameUnit c = true →
    Admins.permissionByte (byte c) = true ∧ byte c ≠ '.' ∧ control c = false)
      (by decide +kernel) c ascii unit⟩

theorem permissionBytes_units {units : Str} (each : ∀ c ∈ units, nameUnit c = true)
    (rest : Text) : Admins.permissionBytes false (units.map byte ++ rest) =
      Admins.permissionBytes false rest := by
  induction units with
  | nil => rfl
  | cons c units ih =>
      obtain ⟨here, later⟩ := List.forall_mem_cons.mp each
      obtain ⟨-, fine, other, -⟩ := unit_byte here
      have point : (byte c == '.') = false := beq_eq_false_iff_ne.mpr other
      rw [List.map_cons, List.cons_append, Admins.permissionBytes, fine, point, ih later]
      rfl

theorem permissionBytes_part {part : Str} (fine : Part part) (dot : Bool) (rest : Text) :
    Admins.permissionBytes dot (part.map byte ++ rest) = Admins.permissionBytes false rest := by
  obtain ⟨filled, each⟩ := fine
  obtain ⟨c, units, rfl⟩ := List.exists_cons_of_ne_nil filled
  obtain ⟨here, later⟩ := List.forall_mem_cons.mp each
  obtain ⟨-, unit, other, -⟩ := unit_byte here
  have point : (byte c == '.') = false := beq_eq_false_iff_ne.mpr other
  rw [List.map_cons, List.cons_append, Admins.permissionBytes, unit, point,
    permissionBytes_units later]
  rfl

/-- Parts with a point between each two of them. -/
theorem parts_valid {parts : List Str} (filled : parts ≠ []) (fine : ∀ part ∈ parts, Part part) :
    let name := [46].intercalate parts
    (∀ c ∈ name, c < 128 ∧ control c = false) ∧ name.head? ≠ some 46 ∧ name.getLast? ≠ some 46 ∧
      name ≠ [] ∧ ∀ dot, Admins.permissionBytes dot (name.map byte) = true := by
  have own {part : Str} (fine : Part part) : (∀ c ∈ part, c < 128 ∧ control c = false) ∧
      (∀ c ∈ part, c ≠ 46) := by
    constructor
    · intro c inside
      obtain ⟨ascii, -, -, clean⟩ := unit_byte (fine.2 c inside)
      exact ⟨ascii, clean⟩
    · rintro c inside rfl
      exact absurd (fine.2 46 inside) (by decide)
  induction parts with
  | nil => exact absurd rfl filled
  | cons part rest ih =>
      obtain ⟨here, later⟩ := List.forall_mem_cons.mp fine
      obtain ⟨plain, points⟩ := own here
      cases rest with
      | nil =>
          have same : [46].intercalate [part] = part := by simp [List.intercalate]
          simp only [same]
          refine ⟨plain, ?_, ?_, here.1, fun dot => ?_⟩
          · exact fun first => points 46 (List.mem_of_mem_head? first) rfl
          · exact fun last => points 46 (List.mem_of_getLast? last) rfl
          · rw [← List.append_nil (part.map byte), permissionBytes_part here]
            rfl
      | cons second more =>
          obtain ⟨plain', -, last', filled', valid'⟩ := ih (List.cons_ne_nil _ _) later
          have same : [46].intercalate (part :: second :: more) =
              part ++ 46 :: [46].intercalate (second :: more) := by
            simp [List.intercalate]
          simp only [same]
          refine ⟨?_, ?_, ?_, by simp, fun dot => ?_⟩
          · refine List.forall_mem_append.mpr ⟨plain, List.forall_mem_cons.mpr ⟨by decide, plain'⟩⟩
          · rw [List.head?_append_of_ne_nil _ here.1]
            exact fun first => points 46 (List.mem_of_mem_head? first) rfl
          · rw [List.getLast?_append_of_ne_nil _ (List.cons_ne_nil _ _),
              List.getLast?_cons_of_ne_nil filled']
            exact last'
          · rw [List.map_append, permissionBytes_part here, List.map_cons,
              show byte 46 = '.' from rfl, Admins.permissionBytes]
            exact valid' true

theorem namedPermission_eq_some {value : Value} {s : Str} (read : namedPermission value = some s) :
    value = .string s ∧ Fit 96 s ∧ Admins.validPermission (bytes s) = true := by
  unfold namedPermission at read
  split at read
  · rename_i s'
    split at read
    · rename_i accepted
      cases read
      obtain ⟨short, pieces⟩ := accepted
      have fine : ∀ part ∈ s.splitOn 46, Part part := by
        intro part inside
        have one := List.all_eq_true.mp pieces part inside
        simp only [Bool.and_eq_true, decide_eq_true_eq, List.all_eq_true] at one
        exact one
      have filled : s.splitOn 46 ≠ [] := List.splitOn_ne_nil _ _
      obtain ⟨plain, first, last, nonempty, valid⟩ := parts_valid filled fine
      rw [List.intercalate_splitOn] at plain first last nonempty valid
      have ascii : bytes s = s.map byte := bytes_ascii fun c inside => (plain c inside).1
      refine ⟨rfl, ⟨?_, nonempty, ?_, ?_⟩, ?_⟩
      · rw [encode_ascii fun c inside => (plain c inside).1]
        exact Option.some_ne_none _
      · rw [ascii, List.length_map]
        exact short
      · rw [List.any_eq_false]
        intro c inside
        rw [(plain c inside).2]
        exact Bool.false_ne_true
      · have point {c : Nat} (small : c < 128) (same : byte c = '.') : c = 46 := by
          rw [← byte_toNat (Nat.lt_trans small (by decide)), same]
          rfl
        rw [ascii, Admins.validPermission, if_neg (by rw [List.length_map]; omega),
          if_neg fun empty => nonempty (List.map_eq_nil_iff.mp empty), if_neg, valid false]
        rintro (start | finish)
        · rw [List.head?_map] at start
          obtain ⟨c, head, same⟩ := Option.map_eq_some_iff.mp start
          rw [point (plain c (List.mem_of_mem_head? head)).1 same] at head
          exact first head
        · rw [List.getLast?_map] at finish
          obtain ⟨c, tail, same⟩ := Option.map_eq_some_iff.mp finish
          rw [point (plain c (List.mem_of_getLast? tail)).1 same] at tail
          exact last tail
    · cases read
  · cases read

end Source2Root.Migration
