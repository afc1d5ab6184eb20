import Source2Root.Permissions
import Source2Root.SteamFormats

/-!
# What the entries of the two texts mean

The meaning of a group entry and of an administrator entry, apart from the order
in which `Permissions::Load` looks at them: which fields an object has, what a
field's text stands for and which entries fit together.
-/

set_option autoImplicit false

namespace Source2Root.Admins

open KeyValues (KeyValue Entries)
open SteamId (Numeral Denotes)

/-! ## Fields of an object -/

/-- The child of this name up to case. -/
def HasField (entry : KeyValue) (name : Text) (child : KeyValue) : Prop :=
  child ∈ entry.children ∧ lower child.name = name

/-- An object with these fields only, and none twice. -/
structure Shaped (entry : KeyValue) (allowed : List Text) : Prop where
  object : entry.isObject = true
  known : ∀ child ∈ entry.children, lower child.name ∈ allowed
  once : (entry.children.map fun child => lower child.name).Nodup

def fieldsOf (entry : KeyValue) : Fields :=
  entry.children.map fun child => (lower child.name, child)

theorem fieldsOf_names (entry : KeyValue) :
    (fieldsOf entry).map Prod.fst = entry.children.map fun child => lower child.name := by
  rw [fieldsOf, List.map_map]
  rfl

theorem readField_eq_ok {entry : Text} {allowed : List Text} {child : KeyValue}
    {field : Text × KeyValue} :
    readField entry allowed child = .ok field ↔
      field = (lower child.name, child) ∧ lower child.name ∈ allowed := by
  unfold readField
  simp only [List.contains_iff_mem]
  split
  · rename_i known
    constructor
    · intro same
      injection same with same
      exact ⟨same.symm, known⟩
    · intro same
      rw [same.1]
  · rename_i unknown
    constructor
    · intro same
      cases same
    · intro same
      exact absurd same.2 unknown

theorem forall₂_readField {entry : Text} {allowed : List Text} :
    ∀ {children : List KeyValue} {fields : Fields},
      List.Forall₂ (fun child field => readField entry allowed child = .ok field) children fields ↔
        fields = children.map (fun child => (lower child.name, child)) ∧
          ∀ child ∈ children, lower child.name ∈ allowed := by
  intro children
  induction children with
  | nil =>
      intro fields
      rw [List.forall₂_nil_left_iff]
      simp
  | cons child rest ih =>
      intro fields
      rw [List.forall₂_cons_left_iff, List.map_cons, List.forall_mem_cons]
      constructor
      · intro ⟨field, others, got, all_read, same⟩
        obtain ⟨others_eq, known⟩ := ih.mp all_read
        obtain ⟨field_eq, here⟩ := readField_eq_ok.mp got
        exact ⟨by rw [same, field_eq, others_eq], here, known⟩
      · intro ⟨same, here, known⟩
        exact ⟨(lower child.name, child), _, readField_eq_ok.mpr ⟨rfl, here⟩, ih.mpr ⟨rfl, known⟩,
          same⟩

theorem properties_eq_ok {entry : KeyValue} {allowed : List Text} {fields : Fields} :
    properties entry allowed = .ok fields ↔ Shaped entry allowed ∧ fields = fieldsOf entry := by
  unfold properties
  by_cases object : entry.isObject = true
  · rw [object, Bool.not_true, if_neg Bool.false_ne_true, Loading.load_eq_ok, forall₂_readField]
    constructor
    · intro ⟨⟨same, known⟩, sound⟩
      have once := sound.nodup
      have fields_eq : fields = fieldsOf entry := same
      rw [fields_eq, fieldsOf_names] at once
      exact ⟨⟨object, known, once⟩, same⟩
    · intro ⟨shaped, same⟩
      refine ⟨⟨same, shaped.known⟩, ?_, fun _ _ limited => nomatch limited⟩
      rw [same, fieldsOf_names]
      exact shaped.once
  · rw [Bool.not_eq_true] at object
    rw [object, Bool.not_false, if_pos rfl]
    constructor
    · intro same
      cases same
    · intro ⟨shaped, _⟩
      rw [shaped.object] at object
      cases object

theorem field_iff {entry : KeyValue} {allowed : List Text} (shaped : Shaped entry allowed)
    {name : Text} {child : KeyValue} :
    (fieldsOf entry).lookup name = some child ↔ HasField entry name child := by
  have nodup : ((fieldsOf entry).map Prod.fst).Nodup := by
    rw [fieldsOf_names]
    exact shaped.once
  rw [Loading.lookup_eq_some nodup, fieldsOf, List.mem_map]
  constructor
  · intro ⟨found, member, same⟩
    cases same
    exact ⟨member, rfl⟩
  · intro ⟨member, same⟩
    exact ⟨child, member, by rw [same]⟩

theorem no_field_iff {entry : KeyValue} {name : Text} :
    (fieldsOf entry).lookup name = none ↔ ∀ child, ¬HasField entry name child := by
  rw [Loading.lookup_eq_none, fieldsOf_names, List.mem_map]
  constructor
  · intro absent child ⟨member, same⟩
    exact absent ⟨child, member, same⟩
  · intro absent ⟨child, member, same⟩
    exact absent child ⟨member, same⟩

/-- The field is there with this value. -/
def HasValue (entry : KeyValue) (name text : Text) : Prop :=
  ∃ spelled, HasField entry name (.value spelled text)

theorem scalar_eq_ok {entry : KeyValue} {allowed : List Text} (shaped : Shaped entry allowed)
    {name : String} {text : Text} :
    scalar (fieldsOf entry) name = .ok text ↔ HasValue entry name.toList text := by
  unfold scalar HasValue
  constructor
  · intro found
    cases field : (fieldsOf entry).lookup name.toList with
    | none => simp [field] at found
    | some child =>
        rw [field] at found
        cases child with
        | object _ _ => cases found
        | value spelled value =>
            injection found with same
            subst same
            exact ⟨spelled, (field_iff shaped).mp field⟩
  · intro ⟨spelled, has⟩
    rw [(field_iff shaped).mpr has]

theorem hasField_unique {entry : KeyValue} {allowed : List Text} (shaped : Shaped entry allowed)
    {name : Text} {child other : KeyValue} (has : HasField entry name child)
    (has' : HasField entry name other) : child = other := by
  have found := (field_iff shaped).mpr has
  rw [(field_iff shaped).mpr has'] at found
  exact (Option.some.inj found).symm

/-! ## Immunity -/

/-- The text of a number that an `int` can hold and that is not below zero. -/
def ImmunityText (text : Text) (value : Int) : Prop :=
  ∃ digits n, Numeral digits n ∧ n ≤ 2147483647 ∧ value = n ∧
    (text = digits ∨ text = '-' :: digits ∧ n = 0)

theorem intFromChars_digits {text : Text} {n : Nat} (numeral : Numeral text n)
    (small : n ≤ 2147483647) : intFromChars text = some (n : Int) := by
  obtain ⟨filled, digits, value⟩ := numeral
  have accepted : text ≠ [] ∧ text.all isDigit = true ∧ digitsValue text < 2 ^ 31 :=
    ⟨filled, digits, by omega⟩
  unfold intFromChars
  split
  · exact absurd (List.all_eq_true.mp digits '-' (List.mem_cons_self ..)) (by decide)
  · rw [if_pos accepted, value]

theorem intFromChars_minus {text : Text} {n : Nat} (numeral : Numeral text n)
    (small : n ≤ 2 ^ 31) : intFromChars ('-' :: text) = some (-(n : Int)) := by
  obtain ⟨filled, digits, value⟩ := numeral
  rw [intFromChars, if_pos ⟨filled, digits, by omega⟩, value]

theorem intFromChars_eq_some {text : Text} {value : Int} (read : intFromChars text = some value) :
    ∃ digits n, Numeral digits n ∧ (text = digits ∧ n < 2 ^ 31 ∧ value = n ∨
      text = '-' :: digits ∧ value = -(n : Int)) := by
  unfold intFromChars at read
  split at read
  · rename_i digits
    split at read
    · rename_i accepted
      injection read with same
      exact ⟨digits, _, ⟨accepted.1, accepted.2.1, rfl⟩, Or.inr ⟨rfl, same.symm⟩⟩
    · cases read
  · split at read
    · rename_i accepted
      injection read with same
      exact ⟨text, _, ⟨accepted.1, accepted.2.1, rfl⟩, Or.inl ⟨rfl, accepted.2.2, same.symm⟩⟩
    · cases read

theorem immunityText_iff {text : Text} {value : Int} :
    (∃ read, intFromChars text = some read ∧ ¬read < 0 ∧ read = value) ↔
      ImmunityText text value := by
  constructor
  · intro ⟨read, found, positive, same⟩
    subst same
    obtain ⟨digits, n, numeral, ⟨text_eq, small, value_eq⟩ | ⟨text_eq, value_eq⟩⟩ :=
      intFromChars_eq_some found
    · exact ⟨digits, n, numeral, by omega, value_eq, Or.inl text_eq⟩
    · exact ⟨digits, n, numeral, by omega, by omega, Or.inr ⟨text_eq, by omega⟩⟩
  · intro ⟨digits, n, numeral, small, value_eq, spelled⟩
    rcases spelled with text_eq | ⟨text_eq, zero⟩
    · exact ⟨n, by rw [text_eq, intFromChars_digits numeral small], by omega, value_eq.symm⟩
    · refine ⟨-(n : Int), by rw [text_eq, intFromChars_minus numeral (by omega)], by omega, ?_⟩
      omega

/-- The entry's own immunity, or this one. -/
structure Immune (entry : KeyValue) (fallback value : Int) : Prop where
  own : ∀ child, HasField entry "immunity".toList child →
    ∃ spelled text, child = .value spelled text ∧ ImmunityText text value
  absent : (∀ child, ¬HasField entry "immunity".toList child) → value = fallback

theorem immunityValue_eq_ok {entry : KeyValue} {allowed : List Text}
    (shaped : Shaped entry allowed) {fallback value : Int} :
    immunityValue (fieldsOf entry) fallback = .ok value ↔ Immune entry fallback value := by
  cases field : (fieldsOf entry).lookup "immunity".toList with
  | none =>
      have absent := no_field_iff.mp field
      rw [immunityValue, field]
      constructor
      · intro same
        injection same with same
        exact ⟨fun child has => absurd has (absent child), fun _ => same.symm⟩
      · intro immune
        rw [immune.absent absent]
  | some child =>
      have has := (field_iff shaped).mp field
      rw [immunityValue, field]
      simp only
      cases child with
      | object spelled children =>
          have wrong : scalar (fieldsOf entry) "immunity" =
              .error ("immunity" ++ " must be a string value").toList := by
            rw [scalar, field]
          rw [wrong]
          constructor
          · intro same
            cases same
          · intro immune
            obtain ⟨spelled', text, same, -⟩ := immune.own _ has
            cases same
      | value spelled text =>
          rw [(scalar_eq_ok shaped).mpr ⟨spelled, has⟩]
          simp only
          have meaning : Immune entry fallback value ↔ ImmunityText text value := by
            constructor
            · intro immune
              obtain ⟨spelled', text', same, means⟩ := immune.own _ has
              cases same
              exact means
            · intro means
              refine ⟨fun child has' => ?_, fun absent => absurd has (absent _)⟩
              exact ⟨spelled, text, hasField_unique shaped has' has, means⟩
          rw [meaning, ← immunityText_iff]
          cases read : intFromChars text with
          | none => simp
          | some number =>
              simp only [Option.some_inj]
              by_cases negative : number < 0
              · simp [negative]
              · simp [negative]

/-! ## Groups -/

/-- A permission switched on. -/
def Grants (child : KeyValue) : Prop :=
  ∃ name, child = .value name ['1'] ∧ name ≠ [] ∧ validPermission name = true

/-- The permissions of an object, in the order of the text. -/
structure Listing (entry : KeyValue) (permissions : List Text) : Prop where
  listed : ∀ child, HasField entry "permissions".toList child →
    child.isObject = true ∧ (∀ permission ∈ child.children, Grants permission) ∧
      permissions = child.children.map KeyValue.name ∧ permissions.Nodup
  absent : (∀ child, ¬HasField entry "permissions".toList child) → permissions = []

theorem readPermission_eq_ok {entry : Text} {child : KeyValue} {permission : Text × Unit} :
    readPermission entry child = .ok permission ↔ permission = (child.name, ()) ∧ Grants child := by
  cases child with
  | object name children =>
      constructor
      · intro same
        cases same
      · intro ⟨_, spelled, same, _⟩
        cases same
  | value name value =>
      rw [readPermission]
      split
      · rename_i refused
        constructor
        · intro same
          cases same
        · intro ⟨_, spelled, same, filled, valid⟩
          cases same
          rcases refused with empty | invalid | other
          · exact absurd empty filled
          · rw [valid] at invalid
            cases invalid
          · exact absurd rfl other
      · rename_i accepted
        simp only [not_or, not_not, Bool.not_eq_false] at accepted
        obtain ⟨filled, valid, one⟩ := accepted
        subst one
        constructor
        · intro same
          injection same with same
          exact ⟨same.symm, name, rfl, filled, valid⟩
        · intro same
          rw [same.1]
          rfl

theorem forall₂_readPermission {entry : Text} :
    ∀ {children : List KeyValue} {permissions : List (Text × Unit)},
      List.Forall₂ (fun child permission => readPermission entry child = .ok permission) children
          permissions ↔
        permissions = children.map (fun child => (child.name, ())) ∧
          ∀ child ∈ children, Grants child := by
  intro children
  induction children with
  | nil =>
      intro permissions
      rw [List.forall₂_nil_left_iff]
      simp
  | cons child rest ih =>
      intro permissions
      rw [List.forall₂_cons_left_iff, List.map_cons, List.forall_mem_cons]
      constructor
      · intro ⟨permission, others, got, all_read, same⟩
        obtain ⟨others_eq, grants⟩ := ih.mp all_read
        obtain ⟨permission_eq, here⟩ := readPermission_eq_ok.mp got
        exact ⟨by rw [same, permission_eq, others_eq], here, grants⟩
      · intro ⟨same, here, grants⟩
        exact ⟨(child.name, ()), _, readPermission_eq_ok.mpr ⟨rfl, here⟩, ih.mpr ⟨rfl, grants⟩,
          same⟩

theorem map_names (children : List KeyValue) :
    (children.map fun child => (child.name, ())).map Prod.fst = children.map KeyValue.name := by
  rw [List.map_map]
  rfl

theorem listed_eq_ok {entry : KeyValue} {allowed : List Text} (shaped : Shaped entry allowed)
    {permissions : List Text} :
    listed entry.name (fieldsOf entry) = .ok permissions ↔ Listing entry permissions := by
  cases field : (fieldsOf entry).lookup "permissions".toList with
  | none =>
      have absent := no_field_iff.mp field
      rw [listed, field]
      constructor
      · intro same
        injection same with same
        exact ⟨fun child has => absurd has (absent child), fun _ => same.symm⟩
      · intro listing
        rw [listing.absent absent]
  | some child =>
      have has := (field_iff shaped).mp field
      rw [listed, field]
      cases child with
      | value spelled text =>
          constructor
          · intro same
            cases same
          · intro listing
            exact absurd (listing.listed _ has).1 Bool.false_ne_true
      | object spelled children =>
          simp only
          constructor
          · intro loaded
            cases load : Loading.load (readPermission entry.name) (repeatedPermission entry.name)
                none children.items with
            | error e => simp [load, Except.map] at loaded
            | ok table =>
                rw [load] at loaded
                have same : table.map Prod.fst = permissions := Except.ok.inj loaded
                obtain ⟨all_read, sound⟩ := Loading.load_eq_ok.mp load
                obtain ⟨table_eq, grants⟩ := forall₂_readPermission.mp all_read
                have once := sound.nodup
                rw [same] at once
                rw [table_eq, map_names] at same
                refine ⟨fun child has' => ?_, fun absent => absurd has (absent _)⟩
                rw [hasField_unique shaped has' has]
                exact ⟨rfl, grants, same.symm, once⟩
          · intro listing
            obtain ⟨-, grants, names, once⟩ := listing.listed _ has
            have sound : Loading.Sound (none : Option (Nat × Text))
                (children.items.map fun child => (child.name, ())) := by
              refine ⟨?_, fun _ _ limited => nomatch limited⟩
              rw [map_names]
              exact names ▸ once
            have load : Loading.load (readPermission entry.name) (repeatedPermission entry.name)
                none children.items = .ok (children.items.map fun child => (child.name, ())) :=
              Loading.load_eq_ok.mpr ⟨forall₂_readPermission.mpr ⟨rfl, grants⟩, sound⟩
            rw [load, Except.map, map_names]
            exact congrArg Except.ok names.symm

def groupFields : List Text := ["immunity".toList, "permissions".toList]

/-- What an entry of the group file stands for. -/
structure GroupMeans (entry : KeyValue) (group : Group) : Prop where
  named : entry.name ≠ [] ∧ entry.name.length ≤ 64 ∧ printable (lower entry.name) = true
  shaped : Shaped entry groupFields
  name : group.name = entry.name
  immunity : Immune entry 0 group.immunity
  permissions : Listing entry group.permissions
  root : group.root = true ↔ lower entry.name = "root".toList

theorem lower_length (text : Text) : (lower text).length = text.length := List.length_map ..

theorem lower_eq_nil {text : Text} : lower text = [] ↔ text = [] := List.map_eq_nil_iff

theorem readGroup_eq_ok {entry : KeyValue} {key : Text} {group : Group} :
    readGroup entry = .ok (key, group) ↔ key = lower entry.name ∧ GroupMeans entry group := by
  unfold readGroup
  simp only
  constructor
  · intro read
    split at read
    · cases read
    · rename_i accepted
      simp only [not_or, not_lt, Bool.not_eq_false] at accepted
      obtain ⟨filled, short, clean⟩ := accepted
      rw [lower_length] at short
      cases props : properties entry ["immunity".toList, "permissions".toList] with
      | error e =>
          rw [props] at read
          cases read
      | ok fields =>
          obtain ⟨shaped, rfl⟩ := properties_eq_ok.mp props
          rw [props] at read
          simp only at read
          cases immune : immunityValue (fieldsOf entry) 0 with
          | error e =>
              rw [immune] at read
              cases read
          | ok immunity =>
              rw [immune] at read
              simp only at read
              cases lists : listed entry.name (fieldsOf entry) with
              | error e =>
                  rw [lists] at read
                  cases read
              | ok permissions =>
                  rw [lists] at read
                  injection read with same
                  injection same with key_eq group_eq
                  subst key_eq group_eq
                  exact ⟨rfl, ⟨fun empty => filled (lower_eq_nil.mpr empty), short, clean⟩, shaped,
                    rfl, (immunityValue_eq_ok shaped).mp immune, (listed_eq_ok shaped).mp lists,
                    decide_eq_true_iff⟩
  · intro ⟨key_eq, means⟩
    obtain ⟨⟨filled, short, clean⟩, shaped, name, immunity, permissions, root⟩ := means
    have accepted : ¬(lower entry.name = [] ∨ 64 < (lower entry.name).length ∨
        printable (lower entry.name) = false) := by
      rw [lower_length, lower_eq_nil, clean]
      simp [filled, short]
    have props : properties entry ["immunity".toList, "permissions".toList] =
        .ok (fieldsOf entry) := properties_eq_ok.mpr ⟨shaped, rfl⟩
    rw [if_neg accepted, props]
    simp only
    rw [(immunityValue_eq_ok shaped).mpr immunity]
    simp only
    rw [(listed_eq_ok shaped).mpr permissions]
    have root_eq : group.root = decide (lower entry.name = "root".toList) := by
      rw [Bool.eq_iff_iff, decide_eq_true_iff]
      exact root
    rw [key_eq, ← root_eq, ← name]

/-- Entries of the group file that can stand together. -/
structure GroupsFit (entries : List KeyValue) : Prop where
  each : ∀ entry ∈ entries, ∃ group, GroupMeans entry group
  names : (entries.map fun entry => lower entry.name).Nodup
  count : entries.length ≤ 128

/-- The group of this name up to case. -/
def GroupNamed (entries : List KeyValue) (name : Text) (group : Group) : Prop :=
  ∃ entry ∈ entries, lower entry.name = lower name ∧ GroupMeans entry group

theorem forall₂_readGroup {entries : List KeyValue} {groups : Groups}
    (all_read : List.Forall₂ (fun entry group => readGroup entry = .ok group) entries groups) :
    groups.map Prod.fst = entries.map (fun entry => lower entry.name) ∧
      (∀ entry ∈ entries, ∃ group, GroupMeans entry group) ∧
      ∀ key group, (key, group) ∈ groups ↔
        ∃ entry ∈ entries, lower entry.name = key ∧ GroupMeans entry group := by
  induction all_read with
  | nil => simp
  | cons got others ih =>
      rename_i entry pair rest table
      obtain ⟨key, group⟩ := pair
      obtain ⟨key_eq, means⟩ := readGroup_eq_ok.mp got
      obtain ⟨names, each, members⟩ := ih
      refine ⟨by rw [List.map_cons, List.map_cons, names, key_eq],
        List.forall_mem_cons.mpr ⟨⟨group, means⟩, each⟩, ?_⟩
      intro key' group'
      rw [List.mem_cons, members]
      constructor
      · rintro (same | ⟨entry', member, named, means'⟩)
        · cases same
          exact ⟨entry, List.mem_cons_self .., key_eq.symm, means⟩
        · exact ⟨entry', List.mem_cons_of_mem _ member, named, means'⟩
      · rintro ⟨entry', member, named, means'⟩
        rcases List.mem_cons.mp member with same | later
        · subst same
          have again := readGroup_eq_ok.mpr ⟨named.symm, means'⟩
          rw [got] at again
          exact Or.inl (Except.ok.inj again).symm
        · exact Or.inr ⟨entry', later, named, means'⟩

theorem forall₂_of_forall_exists {α β : Type} {r : α → β → Prop} :
    ∀ {l : List α}, (∀ a ∈ l, ∃ b, r a b) → ∃ m, List.Forall₂ r l m := by
  intro l
  induction l with
  | nil => exact fun _ => ⟨[], List.Forall₂.nil⟩
  | cons a rest ih =>
      intro each
      obtain ⟨here, later⟩ := List.forall_mem_cons.mp each
      obtain ⟨b, related⟩ := here
      obtain ⟨m, others⟩ := ih later
      exact ⟨b :: m, List.Forall₂.cons related others⟩

/-- The groups load exactly when they fit, and are then found by their names. -/
theorem readGroups_eq_ok {entries : List KeyValue} :
    (∃ groups, readGroups entries = .ok groups) ↔ GroupsFit entries := by
  constructor
  · intro ⟨groups, loaded⟩
    obtain ⟨all_read, sound⟩ := Loading.load_eq_ok.mp loaded
    obtain ⟨names, each, -⟩ := forall₂_readGroup all_read
    refine ⟨each, names ▸ sound.nodup, ?_⟩
    rw [all_read.length_eq]
    exact sound.short _ _ rfl
  · intro fit
    have readable : ∀ entry ∈ entries, ∃ group, readGroup entry = .ok group := by
      intro entry member
      obtain ⟨group, means⟩ := fit.each entry member
      exact ⟨(lower entry.name, group), readGroup_eq_ok.mpr ⟨rfl, means⟩⟩
    obtain ⟨groups, all_read⟩ := forall₂_of_forall_exists readable
    have names := (forall₂_readGroup all_read).1
    refine ⟨groups, Loading.load_eq_ok.mpr ⟨all_read, names.symm ▸ fit.names, ?_⟩⟩
    intro most full limited
    cases limited
    rw [← all_read.length_eq]
    exact fit.count

theorem lookup_groups {entries : List KeyValue} {groups : Groups}
    (loaded : readGroups entries = .ok groups) {name : Text} {group : Group} :
    groups.lookup (lower name) = some group ↔ GroupNamed entries name group := by
  obtain ⟨all_read, sound⟩ := Loading.load_eq_ok.mp loaded
  rw [Loading.lookup_eq_some sound.nodup]
  exact (forall₂_readGroup all_read).2.2 (lower name) group

/-! ## Administrators -/

def adminFields : List Text := ["identity".toList, "group".toList, "immunity".toList]

/-- The account an entry is for. -/
def Account (entry : KeyValue) (id : Nat) : Prop :=
  ∃ text, HasValue entry "identity".toList text ∧ Denotes text id ∧ validSteamIdentity id = true

/-- The group an entry names. -/
def MemberOf (groups : List KeyValue) (entry : KeyValue) (group : Group) : Prop :=
  ∃ name, HasValue entry "group".toList name ∧ GroupNamed groups name group

/-- What an entry of the administrator file stands for. -/
structure AdminMeans (groups : List KeyValue) (entry : KeyValue) (id : Nat) (admin : Admin) :
    Prop where
  label : entry.name.length ≤ 128 ∧ printable entry.name = true ∧ admin.label = entry.name
  shaped : Shaped entry adminFields
  account : Account entry id
  member : ∃ group, MemberOf groups entry group ∧ admin.group = group.name ∧
    admin.permissions = group.permissions ∧ admin.root = group.root ∧
    Immune entry group.immunity admin.immunity

theorem hasValue_unique {entry : KeyValue} {allowed : List Text} (shaped : Shaped entry allowed)
    {name text other : Text} (has : HasValue entry name text) (has' : HasValue entry name other) :
    text = other := by
  obtain ⟨spelled, has⟩ := has
  obtain ⟨spelled', has'⟩ := has'
  have same := hasField_unique shaped has has'
  cases same
  rfl

theorem readAdmin_eq_ok {entries : List KeyValue} {groups : Groups}
    (loaded : readGroups entries = .ok groups) {entry : KeyValue} {id : Nat} {admin : Admin} :
    readAdmin groups entry = .ok (id, admin) ↔ AdminMeans entries entry id admin := by
  unfold readAdmin
  constructor
  · intro read
    split at read
    · cases read
    · rename_i accepted
      simp only [not_or, not_lt, Bool.not_eq_false] at accepted
      cases props : properties entry ["identity".toList, "group".toList, "immunity".toList] with
      | error e =>
          rw [props] at read
          cases read
      | ok fields =>
          obtain ⟨shaped, rfl⟩ := properties_eq_ok.mp props
          rw [props] at read
          simp only at read
          cases identity_field : scalar (fieldsOf entry) "identity" with
          | error e =>
              rw [identity_field] at read
              cases read
          | ok text =>
              rw [identity_field] at read
              simp only at read
              cases parsed : parseSteamIdentity text with
              | error e =>
                  rw [parsed] at read
                  cases read
              | ok identity =>
                  rw [parsed] at read
                  simp only at read
                  cases group_field : scalar (fieldsOf entry) "group" with
                  | error e =>
                      rw [group_field] at read
                      cases read
                  | ok name =>
                      rw [group_field] at read
                      simp only at read
                      cases found : groups.lookup (lower name) with
                      | none =>
                          rw [found] at read
                          cases read
                      | some group =>
                          rw [found] at read
                          simp only at read
                          cases immune : immunityValue (fieldsOf entry) group.immunity with
                          | error e =>
                              rw [immune] at read
                              cases read
                          | ok immunity =>
                              rw [immune] at read
                              injection read with same
                              injection same with id_eq admin_eq
                              subst id_eq admin_eq
                              exact ⟨⟨accepted.1, accepted.2, rfl⟩, shaped,
                                ⟨text, (scalar_eq_ok shaped).mp identity_field,
                                  SteamId.parse_iff.mp parsed⟩,
                                group, ⟨name, (scalar_eq_ok shaped).mp group_field,
                                  (lookup_groups loaded).mp found⟩, rfl, rfl, rfl,
                                (immunityValue_eq_ok shaped).mp immune⟩
  · intro means
    obtain ⟨⟨short, clean, label⟩, shaped, ⟨text, identity, denotes⟩, group, ⟨name, names, found⟩,
      group_eq, permissions_eq, root_eq, immune⟩ := means
    have accepted : ¬(128 < entry.name.length ∨ printable entry.name = false) := by
      rw [clean]
      simp [short]
    have props : properties entry ["identity".toList, "group".toList, "immunity".toList] =
        .ok (fieldsOf entry) := properties_eq_ok.mpr ⟨shaped, rfl⟩
    have identity_field : scalar (fieldsOf entry) "identity" = .ok text :=
      (scalar_eq_ok shaped).mpr identity
    have group_field : scalar (fieldsOf entry) "group" = .ok name := (scalar_eq_ok shaped).mpr names
    rw [if_neg accepted, props]
    simp only
    rw [identity_field]
    simp only
    rw [SteamId.parse_iff.mpr denotes]
    simp only
    rw [group_field]
    simp only
    rw [(lookup_groups loaded).mpr found]
    simp only
    rw [(immunityValue_eq_ok shaped).mpr immune]
    simp only
    rw [← label, ← group_eq, ← permissions_eq, ← root_eq]

/-- What the entries of the two files define: groups that fit, and each
administrator entry in its turn, no account twice. -/
structure Defines (groups admins : List KeyValue) (table : Table) : Prop where
  fit : GroupsFit groups
  entries : List.Forall₂ (fun entry row => AdminMeans groups entry row.1 row.2) admins table
  accounts : (table.map Prod.fst).Nodup
  count : admins.length ≤ 4096

theorem forall₂_readAdmin {entries : List KeyValue} {groups : Groups}
    (loaded : readGroups entries = .ok groups) {admins : List KeyValue} {table : Table} :
    List.Forall₂ (fun entry row => readAdmin groups entry = .ok row) admins table ↔
      List.Forall₂ (fun entry row => AdminMeans entries entry row.1 row.2) admins table := by
  have same : (fun (entry : KeyValue) (row : Nat × Admin) => readAdmin groups entry = .ok row) =
      fun entry row => AdminMeans entries entry row.1 row.2 := by
    funext entry row
    exact propext (readAdmin_eq_ok loaded)
  rw [same]

theorem readAdmins_eq_ok {entries : List KeyValue} {groups : Groups}
    (loaded : readGroups entries = .ok groups) {admins : List KeyValue} {table : Table} :
    readAdmins groups admins = .ok table ↔ Defines entries admins table := by
  unfold readAdmins
  rw [Loading.load_eq_ok, forall₂_readAdmin loaded]
  constructor
  · intro ⟨meanings, sound⟩
    refine ⟨readGroups_eq_ok.mp ⟨groups, loaded⟩, meanings, sound.nodup, ?_⟩
    rw [meanings.length_eq]
    exact sound.short _ _ rfl
  · intro defines
    refine ⟨defines.entries, defines.accounts, ?_⟩
    intro most full limited
    cases limited
    rw [← defines.entries.length_eq]
    exact defines.count

end Source2Root.Admins
