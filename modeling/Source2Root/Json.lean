import Mathlib

/-!
# JSON documents

The values of the JSON library the core links against.  A `std::string` is the
list of its bytes, a `Char` for each.  The parser meets the members of an object
in the order of the text (`repeated` is what its callback sees of a repeated
key); the document it leaves has every object as a map ordered by key (`value`,
`Canonical`).
-/

set_option autoImplicit false

namespace Source2Root

abbrev Text := List Char

theorem bind_eq_ok {ε α β : Type} {x : Except ε α} {f : α → Except ε β} {b : β} :
    (x >>= f) = .ok b ↔ ∃ a, x = .ok a ∧ f a = .ok b := by
  cases x with
  | error e => simp [bind, Except.bind]
  | ok a => simp [bind, Except.bind]

/-- The integers of a document are signed or unsigned 64-bit numbers. -/
abbrev JsonInteger := { n : Int // -2 ^ 63 ≤ n ∧ n < 2 ^ 64 }

/-- The bits of a double that is finite, as every number of a text is. -/
abbrev JsonDouble := { bits : BitVec 64 // bits.toNat / 2 ^ 52 % 2048 ≠ 2047 }

inductive Json where
  | null
  | boolean (b : Bool)
  | integer (n : JsonInteger)
  | float (bits : JsonDouble)
  | string (text : Text)
  | array (items : List Json)
  | object (members : List (Text × Json))
deriving Inhabited

namespace Json

abbrev Members := List (Text × Json)

/-! ## Objects as maps -/

/-- Assignment to the member of an ordered object. -/
def assign (key : Text) (json : Json) : Members → Members
  | [] => [(key, json)]
  | (k, other) :: rest =>
      if key < k then (key, json) :: (k, other) :: rest
      else if key = k then (key, json) :: rest
      else (k, other) :: assign key json rest

def find (key : Text) : Members → Option Json
  | [] => none
  | (k, json) :: rest => if key = k then some json else find key rest

/-- `at` with a key; on anything but an object, and without the member, it throws. -/
def member (key : Text) : Json → Option Json
  | .object members => find key members
  | .null | .boolean _ | .integer _ | .float _ | .string _ | .array _ => none

/-- Comparison with the number one, which `1.0` equals too. -/
def isOne : Json → Bool
  | .integer n => n.val == 1
  | .float bits => bits.val == 0x3ff0000000000000
  | .null | .boolean _ | .string _ | .array _ | .object _ => false

@[simp] theorem find_nil (key : Text) : find key [] = none := rfl

theorem find_cons (key k : Text) (json : Json) (rest : Members) :
    find key ((k, json) :: rest) = if key = k then some json else find key rest := rfl

@[simp] theorem find_assign_self (key : Text) (json : Json) (members : Members) :
    find key (assign key json members) = some json := by
  induction members with
  | nil => simp [assign, find]
  | cons m rest ih =>
      obtain ⟨k, other⟩ := m
      by_cases before : key < k
      · simp [assign, before, find]
      · by_cases same : key = k
        · simp [assign, same, find]
        · simp [assign, before, same, find, ih]

theorem find_assign_other {key other : Text} (different : other ≠ key) (json : Json)
    (members : Members) : find other (assign key json members) = find other members := by
  induction members with
  | nil => simp [assign, find, different]
  | cons m rest ih =>
      obtain ⟨k, was⟩ := m
      by_cases before : key < k
      · simp [assign, before, find, different]
      · by_cases same : key = k
        · subst same
          simp [assign, find, different]
        · simp [assign, before, same, find, ih]

theorem mem_assign {key : Text} {json : Json} {members : Members} {m : Text × Json}
    (inside : m ∈ assign key json members) : m = (key, json) ∨ m ∈ members := by
  induction members with
  | nil => simpa [assign] using inside
  | cons first rest ih =>
      obtain ⟨k, other⟩ := first
      by_cases before : key < k
      · simpa [assign, before] using inside
      · by_cases same : key = k
        · subst same
          simp only [assign, before, if_false, if_true, List.mem_cons] at inside
          exact inside.imp_right fun later => List.mem_cons_of_mem _ later
        · simp only [assign, before, same, if_false, List.mem_cons] at inside
          rcases inside with rfl | later
          · exact Or.inr (List.mem_cons_self ..)
          · exact (ih later).imp_right (List.mem_cons_of_mem _)

/-! ## Nesting and repeated keys -/

mutual

def depth : Json → Nat
  | .array items => depthItems items + 1
  | .object members => depthMembers members + 1
  | .null | .boolean _ | .integer _ | .float _ | .string _ => 0

def depthItems : List Json → Nat
  | [] => 0
  | json :: rest => max json.depth (depthItems rest)

def depthMembers : Members → Nat
  | [] => 0
  | m :: rest => max (depthMember m) (depthMembers rest)

def depthMember : Text × Json → Nat
  | (_, json) => json.depth

end

mutual

/-- The first key that an object of the document has twice. -/
def repeated : Json → Option Text
  | .array items => repeatedItems items
  | .object members => repeatedMembers [] members
  | .null | .boolean _ | .integer _ | .float _ | .string _ => none

def repeatedItems : List Json → Option Text
  | [] => none
  | json :: rest => json.repeated.or (repeatedItems rest)

def repeatedMembers (seen : List Text) : Members → Option Text
  | [] => none
  | m :: rest =>
      if m.1 ∈ seen then some m.1
      else (repeatedMember m).or (repeatedMembers (m.1 :: seen) rest)

def repeatedMember : Text × Json → Option Text
  | (_, json) => json.repeated

end

mutual

/-- The document: of a member that is there twice the last one stays. -/
def value : Json → Json
  | .array items => .array (valueItems items)
  | .object members => .object (valueMembers [] members)
  | .null => .null
  | .boolean b => .boolean b
  | .integer n => .integer n
  | .float bits => .float bits
  | .string text => .string text

def valueItems : List Json → List Json
  | [] => []
  | json :: rest => json.value :: valueItems rest

def valueMembers (done : Members) : Members → Members
  | [] => done
  | m :: rest => valueMembers (assign m.1 (valueMember m) done) rest

def valueMember : Text × Json → Json
  | (_, json) => json.value

end

/-! ## Documents in order -/

def Ordered (members : Members) : Prop := members.Pairwise fun m n => m.1 < n.1

mutual

/-- Every object of the document is ordered by key, each key once. -/
def Canonical : Json → Prop
  | .array items => CanonicalItems items
  | .object members => Ordered members ∧ CanonicalMembers members
  | .null | .boolean _ | .integer _ | .float _ | .string _ => True

def CanonicalItems : List Json → Prop
  | [] => True
  | json :: rest => json.Canonical ∧ CanonicalItems rest

def CanonicalMembers : Members → Prop
  | [] => True
  | m :: rest => CanonicalMember m ∧ CanonicalMembers rest

def CanonicalMember : Text × Json → Prop
  | (_, json) => json.Canonical

end

theorem canonicalItems_iff {items : List Json} :
    CanonicalItems items ↔ ∀ json ∈ items, json.Canonical := by
  induction items with
  | nil => simp [CanonicalItems]
  | cons json rest ih => simp [CanonicalItems, ih]

theorem canonicalMembers_iff {members : Members} :
    CanonicalMembers members ↔ ∀ m ∈ members, m.2.Canonical := by
  induction members with
  | nil => simp [CanonicalMembers]
  | cons m rest ih =>
      obtain ⟨key, json⟩ := m
      simp only [CanonicalMembers, CanonicalMember, ih, List.forall_mem_cons]

theorem depthItems_le {items : List Json} {n : Nat} :
    depthItems items ≤ n ↔ ∀ json ∈ items, json.depth ≤ n := by
  induction items with
  | nil => simp [depthItems]
  | cons json rest ih => simp [depthItems, ih]

theorem depthMembers_le {members : Members} {n : Nat} :
    depthMembers members ≤ n ↔ ∀ m ∈ members, m.2.depth ≤ n := by
  induction members with
  | nil => simp [depthMembers]
  | cons m rest ih =>
      obtain ⟨key, json⟩ := m
      simp only [depthMembers, depthMember, max_le_iff, ih, List.forall_mem_cons]

theorem ordered_assign {key : Text} {json : Json} {members : Members} (ordered : Ordered members) :
    Ordered (assign key json members) := by
  induction members with
  | nil => exact List.pairwise_singleton _ _
  | cons m rest ih =>
      obtain ⟨k, other⟩ := m
      obtain ⟨first, later⟩ := List.pairwise_cons.mp ordered
      by_cases before : key < k
      · have below : ∀ n ∈ (k, other) :: rest, key < n.1 := by
          intro n member
          rcases List.mem_cons.mp member with rfl | inside
          · exact before
          · exact lt_trans before (first n inside)
        rw [assign, if_pos before]
        exact List.pairwise_cons.mpr ⟨below, ordered⟩
      · by_cases same : key = k
        · subst same
          rw [assign, if_neg before, if_pos rfl]
          exact List.pairwise_cons.mpr ⟨first, later⟩
        · have above : k < key := lt_of_le_of_ne (not_lt.mp before) (Ne.symm same)
          have below : ∀ n ∈ assign key json rest, k < n.1 := by
            intro n member
            rcases mem_assign member with rfl | inside
            · exact above
            · exact first n inside
          rw [assign, if_neg before, if_neg same]
          exact List.pairwise_cons.mpr ⟨below, ih later⟩

/-- Assignment to a member of an ordered object of ordered parts. -/
theorem canonical_assign {key : Text} {json : Json} {members : Members}
    (canonical : (Json.object members).Canonical) (part : json.Canonical) :
    (Json.object (assign key json members)).Canonical := by
  obtain ⟨ordered, parts⟩ := canonical
  refine ⟨ordered_assign ordered, canonicalMembers_iff.mpr ?_⟩
  intro m member
  rcases mem_assign member with rfl | inside
  · exact part
  · exact canonicalMembers_iff.mp parts m inside

theorem depth_assign {key : Text} {json : Json} {members : Members} {n : Nat}
    (shallow : (Json.object members).depth ≤ n + 1) (part : json.depth ≤ n) :
    (Json.object (assign key json members)).depth ≤ n + 1 := by
  have parts : depthMembers members ≤ n := by simpa [depth] using shallow
  have after : depthMembers (assign key json members) ≤ n := by
    apply depthMembers_le.mpr
    intro m member
    rcases mem_assign member with rfl | inside
    · exact part
    · exact depthMembers_le.mp parts m inside
  simpa [depth] using after

theorem find_mem {key : Text} {members : Members} {json : Json}
    (found : find key members = some json) : (key, json) ∈ members := by
  induction members with
  | nil => cases found
  | cons m rest ih =>
      obtain ⟨k, other⟩ := m
      rw [find_cons] at found
      split at found
      · rename_i same
        cases found
        exact same ▸ List.mem_cons_self ..
      · exact List.mem_cons_of_mem _ (ih found)

/-! ## From the text to the document -/

/-- Assigning a key above all others puts it last. -/
theorem assign_last {key : Text} {json : Json} {members : Members}
    (above : ∀ m ∈ members, m.1 < key) : assign key json members = members ++ [(key, json)] := by
  induction members with
  | nil => rfl
  | cons m rest ih =>
      obtain ⟨k, other⟩ := m
      obtain ⟨here, later⟩ := List.forall_mem_cons.mp above
      have before : ¬ key < k := not_lt.mpr (le_of_lt here)
      have same : ¬ key = k := (ne_of_lt here).symm
      simp [assign, before, same, ih later]

mutual

theorem canonical_value : ∀ json : Json, json.value.Canonical
  | .array items => canonical_valueItems items
  | .object members => canonical_valueMembers members [] ⟨List.Pairwise.nil, trivial⟩
  | .null | .boolean _ | .integer _ | .float _ | .string _ => trivial

theorem canonical_valueItems : ∀ items : List Json, CanonicalItems (valueItems items)
  | [] => trivial
  | json :: rest => ⟨canonical_value json, canonical_valueItems rest⟩

theorem canonical_valueMembers : ∀ (members done : Members), (Json.object done).Canonical →
    (Json.object (valueMembers done members)).Canonical
  | [], _, canonical => canonical
  | m :: rest, _, canonical =>
      canonical_valueMembers rest _ (canonical_assign canonical (canonical_valueMember m))

theorem canonical_valueMember : ∀ m : Text × Json, (valueMember m).Canonical
  | (_, json) => canonical_value json

end

mutual

theorem depth_value : ∀ json : Json, json.value.depth ≤ json.depth
  | .array items => Nat.succ_le_succ (depth_valueItems items)
  | .object members => depth_valueMembers members [] _ (by simp [depth, depthMembers]) (le_refl _)
  | .null | .boolean _ | .integer _ | .float _ | .string _ => le_refl _

theorem depth_valueItems : ∀ items : List Json, depthItems (valueItems items) ≤ depthItems items
  | [] => le_refl _
  | json :: rest => max_le_max (depth_value json) (depth_valueItems rest)

theorem depth_valueMembers : ∀ (members done : Members) (n : Nat),
    (Json.object done).depth ≤ n + 1 → depthMembers members ≤ n →
      (Json.object (valueMembers done members)).depth ≤ n + 1
  | [], _, _, shallow, _ => shallow
  | m :: rest, _, n, shallow, bound =>
      have first : depthMember m ≤ n := (max_le_iff.mp bound).1
      depth_valueMembers rest _ n
        (depth_assign shallow ((depth_valueMember m).trans first)) (max_le_iff.mp bound).2

theorem depth_valueMember : ∀ m : Text × Json, (valueMember m).depth ≤ depthMember m
  | (_, json) => depth_value json

end

/-! An ordered document is its own value, and its parser meets no key twice. -/

mutual

theorem value_eq : ∀ json : Json, json.Canonical → json.value = json
  | .array items, canonical => congrArg Json.array (valueItems_eq items canonical)
  | .object members, canonical => congrArg Json.object (valueMembers_eq members [] canonical)
  | .null, _ | .boolean _, _ | .integer _, _ | .float _, _ | .string _, _ => rfl

theorem valueItems_eq : ∀ items : List Json, CanonicalItems items → valueItems items = items
  | [], _ => rfl
  | json :: rest, canonical =>
      congrArg₂ List.cons (value_eq json canonical.1) (valueItems_eq rest canonical.2)

theorem valueMembers_eq : ∀ (members done : Members), (Json.object (done ++ members)).Canonical →
    valueMembers done members = done ++ members
  | [], done, _ => (List.append_nil done).symm
  | m :: rest, done, canonical => by
      obtain ⟨ordered, parts⟩ := canonical
      have above : ∀ n ∈ done, n.1 < m.1 := fun n inside =>
        (List.pairwise_append.mp ordered).2.2 n inside m (List.mem_cons_self ..)
      have here := canonicalMembers_iff.mp parts m (by simp)
      have same : (m.1, valueMember m) = m := by rw [valueMember_eq m here]
      have regrouped : done ++ m :: rest = (done ++ [m]) ++ rest := by simp
      rw [valueMembers, assign_last above, same, valueMembers_eq rest, ← regrouped]
      rw [← regrouped]
      exact ⟨ordered, parts⟩

theorem valueMember_eq : ∀ m : Text × Json, m.2.Canonical → valueMember m = m.2
  | (_, json), canonical => value_eq json canonical

end

mutual

theorem repeated_eq : ∀ json : Json, json.Canonical → json.repeated = none
  | .array items, canonical => repeatedItems_eq items canonical
  | .object members, canonical =>
      repeatedMembers_eq members [] canonical.1 canonical.2 (by simp)
  | .null, _ | .boolean _, _ | .integer _, _ | .float _, _ | .string _, _ => rfl

theorem repeatedItems_eq : ∀ items : List Json, CanonicalItems items → repeatedItems items = none
  | [], _ => rfl
  | json :: rest, canonical => by
      rw [repeatedItems, repeated_eq json canonical.1, repeatedItems_eq rest canonical.2]
      rfl

theorem repeatedMembers_eq : ∀ (members : Members) (seen : List Text), Ordered members →
    CanonicalMembers members → (∀ m ∈ members, m.1 ∉ seen) → repeatedMembers seen members = none
  | [], _, _, _, _ => rfl
  | m :: rest, seen, ordered, canonical, fresh => by
      obtain ⟨below, later⟩ := List.pairwise_cons.mp ordered
      have other : ∀ n ∈ rest, n.1 ∉ m.1 :: seen := by
        intro n inside again
        rcases List.mem_cons.mp again with same | old
        · exact absurd same (ne_of_lt (below n inside)).symm
        · exact fresh n (List.mem_cons_of_mem _ inside) old
      rw [repeatedMembers, if_neg (fresh m (List.mem_cons_self ..)),
        repeatedMember_eq m canonical.1, repeatedMembers_eq rest _ later canonical.2 other]
      rfl

theorem repeatedMember_eq : ∀ m : Text × Json, CanonicalMember m → repeatedMember m = none
  | (_, json), canonical => repeated_eq json canonical

end

end Json

end Source2Root
