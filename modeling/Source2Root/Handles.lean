import Mathlib

/-!
# The handle table

`sr::Handles`: a table of typed values owned by scripts.  A handle packs the
number of a table slot and the slot's generation into one signed 32-bit integer;
a slot is used again, with the next generation, until its generations run out.
What a value does when it is destroyed is not the table's: `remove` and `retire`
hand the detached values out, and whoever calls them destroys them.
-/

set_option autoImplicit false

namespace Source2Root

/-- `Handles::Id`, a signed 32-bit integer. -/
abbrev HandleId := BitVec 32

structure Entry (V : Type) where
  generation : Nat
  type : Nat
  owner : Nat
  value : V
deriving DecidableEq, Repr

variable {V : Type}

namespace Handles

def MaxGeneration : Nat := (1 <<< 19) - 1

/-- The number of slots that twelve bits can name. -/
def MaxSlots : Nat := 4095

end Handles

/-- A slot in the table has been handed out at least once; a free one has
neither an owner nor a type. -/
structure Entry.Sound (e : Entry V) : Prop where
  started : 1 ≤ e.generation
  bounded : e.generation ≤ Handles.MaxGeneration
  free : e.owner = 0 ↔ e.type = 0

structure Handles (V : Type) where
  entries : List (Entry V) := []
  short : entries.length ≤ Handles.MaxSlots := by simp
  sound : ∀ e ∈ entries, e.Sound := by simp

namespace Handles

inductive Refusal where
  | invalidOwner
  | exhausted
  | invalidHandle
  | staleForeignOrWrongType
deriving DecidableEq, Repr

def Refusal.message : Refusal → String
  | .invalidOwner => "invalid handle owner/type"
  | .exhausted => "handle capacity exhausted"
  | .invalidHandle => "invalid handle"
  | .staleForeignOrWrongType => "stale, foreign or wrong-type handle"

/-- `static_cast<Id>((generation << 12) | slot)`. -/
def pack (generation slot : Nat) : HandleId :=
  BitVec.ofNat 32 ((generation <<< 12) % 2 ^ 32 ||| slot)

def Entry.reusable (e : Entry V) : Bool := e.owner == 0 && e.generation != MaxGeneration

def Entry.reuse (owner type : Nat) (value : V) (e : Entry V) : Entry V :=
  { generation := e.generation + 1, type, owner, value }

/-- The slot is free and its value destroyed by somebody else. -/
def Entry.detach [Inhabited V] (e : Entry V) : Entry V :=
  { e with owner := 0, type := 0, value := default }

theorem Entry.detach_sound [Inhabited V] {e : Entry V} (sound : e.Sound) :
    (Entry.detach e).Sound :=
  ⟨sound.started, sound.bounded, Iff.rfl⟩

theorem sound_modify {entries : List (Entry V)} (sound : ∀ e ∈ entries, e.Sound) {i : Nat}
    {f : Entry V → Entry V} (good : ∀ e, entries[i]? = some e → (f e).Sound) :
    ∀ e ∈ entries.modify i f, e.Sound := by
  intro e member
  obtain ⟨j, at_⟩ := List.mem_iff_getElem?.mp member
  rw [List.getElem?_modify] at at_
  obtain ⟨before, there, same⟩ := Option.map_eq_some_iff.mp at_
  by_cases here : i = j
  · rw [if_pos here] at same
    subst here
    exact same ▸ good before there
  · rw [if_neg here] at same
    exact same ▸ sound before (List.mem_of_getElem? there)

theorem reuse_sound {entries : List (Entry V)} (sound : ∀ e ∈ entries, e.Sound) {i : Nat}
    (found : entries.findIdx? Entry.reusable = some i) {owner type : Nat} (value : V)
    (valid : ¬ (owner = 0 ∨ type = 0)) :
    ∀ e ∈ entries.modify i (Entry.reuse owner type value), e.Sound := by
  apply sound_modify sound
  intro e at_
  obtain ⟨inside, reusable, -⟩ := List.findIdx?_eq_some_iff_getElem.mp found
  obtain ⟨_, same⟩ := List.getElem?_eq_some_iff.mp at_
  rw [same] at reusable
  have was := sound e (List.mem_of_getElem? at_)
  have left : e.generation ≠ MaxGeneration := by simpa [Entry.reusable] using
    (Bool.and_eq_true_iff.mp reusable).2
  have bounded := was.bounded
  refine ⟨by simp [Entry.reuse], by simp only [Entry.reuse]; omega, ?_⟩
  simp only [Entry.reuse]
  constructor
  · exact fun zero => absurd (Or.inl zero) valid
  · exact fun zero => absurd (Or.inr zero) valid

theorem one_le_maxGeneration : 1 ≤ MaxGeneration := by decide

theorem push_sound {entries : List (Entry V)} (sound : ∀ e ∈ entries, e.Sound) {owner type : Nat}
    (value : V) (valid : ¬ (owner = 0 ∨ type = 0)) :
    ∀ e ∈ entries ++ [{ generation := 1, type, owner, value }], e.Sound := by
  intro e member
  rcases List.mem_append.mp member with old | new
  · exact sound e old
  · rw [List.mem_singleton.mp new]
    refine ⟨le_refl 1, one_le_maxGeneration, ?_⟩
    constructor
    · exact fun zero => absurd (Or.inl zero) valid
    · exact fun zero => absurd (Or.inr zero) valid

/-- `Add`: the first free slot with a generation left, or a new one. -/
def add (t : Handles V) (owner type : Nat) (value : V) : Except Refusal (HandleId × Handles V) :=
  if invalid : owner = 0 ∨ type = 0 then .error .invalidOwner
  else
    match found : t.entries.findIdx? Entry.reusable with
    | some i =>
        .ok (pack ((t.entries[i]?.map Entry.generation).getD 0 + 1) (i + 1),
          { entries := t.entries.modify i (Entry.reuse owner type value)
            short := by simpa using t.short
            sound := reuse_sound t.sound found value invalid })
    | none =>
        if full : t.entries.length ≥ MaxSlots then .error .exhausted
        else
          .ok (pack 1 (t.entries.length + 1),
            { entries := t.entries ++ [{ generation := 1, type, owner, value }]
              short := by simp only [List.length_append, List.length_singleton]; omega
              sound := push_sound t.sound value invalid })

/-- `Check`: the index of the entry in the table, and the entry. -/
def check (t : Handles V) (id : HandleId) (owner type : Nat) : Except Refusal (Nat × Entry V) :=
  let raw := id.toNat
  let slot := raw &&& 4095
  if id.toInt ≤ 0 ∨ slot = 0 then .error .invalidHandle
  else
    match t.entries[slot - 1]? with
    | none => .error .invalidHandle
    | some entry =>
        if owner = 0 ∨ entry.owner ≠ owner ∨ entry.type ≠ type ∨ entry.generation ≠ raw >>> 12 then
          .error .staleForeignOrWrongType
        else .ok (slot - 1, entry)

def get (t : Handles V) (id : HandleId) (owner type : Nat) : Except Refusal V := do
  let (_, entry) ← t.check id owner type
  return entry.value

def contains (t : Handles V) (id : HandleId) (owner type : Nat) : Bool :=
  match t.check id owner type with
  | .ok _ => true
  | .error _ => false

/-- The table without the entry, which is detached before anybody else runs. -/
def detachAt [Inhabited V] (t : Handles V) (i : Nat) : Handles V where
  entries := t.entries.modify i Entry.detach
  short := by simpa using t.short
  sound := sound_modify t.sound fun e at_ =>
    Entry.detach_sound (t.sound e (List.mem_of_getElem? at_))

/-- `Remove`, up to the destruction of the value. -/
def remove [Inhabited V] (t : Handles V) (id : HandleId) (owner type : Nat) :
    Except Refusal (V × Handles V) := do
  let (i, entry) ← t.check id owner type
  return (entry.value, t.detachAt i)

def Entry.ownedBy (owner type : Nat) (e : Entry V) : Bool :=
  e.owner == owner && (type == 0 || type == e.type)

/-- `Owned`; type zero is every type. -/
def owned (t : Handles V) (owner type : Nat) : List HandleId :=
  if owner = 0 then []
  else t.entries.zipIdx.filterMap fun (entry, i) =>
    if Entry.ownedBy owner type entry then some (pack entry.generation (i + 1)) else none

/-- `Retire`, up to the destruction of the values: every selected entry is
detached before the first of them. -/
def retire [Inhabited V] (t : Handles V) (owner type : Nat) : List V × Handles V :=
  ((t.entries.filter (Entry.ownedBy owner type)).map Entry.value,
    { entries := t.entries.map fun entry =>
        if Entry.ownedBy owner type entry then Entry.detach entry else entry
      short := by simpa using t.short
      sound := by
        intro e member
        obtain ⟨before, there, rfl⟩ := List.mem_map.mp member
        split
        · exact Entry.detach_sound (t.sound before there)
        · exact t.sound before there })

def count (t : Handles V) : Nat := (t.entries.filter fun entry => entry.owner != 0).length

end Handles

end Source2Root
