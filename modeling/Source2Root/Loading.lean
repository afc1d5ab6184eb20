import Mathlib

/-!
# Filling a table from a list

A loop reads each item of a list as a key with a value, refuses a key that is
there already and may keep the table to a limit.  It succeeds exactly when each
item can be read, no key comes twice and the limit is kept; the table is then
the list of what was read.
-/

set_option autoImplicit false

namespace Loading

variable {Item K V E : Type} [DecidableEq K]

/-- `std::map::emplace`: no table, if the key is there. -/
def emplace (table : List (K × V)) (key : K) (value : V) : Option (List (K × V)) :=
  if key ∈ table.map Prod.fst then none else some (table ++ [(key, value)])

/-- One round.  The limit comes with the error of a table that outgrows it. -/
def add (read : Item → Except E (K × V)) (repeated : Item → K → E) (limit : Option (Nat × E))
    (table : List (K × V)) (item : Item) : Except E (List (K × V)) :=
  match read item with
  | .error e => .error e
  | .ok (key, value) =>
      match emplace table key value with
      | none => .error (repeated item key)
      | some grown =>
          match limit with
          | none => .ok grown
          | some (most, full) => if most < grown.length then .error full else .ok grown

def load (read : Item → Except E (K × V)) (repeated : Item → K → E) (limit : Option (Nat × E))
    (items : List Item) : Except E (List (K × V)) :=
  items.foldlM (add read repeated limit) []

/-- A table without repeated keys that keeps to the limit. -/
structure Sound (limit : Option (Nat × E)) (table : List (K × V)) : Prop where
  nodup : (table.map Prod.fst).Nodup
  short : ∀ most full, limit = some (most, full) → table.length ≤ most

omit [DecidableEq K] in
theorem Sound.empty (limit : Option (Nat × E)) : Sound limit ([] : List (K × V)) where
  nodup := List.nodup_nil
  short := fun _ _ _ => Nat.zero_le _

omit [DecidableEq K] in
theorem Sound.init {limit : Option (Nat × E)} {table rest : List (K × V)}
    (sound : Sound limit (table ++ rest)) : Sound limit table where
  nodup := by
    have whole := sound.nodup
    rw [List.map_append] at whole
    exact whole.of_append_left
  short := by
    intro most full limited
    have whole := sound.short most full limited
    rw [List.length_append] at whole
    omega

theorem add_eq_ok {read : Item → Except E (K × V)} {repeated : Item → K → E}
    {limit : Option (Nat × E)} {table grown : List (K × V)} {item : Item}
    (sound : Sound limit table) :
    add read repeated limit table item = .ok grown ↔
      ∃ entry, read item = .ok entry ∧ grown = table ++ [entry] ∧ Sound limit grown := by
  have fresh_iff : ∀ entry : K × V, (table.map Prod.fst ++ [entry.1]).Nodup ↔
      entry.1 ∉ table.map Prod.fst := by
    intro entry
    rw [List.nodup_append_comm, List.singleton_append, List.nodup_cons]
    exact and_iff_left sound.nodup
  unfold add emplace
  constructor
  · intro added
    cases got : read item with
    | error e => simp [got] at added
    | ok entry =>
        obtain ⟨key, value⟩ := entry
        rw [got] at added
        simp only at added
        by_cases there : key ∈ table.map Prod.fst
        · rw [if_pos there] at added
          cases added
        · rw [if_neg there] at added
          simp only at added
          have nodup : ((table ++ [(key, value)]).map Prod.fst).Nodup := by
            rw [List.map_append]
            exact (fresh_iff (key, value)).mpr there
          cases limit with
          | none =>
              injection added with same
              exact ⟨(key, value), rfl, same.symm, same ▸ nodup, fun _ _ limited => nomatch limited⟩
          | some bound =>
              obtain ⟨most, full⟩ := bound
              simp only at added
              split at added
              · cases added
              · rename_i short
                injection added with same
                refine ⟨(key, value), rfl, same.symm, same ▸ nodup, ?_⟩
                intro most' full' limited
                cases limited
                exact same ▸ not_lt.mp short
  · intro ⟨entry, got, same, kept⟩
    obtain ⟨key, value⟩ := entry
    rw [got]
    simp only
    have fresh : key ∉ table.map Prod.fst := by
      have nodup := kept.nodup
      rw [same, List.map_append] at nodup
      exact (fresh_iff (key, value)).mp nodup
    rw [if_neg fresh]
    cases limit with
    | none => exact congrArg Except.ok same.symm
    | some bound =>
        obtain ⟨most, full⟩ := bound
        have short := kept.short most full rfl
        rw [same] at short
        simp only
        rw [if_neg (not_lt.mpr short), same]

theorem foldlM_add {read : Item → Except E (K × V)} {repeated : Item → K → E}
    {limit : Option (Nat × E)} {grown : List (K × V)} :
    ∀ {items : List Item} {table : List (K × V)}, Sound limit table →
      (items.foldlM (add read repeated limit) table = .ok grown ↔
        ∃ entries, List.Forall₂ (fun item entry => read item = .ok entry) items entries ∧
          grown = table ++ entries ∧ Sound limit grown) := by
  intro items
  induction items with
  | nil =>
      intro table sound
      constructor
      · intro done
        injection done with same
        subst same
        exact ⟨[], List.Forall₂.nil, (List.append_nil _).symm, sound⟩
      · intro ⟨entries, all_read, same, _⟩
        cases all_read
        rw [same, List.append_nil]
        rfl
  | cons item rest ih =>
      intro table sound
      rw [List.foldlM_cons]
      constructor
      · intro run
        cases added : add read repeated limit table item with
        | error e => simp [added, bind, Except.bind] at run
        | ok next =>
            rw [added] at run
            obtain ⟨entry, got, next_eq, kept⟩ := (add_eq_ok sound).mp added
            obtain ⟨entries, all_read, same, final⟩ := (ih kept).mp run
            refine ⟨entry :: entries, List.Forall₂.cons got all_read, ?_, final⟩
            rw [same, next_eq, List.append_assoc]
            rfl
      · intro ⟨entries, all_read, same, final⟩
        cases all_read with
        | cons got others =>
            rename_i entry entries
            have split_eq : table ++ entry :: entries = (table ++ [entry]) ++ entries := by simp
            rw [split_eq] at same
            have kept : Sound limit (table ++ [entry]) := Sound.init (same ▸ final)
            have added : add read repeated limit table item = .ok (table ++ [entry]) :=
              (add_eq_ok sound).mpr ⟨entry, got, rfl, kept⟩
            rw [added]
            exact (ih kept).mpr ⟨entries, others, same, final⟩

/-- A loaded table is what each item is read as. -/
theorem load_eq_ok {read : Item → Except E (K × V)} {repeated : Item → K → E}
    {limit : Option (Nat × E)} {items : List Item} {table : List (K × V)} :
    load read repeated limit items = .ok table ↔
      List.Forall₂ (fun item entry => read item = .ok entry) items table ∧ Sound limit table := by
  rw [load, foldlM_add (Sound.empty limit)]
  constructor
  · intro ⟨entries, all_read, same, sound⟩
    rw [List.nil_append] at same
    exact ⟨same ▸ all_read, sound⟩
  · intro ⟨all_read, sound⟩
    exact ⟨table, all_read, (List.nil_append _).symm, sound⟩

/-! ## Looking up -/

omit [DecidableEq K] in
theorem lookup_eq_some [BEq K] [LawfulBEq K] {key : K} {value : V} :
    ∀ {table : List (K × V)}, (table.map Prod.fst).Nodup →
      (table.lookup key = some value ↔ (key, value) ∈ table) := by
  intro table
  induction table with
  | nil => simp
  | cons entry rest ih =>
      intro nodup
      obtain ⟨head, here⟩ := entry
      rw [List.map_cons, List.nodup_cons] at nodup
      rw [List.lookup_cons, List.mem_cons, Prod.mk.injEq]
      by_cases same : key = head
      · subst same
        have gone : (key, value) ∉ rest := fun member =>
          nodup.1 (List.mem_map.mpr ⟨(key, value), member, rfl⟩)
        simp [gone, eq_comm]
      · rw [beq_eq_false_iff_ne.mpr same]
        simp [same, ih nodup.2]

omit [DecidableEq K] in
theorem lookup_eq_none [BEq K] [LawfulBEq K] {key : K} {table : List (K × V)} :
    table.lookup key = none ↔ key ∉ table.map Prod.fst := by
  rw [List.lookup_eq_none_iff]
  constructor
  · intro none_there member
    obtain ⟨entry, inside, same⟩ := List.mem_map.mp member
    exact absurd (none_there entry inside) (by simp [same])
  · intro absent entry inside
    rw [bne_iff_ne]
    intro same
    exact absent (List.mem_map.mpr ⟨entry, inside, same.symm⟩)

end Loading
