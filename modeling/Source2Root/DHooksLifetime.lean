import Source2Root.DHooks
import Source2Root.Tables

/-!
# No registration is lost and none is freed early

The invariant of the tables, the relation between a state in which foreign code
gets control and the one in which it gives control back, and from both what holds
in every reachable state.  Both are vacuous once an `overlap` has happened.
-/

set_option autoImplicit false

namespace Source2Root.DHooks

open Reentrant

/-! ## What an event may be preceded by -/

/-- The host holds a lease of the target. -/
def held (handle : Nat) : List Event → Bool
  | [] => false
  | .opened handle' :: older => handle' == handle || held handle older
  | .returned handle' _ :: older => handle' != handle && held handle older
  | .releasing _ _ :: older | .added _ _ :: older | .removed _ _ _ :: older
  | .dropped _ _ :: older | .dangling _ :: older => held handle older

/-- Every callback of the record that the host added was removed again. -/
def Cleared (r : Nat) (log : List Event) : Prop :=
  ∀ handle, .added r handle ∈ log → ∃ result, .removed r handle result ∈ log

def Event.justified (older : List Event) : Event → Prop
  | .opened handle => held handle older = false
  | .releasing handle users => users = 0 ∧ held handle older = true
  | .returned handle result => released result = true ∧ held handle older = true
  | .added _ _ => True
  | .removed r handle result => released result = true ∧ .added r handle ∈ older
  | .dropped r record =>
      record.closing = true ∧ record.active = 0 ∧ record.retires = 1 ∧ Cleared r older
  | .dangling _ => False

def Justified : List Event → Prop
  | [] => True
  | event :: older => event.justified older ∧ Justified older

/-! ## The invariant -/

/-- `registrations_` against the objects. -/
structure Table (registrations : List Nat) (records : Std.ExtTreeMap Nat Registration) :
    Prop where
  nodup : registrations.Nodup
  listed : ∀ r, r ∈ registrations ↔ ∃ record : Registration, records[r]? = some record ∧ record.listed = true

/-- The host's callbacks against the handles of the records. -/
structure Handles (records : Std.ExtTreeMap Nat Registration)
    (callbacks : Std.ExtTreeMap Nat Nat) : Prop where
  known : ∀ h r : Nat, callbacks[h]? = some r →
    h ≠ 0 ∧ ∃ record : Registration, records[r]? = some record ∧ record.handle = h
  given : ∀ (r : Nat) (record : Registration), records[r]? = some record → record.handle ≠ 0 →
    callbacks[record.handle]? = some r

structure Sane (record : Registration) : Prop where
  installing : record.installing = true →
    record.listed = true ∧ record.handle = 0 ∧ record.owned = true ∧ record.published = false
  active : record.active ≠ 0 → record.listed = true
  handle : record.handle ≠ 0 → record.listed = true ∧ record.published = true
  retires : record.retires = if record.closing then 1 else 0

/-- `targets_` against what the host holds. -/
structure Targets (targets : List Nat) (data : Std.ExtTreeMap Nat TargetData)
    (leases : List Nat) : Prop where
  nodup : targets.Nodup
  known : ∀ t ∈ targets, ∃ target : TargetData, data[t]? = some target ∧ target.handle ∈ leases
  leased : ∀ h ∈ leases, ∃ t ∈ targets, ∃ target : TargetData, data[t]? = some target ∧ target.handle = h
  distinct : ∀ t ∈ targets, ∀ t' ∈ targets, ∀ target target' : TargetData, data[t]? = some target →
    data[t']? = some target' → target.handle = target'.handle → t = t'

/-- Every target that is used is in the table. -/
structure Used (targets : List Nat) (records : Std.ExtTreeMap Nat Registration)
    (opened : Std.ExtTreeMap Nat Target) (calls : Std.ExtTreeMap Nat Nat) : Prop where
  records : ∀ (r : Nat) (record : Registration), records[r]? = some record → record.target ∈ targets
  opened : ∀ (o : Nat) (target : Target), opened[o]? = some target → target.data ∈ targets
  calls : ∀ c t : Nat, calls[c]? = some t → t ∈ targets

/-- Names from `next` on are free. -/
structure Fresh (s : State) : Prop where
  next : 0 < s.next
  records : ∀ r ∈ s.records, r < s.next
  callbacks : ∀ h ∈ s.callbacks, h < s.next
  opened : ∀ o ∈ s.opened, o < s.next
  calls : ∀ c ∈ s.calls, c < s.next
  data : ∀ t ∈ s.data, t < s.next

structure Logged (records : Std.ExtTreeMap Nat Registration) (leases : List Nat)
    (log : List Event) : Prop where
  justified : Justified log
  held : ∀ handle, handle ∈ leases ↔ held handle log = true
  added : ∀ r handle, .added r handle ∈ log → handle ≠ 0 ∧
    ((∃ result, .removed r handle result ∈ log) ∨
      ∃ record : Registration, records[r]? = some record ∧ record.handle = handle)
  given : ∀ (r : Nat) (record : Registration), records[r]? = some record → record.handle ≠ 0 →
    .added r record.handle ∈ log

structure Good (s : State) : Prop where
  table : Table s.registrations s.records
  handles : Handles s.records s.callbacks
  sane : ∀ (r : Nat) (record : Registration), s.records[r]? = some record → Sane record
  targets : Targets s.targets s.data s.leases
  used : Used s.targets s.records s.opened s.calls
  fresh : Fresh s
  logged : Logged s.records s.leases s.log
  keepalive : s.targets ≠ [] → s.keepalive = true
  releasing : s.releasing ≠ none → s.collecting = true

/-! ## What foreign code leaves as it is -/

/-- A record that some frame relies on: a dispatch is in it, its `Attach` has not
returned it yet, or the tables are being scanned. -/
def Held (collecting : Bool) (record : Registration) : Prop :=
  record.active ≠ 0 ∨ (record.owned = true ∧ record.published = false) ∨
    (collecting = true ∧ record.listed = true)

structure Kept (collecting : Bool) (record record' : Registration) : Prop where
  active : record'.active = record.active
  target : record'.target = record.target
  closing : record.closing = true → record'.closing = true
  listed : record.active ≠ 0 ∨ collecting = true → record'.listed = record.listed
  scanned : collecting = true → record'.handle = record.handle
  unpublished : record.owned = true ∧ record.published = false →
    record'.owned = true ∧ record'.published = false ∧
      record'.installing = record.installing ∧ record'.handle = record.handle

/-- Nothing but the table refers to the target. -/
structure Idle (t : Nat) (s : State) : Prop where
  opened : ∀ (o : Nat) (target : Target), s.opened[o]? = some target → target.data ≠ t
  calls : ∀ c t' : Nat, s.calls[c]? = some t' → t' ≠ t
  records : ∀ (r : Nat) (record : Registration), s.records[r]? = some record → record.target ≠ t

structure Later (s s' : State) : Prop where
  overlap : s'.overlap = s.overlap
  next : s.next ≤ s'.next
  collecting : s'.collecting = s.collecting
  releasing : s'.releasing = s.releasing
  data : ∀ (t : Nat) (target : TargetData), s.data[t]? = some target → s'.data[t]? = some target
  pinned : ∀ (o : Nat) (target : Target), s.opened[o]? = some target → target.pins ≠ 0 → s'.opened[o]? = some target
  records : ∀ (r : Nat) (record : Registration), s.records[r]? = some record → Held s.collecting record →
    ∃ record', s'.records[r]? = some record' ∧ Kept s.collecting record record'
  /-- An object's name is not used again, and a hook stays published. -/
  gone : ∀ r, r < s.next → s.records[r]? = none → s'.records[r]? = none
  published : ∀ (r : Nat) (record record' : Registration), r < s.next →
    s.records[r]? = some record → s'.records[r]? = some record' → record.published = true →
      record'.published = true
  appended : s.collecting = true →
    s.registrations <+: s'.registrations ∧ s.targets <+: s'.targets
  idle : ∀ (t : Nat) (target : TargetData), t ∈ s.targets → s.data[t]? = some target →
    s.releasing = some target.handle → Idle t s → t ∈ s'.targets ∧ Idle t s'

theorem Kept.refl (collecting : Bool) (record : Registration) : Kept collecting record record :=
  ⟨rfl, rfl, id, fun _ => rfl, fun _ => rfl, fun own => ⟨own.1, own.2, rfl, rfl⟩⟩

theorem Kept.held {collecting : Bool} {record record' : Registration}
    (kept : Kept collecting record record') (held : Held collecting record) :
    Held collecting record' := by
  rcases held with active | unpublished | ⟨scanned, listed⟩
  · exact .inl (kept.active.symm ▸ active)
  · obtain ⟨owned, published, -, -⟩ := kept.unpublished unpublished
    exact .inr (.inl ⟨owned, published⟩)
  · exact .inr (.inr ⟨scanned, (kept.listed (.inr scanned)).trans listed⟩)

theorem Kept.trans {collecting : Bool} {a b c : Registration} (first : Kept collecting a b)
    (second : Kept collecting b c) : Kept collecting a c where
  active := second.active.trans first.active
  target := second.target.trans first.target
  closing closed := second.closing (first.closing closed)
  listed why := by
    refine (second.listed ?_).trans (first.listed why)
    rcases why with active | scanned
    · exact .inl (first.active.symm ▸ active)
    · exact .inr scanned
  scanned scanned := (second.scanned scanned).trans (first.scanned scanned)
  unpublished own := by
    obtain ⟨owned, published, installing, handle⟩ := first.unpublished own
    obtain ⟨owned', published', installing', handle'⟩ := second.unpublished ⟨owned, published⟩
    exact ⟨owned', published', installing'.trans installing, handle'.trans handle⟩

theorem Later.refl (s : State) : Later s s where
  overlap := rfl
  next := Nat.le_refl _
  collecting := rfl
  releasing := rfl
  data _ _ at_ := at_
  pinned _ _ at_ _ := at_
  records _ record at_ _ := ⟨record, at_, .refl _ record⟩
  gone _ _ absent := absent
  published _ record record' _ at_ at' published := by
    rw [at_] at at'
    cases at'
    exact published
  appended _ := ⟨List.prefix_refl _, List.prefix_refl _⟩
  idle _ _ member _ _ idle := ⟨member, idle⟩

theorem Later.trans {s t u : State} (first : Later s t) (second : Later t u) : Later s u where
  overlap := second.overlap.trans first.overlap
  next := first.next.trans second.next
  collecting := second.collecting.trans first.collecting
  releasing := second.releasing.trans first.releasing
  data a target at_ := second.data a target (first.data a target at_)
  pinned o target at_ pins := second.pinned o target (first.pinned o target at_ pins) pins
  records r record at_ held := by
    obtain ⟨record', at', kept⟩ := first.records r record at_ held
    have held' := kept.held held
    rw [← first.collecting] at held' kept ⊢
    obtain ⟨record'', at'', kept'⟩ := second.records r record' at' held'
    exact ⟨record'', at'', kept.trans kept'⟩
  gone r below absent := second.gone r (below.trans_le first.next) (first.gone r below absent)
  published r record record' below at_ at' published := by
    cases between : t.records[r]? with
    | none =>
        rw [second.gone r (below.trans_le first.next) between] at at'
        cases at'
    | some middle =>
        exact second.published r middle record' (below.trans_le first.next) between at'
          (first.published r record middle below at_ between published)
  appended scanned := by
    obtain ⟨registrations, targets⟩ := first.appended scanned
    obtain ⟨registrations', targets'⟩ := second.appended (first.collecting.trans scanned)
    exact ⟨registrations.trans registrations', targets.trans targets'⟩
  idle a target member at_ same idle := by
    obtain ⟨member', idle'⟩ := first.idle a target member at_ same idle
    exact second.idle a target member' (first.data a target at_) (first.releasing.trans same) idle'

theorem idle_iff {t : Nat} {s : State} : s.users t = 0 ↔ Idle t s := by
  unfold State.users
  rw [Nat.add_eq_zero_iff, Nat.add_eq_zero_iff, List.countP_eq_zero, List.countP_eq_zero,
    List.countP_eq_zero]
  constructor
  · rintro ⟨⟨opened, calls⟩, records⟩
    refine ⟨fun o target at_ same => ?_, fun c t' at_ same => ?_, fun r record at_ same => ?_⟩
    · exact opened (o, target) (Tables.mem_toList.mpr at_) (by simp [same])
    · exact calls (c, t') (Tables.mem_toList.mpr at_) (by simp [same])
    · exact records (r, record) (Tables.mem_toList.mpr at_) (by simp [same])
  · intro idle
    refine ⟨⟨fun object member same => ?_, fun object member same => ?_⟩,
      fun object member same => ?_⟩
    · exact idle.opened _ _ (Tables.mem_toList.mp member) (beq_iff_eq.mp same)
    · exact idle.calls _ _ (Tables.mem_toList.mp member) (beq_iff_eq.mp same)
    · exact idle.records _ _ (Tables.mem_toList.mp member) (beq_iff_eq.mp same)

/-! ## Changing one record -/

theorem State.edit_eq {s : State} {r : Nat} {record : Registration}
    (at_ : s.records[r]? = some record) (f : Registration → Registration) :
    s.edit r f = { s with records := s.records.insert r (f record) } := by
  unfold State.edit
  rw [at_]

section Records

variable {registrations : List Nat} {records : Std.ExtTreeMap Nat Registration} {r : Nat}
  {record record' : Registration}

/-- A look-up after a change is the changed record or an old look-up. -/
theorem lookup_insert {q : Nat} {found : Registration}
    (at' : (records.insert r record')[q]? = some found) :
    (q = r ∧ found = record') ∨ (q ≠ r ∧ records[q]? = some found) := by
  rw [Tables.getElem?_insert] at at'
  by_cases same : q = r
  · rw [if_pos same] at at'
    exact .inl ⟨same, (Option.some.inj at').symm⟩
  · rw [if_neg same] at at'
    exact .inr ⟨same, at'⟩

theorem lookup_self : (records.insert r record')[r]? = some record' := by
  rw [Tables.getElem?_insert, if_pos rfl]

theorem lookup_other {q : Nat} (other : q ≠ r) : (records.insert r record')[q]? = records[q]? := by
  rw [Tables.getElem?_insert, if_neg other]

theorem Table.insert (table : Table registrations records) (at_ : records[r]? = some record)
    (listed : record'.listed = record.listed) : Table registrations (records.insert r record') := by
  refine ⟨table.nodup, fun q => (table.listed q).trans ?_⟩
  by_cases same : q = r
  · subst same
    rw [lookup_self, at_]
    constructor
    · rintro ⟨found, same, there⟩
      exact ⟨record', rfl, by rw [listed, Option.some.inj same]; exact there⟩
    · rintro ⟨found, same, there⟩
      exact ⟨record, rfl, by rw [← listed, Option.some.inj same]; exact there⟩
  · rw [lookup_other same]

theorem mem_eraseIdx {index q : Nat} (nodup : registrations.Nodup)
    (there : registrations[index]? = some r) :
    q ∈ registrations.eraseIdx index ↔ q ≠ r ∧ q ∈ registrations := by
  obtain ⟨below, same⟩ := List.getElem?_eq_some_iff.mp there
  rw [← nodup.erase_getElem index below, same]
  exact nodup.mem_erase_iff

/-- A record leaves the table. -/
theorem Table.drop (table : Table registrations records) {index : Nat}
    (there : registrations[index]? = some r) (unlisted : record'.listed = false) :
    Table (registrations.eraseIdx index) (records.insert r record') := by
  refine ⟨table.nodup.eraseIdx index, fun q => (mem_eraseIdx table.nodup there).trans ?_⟩
  by_cases same : q = r
  · subst same
    rw [lookup_self]
    constructor
    · rintro ⟨other, -⟩
      exact absurd rfl other
    · rintro ⟨found, same, listed⟩
      rw [← Option.some.inj same, unlisted] at listed
      cases listed
  · rw [lookup_other same]
    exact (and_iff_right same).trans (table.listed q)

/-- An object outside the table goes. -/
theorem Table.forget (table : Table registrations records) (at_ : records[r]? = some record)
    (unlisted : record.listed = false) : Table registrations (records.erase r) := by
  refine ⟨table.nodup, fun q => (table.listed q).trans ?_⟩
  rw [Tables.getElem?_erase]
  by_cases same : q = r
  · subst same
    rw [if_pos rfl, at_]
    constructor
    · rintro ⟨found, same, listed⟩
      rw [← Option.some.inj same, unlisted] at listed
      cases listed
    · rintro ⟨found, wrong, -⟩
      cases wrong
  · rw [if_neg same]

theorem Handles.forget {callbacks : Std.ExtTreeMap Nat Nat} (handles : Handles records callbacks)
    (at_ : records[r]? = some record) (handle : record.handle = 0) :
    Handles (records.erase r) callbacks where
  known h q at' := by
    obtain ⟨nonzero, found, found_, same⟩ := handles.known h q at'
    refine ⟨nonzero, found, ?_, same⟩
    rw [Tables.getElem?_erase]
    split
    · rename_i this
      rw [this, at_] at found_
      cases found_
      exact absurd (same.symm.trans handle) nonzero
    · exact found_
  given q found at' nonzero := by
    rw [Tables.getElem?_erase] at at'
    split at at'
    · cases at'
    · exact handles.given q found at' nonzero

theorem Logged.forget {leases : List Nat} {log : List Event} (logged : Logged records leases log)
    (at_ : records[r]? = some record) (handle : record.handle = 0) :
    Logged (records.erase r) leases log where
  justified := logged.justified
  held := logged.held
  added q h member := by
    obtain ⟨nonzero, removed | ⟨found, found_, same⟩⟩ := logged.added q h member
    · exact ⟨nonzero, .inl removed⟩
    · refine ⟨nonzero, .inr ⟨found, ?_, same⟩⟩
      rw [Tables.getElem?_erase]
      split
      · rename_i this
        rw [this, at_] at found_
        cases found_
        exact absurd (same.symm.trans handle) nonzero
      · exact found_
  given q found at' nonzero := by
    rw [Tables.getElem?_erase] at at'
    split at at'
    · cases at'
    · exact logged.given q found at' nonzero

theorem Handles.insert {callbacks : Std.ExtTreeMap Nat Nat} (handles : Handles records callbacks)
    (at_ : records[r]? = some record) (handle : record'.handle = record.handle) :
    Handles (records.insert r record') callbacks where
  known h q at' := by
    obtain ⟨positive, found, found_, same⟩ := handles.known h q at'
    refine ⟨positive, ?_⟩
    by_cases this : q = r
    · subst this
      rw [at_] at found_
      cases found_
      exact ⟨record', lookup_self, handle.trans same⟩
    · exact ⟨found, (lookup_other this).trans found_, same⟩
  given q found at' positive := by
    rcases lookup_insert at' with ⟨rfl, rfl⟩ | ⟨-, was⟩
    · rw [handle] at positive ⊢
      exact handles.given q record at_ positive
    · exact handles.given q found was positive

/-- The host removes a callback. -/
theorem Handles.remove {callbacks : Std.ExtTreeMap Nat Nat} (handles : Handles records callbacks)
    (at_ : records[r]? = some record) (positive : record.handle ≠ 0) :
    Handles (records.insert r { record with handle := 0 }) (callbacks.erase record.handle) where
  known h q at' := by
    rw [Tables.getElem?_erase] at at'
    split at at'
    · cases at'
    · rename_i other
      obtain ⟨nonzero, found, found_, same⟩ := handles.known h q at'
      refine ⟨nonzero, found, ?_, same⟩
      have different : q ≠ r := by
        rintro rfl
        rw [at_] at found_
        cases found_
        exact other same.symm
      exact (lookup_other different).trans found_
  given q found at' nonzero := by
    rcases lookup_insert at' with ⟨-, rfl⟩ | ⟨different, was⟩
    · exact absurd rfl nonzero
    · have there := handles.given q found was nonzero
      have other : found.handle ≠ record.handle := by
        intro same
        have mine := handles.given r record at_ positive
        rw [← same, there] at mine
        exact different (Option.some.inj mine)
      rw [Tables.getElem?_erase, if_neg other]
      exact there

theorem Used.insert {targets : List Nat} {opened : Std.ExtTreeMap Nat Target}
    {calls : Std.ExtTreeMap Nat Nat} (used : Used targets records opened calls)
    (target : record'.target ∈ targets) : Used targets (records.insert r record') opened calls where
  records q found at' := by
    rcases lookup_insert at' with ⟨-, rfl⟩ | ⟨-, was⟩
    · exact target
    · exact used.records q found was
  opened := used.opened
  calls := used.calls

theorem Logged.insert {leases : List Nat} {log : List Event} (logged : Logged records leases log)
    (at_ : records[r]? = some record) (handle : record'.handle = record.handle) :
    Logged (records.insert r record') leases log where
  justified := logged.justified
  held := logged.held
  added q h member := by
    obtain ⟨positive, removed | ⟨found, found_, same⟩⟩ := logged.added q h member
    · exact ⟨positive, .inl removed⟩
    · refine ⟨positive, .inr ?_⟩
      by_cases this : q = r
      · subst this
        rw [at_] at found_
        cases found_
        exact ⟨record', lookup_self, handle.trans same⟩
      · exact ⟨found, (lookup_other this).trans found_, same⟩
  given q found at' positive := by
    rcases lookup_insert at' with ⟨rfl, rfl⟩ | ⟨-, was⟩
    · rw [handle] at positive ⊢
      exact logged.given q record at_ positive
    · exact logged.given q found was positive

/-- An event that neither adds a callback nor moves a lease. -/
theorem Logged.note {leases : List Nat} {log : List Event} (logged : Logged records leases log)
    {event : Event} (moves : ∀ handle, DHooks.held handle (event :: log) = DHooks.held handle log)
    (adds : ∀ r handle, event ≠ .added r handle) (justified : event.justified log) :
    Logged records leases (event :: log) where
  justified := ⟨justified, logged.justified⟩
  held handle := (logged.held handle).trans (by rw [moves])
  added q handle member := by
    rcases List.mem_cons.mp member with same | was
    · exact absurd same.symm (adds q handle)
    · obtain ⟨positive, ⟨result, removed⟩ | there⟩ := logged.added q handle was
      · exact ⟨positive, .inl ⟨result, List.mem_cons_of_mem _ removed⟩⟩
      · exact ⟨positive, .inr there⟩
  given q found at' positive := List.mem_cons_of_mem _ (logged.given q found at' positive)

end Records

theorem Good.below {s : State} (good : Good s) {r : Nat} {record : Registration}
    (at_ : s.records[r]? = some record) : r < s.next :=
  good.fresh.records r (Tables.mem_iff.mpr ⟨record, at_⟩)

theorem State.edit_at {s : State} {r : Nat} {record : Registration}
    (at_ : s.records[r]? = some record) (f : Registration → Registration) :
    (s.edit r f).records[r]? = some (f record) := by
  rw [State.edit_eq at_]
  exact lookup_self

/-- Another flag or counter of a record. -/
theorem Good.edit {s : State} (good : Good s) {r : Nat} {record : Registration}
    (at_ : s.records[r]? = some record) {f : Registration → Registration}
    (sane : Sane (f record)) (listed : (f record).listed = record.listed)
    (handle : (f record).handle = record.handle) (target : (f record).target = record.target) :
    Good (s.edit r f) := by
  rw [State.edit_eq at_]
  refine ⟨good.table.insert at_ listed, good.handles.insert at_ handle, ?_, good.targets,
    good.used.insert (target ▸ good.used.records r record at_), ?_, good.logged.insert at_ handle,
    good.keepalive, good.releasing⟩
  · intro q found at'
    rcases lookup_insert at' with ⟨-, rfl⟩ | ⟨-, was⟩
    · exact sane
    · exact good.sane q found was
  · refine ⟨good.fresh.next, ?_, good.fresh.callbacks, good.fresh.opened, good.fresh.calls,
      good.fresh.data⟩
    intro q there
    rcases Tables.mem_insert_iff.mp there with rfl | was
    · exact good.below at_
    · exact good.fresh.records q was

theorem Idle.insert {t : Nat} {s : State} (idle : Idle t s) {r : Nat} {record record' : Registration}
    (at_ : s.records[r]? = some record) (target : record'.target = record.target) :
    Idle t { s with records := s.records.insert r record' } where
  opened := idle.opened
  calls := idle.calls
  records q found at' := by
    rcases lookup_insert at' with ⟨-, rfl⟩ | ⟨-, was⟩
    · exact target ▸ idle.records r record at_
    · exact idle.records q found was

theorem Later.edit {base s : State} (later : Later base s) {r : Nat} {record : Registration}
    (at_ : s.records[r]? = some record) {f : Registration → Registration}
    (target : (f record).target = record.target)
    (kept : ∀ record₀ : Registration, base.records[r]? = some record₀ → Held base.collecting record₀ →
      Kept base.collecting record₀ record → Kept base.collecting record₀ (f record))
    (published : r < base.next → record.published = true → (f record).published = true) :
    Later base (s.edit r f) := by
  rw [State.edit_eq at_]
  refine ⟨later.overlap, later.next, later.collecting, later.releasing, later.data, later.pinned,
    ?_, ?_, ?_, later.appended, ?_⟩
  · intro q record₀ was held
    obtain ⟨found, found_, kept₀⟩ := later.records q record₀ was held
    by_cases same : q = r
    · subst same
      rw [at_] at found_
      cases found_
      exact ⟨f record, lookup_self, kept record₀ was held kept₀⟩
    · exact ⟨found, (lookup_other same).trans found_, kept₀⟩
  · intro q below absent
    have absent' := later.gone q below absent
    have other : q ≠ r := by
      rintro rfl
      rw [at_] at absent'
      cases absent'
    exact (lookup_other other).trans absent'
  · intro q record₀ found below was at' published₀
    rcases lookup_insert at' with ⟨rfl, rfl⟩ | ⟨-, at''⟩
    · exact published below (later.published q record₀ record below was at_ published₀)
    · exact later.published q record₀ found below was at'' published₀
  · intro t target₀ member data releasing idle
    obtain ⟨member', idle'⟩ := later.idle t target₀ member data releasing idle
    exact ⟨member', idle'.insert at_ target⟩

/-- What a frame of an older state relies on is not what a record says of itself now. -/
theorem Later.edit_kept {base s : State} (later : Later base s) {r : Nat} {record : Registration}
    (at_ : s.records[r]? = some record) {f : Registration → Registration}
    (kept : ∀ collecting, Kept collecting record (f record))
    (published : record.published = true → (f record).published = true) :
    Later base (s.edit r f) :=
  later.edit at_ (kept true).target (fun _ _ _ kept₀ => kept₀.trans (kept _)) fun _ => published

/-- The parts that `Later` speaks of. -/
structure SameObjects (s s' : State) : Prop where
  overlap : s'.overlap = s.overlap
  next : s'.next = s.next
  collecting : s'.collecting = s.collecting
  releasing : s'.releasing = s.releasing
  data : s'.data = s.data
  opened : s'.opened = s.opened
  calls : s'.calls = s.calls
  records : s'.records = s.records
  registrations : s'.registrations = s.registrations
  targets : s'.targets = s.targets

theorem Later.congr {base s s' : State} (later : Later base s) (same : SameObjects s s') :
    Later base s' where
  overlap := same.overlap.trans later.overlap
  next := by
    rw [same.next]
    exact later.next
  collecting := same.collecting.trans later.collecting
  releasing := same.releasing.trans later.releasing
  data := by
    rw [same.data]
    exact later.data
  pinned := by
    rw [same.opened]
    exact later.pinned
  records := by
    rw [same.records]
    exact later.records
  gone := by
    rw [same.records]
    exact later.gone
  published := by
    rw [same.records]
    exact later.published
  appended := by
    rw [same.registrations, same.targets]
    exact later.appended
  idle t target member at_ releasing idle := by
    obtain ⟨member', idle'⟩ := later.idle t target member at_ releasing idle
    refine ⟨same.targets.symm ▸ member', ?_, ?_, ?_⟩
    · rw [same.opened]
      exact idle'.opened
    · rw [same.calls]
      exact idle'.calls
    · rw [same.records]
      exact idle'.records

/-! ## Removing a callback and dropping a record -/

theorem Good.removed {s : State} (good : Good s) {r : Nat} {record : Registration}
    (at_ : s.records[r]? = some record) (positive : record.handle ≠ 0) {result : KeelResult}
    (answer : released result = true) : Good (s.removed r record.handle result) := by
  have sane := good.sane r record at_
  have installing : record.installing = false := by
    cases now : record.installing with
    | false => rfl
    | true => exact absurd (sane.installing now).2.1 positive
  have edited := State.edit_eq (s := { s with callbacks := s.callbacks.erase record.handle }) at_
    fun record => { record with handle := 0 }
  unfold State.removed
  rw [edited]
  refine ⟨good.table.insert at_ rfl, good.handles.remove at_ positive, ?_, good.targets,
    good.used.insert (good.used.records r record at_), ?_, ?_, good.keepalive, good.releasing⟩
  · intro q found at'
    rcases lookup_insert at' with ⟨-, rfl⟩ | ⟨-, was⟩
    · refine ⟨fun now => ?_, sane.active, fun nonzero => absurd rfl nonzero, sane.retires⟩
      rw [show ({ record with handle := 0 } : Registration).installing = record.installing from rfl,
        installing] at now
      cases now
    · exact good.sane q found was
  · refine ⟨good.fresh.next, ?_, ?_, good.fresh.opened, good.fresh.calls, good.fresh.data⟩
    · intro q there
      rcases Tables.mem_insert_iff.mp there with rfl | was
      · exact good.below at_
      · exact good.fresh.records q was
    · intro h there
      exact good.fresh.callbacks h (Tables.mem_erase_iff.mp there).2
  · refine ⟨⟨⟨answer, good.logged.given r record at_ positive⟩, good.logged.justified⟩,
      good.logged.held, ?_, ?_⟩
    · intro q h member
      have was : Event.added q h ∈ s.log := by
        rcases List.mem_cons.mp member with wrong | was
        · cases wrong
        · exact was
      obtain ⟨nonzero, ⟨result', removed⟩ | ⟨found, found_, same⟩⟩ := good.logged.added q h was
      · exact ⟨nonzero, .inl ⟨result', List.mem_cons_of_mem _ removed⟩⟩
      · refine ⟨nonzero, ?_⟩
        by_cases this : q = r
        · subst this
          rw [at_] at found_
          cases found_
          exact .inl ⟨result, by rw [← same]; exact List.mem_cons_self ..⟩
        · exact .inr ⟨found, (lookup_other this).trans found_, same⟩
    · intro q found at' nonzero
      rcases lookup_insert at' with ⟨-, rfl⟩ | ⟨-, was⟩
      · exact absurd rfl nonzero
      · exact List.mem_cons_of_mem _ (good.logged.given q found was nonzero)

/-- A scan may change what it removes. -/
theorem Later.removed {base s : State} (later : Later base s) (good : Good s) {r : Nat}
    {record : Registration} (at_ : s.records[r]? = some record) (positive : record.handle ≠ 0)
    (scans : base.collecting = false) (result : KeelResult) :
    Later base (s.removed r record.handle result) := by
  have published := ((good.sane r record at_).handle positive).2
  have callbacks : Later base { s with callbacks := s.callbacks.erase record.handle } :=
    later.congr ⟨rfl, rfl, rfl, rfl, rfl, rfl, rfl, rfl, rfl, rfl⟩
  refine (callbacks.edit at_ rfl (fun record₀ _ _ kept => ?_) fun _ => id).congr
    ⟨rfl, rfl, rfl, rfl, rfl, rfl, rfl, rfl, rfl, rfl⟩
  refine ⟨kept.active, kept.target, kept.closing, kept.listed, fun scanned => ?_, fun own => ?_⟩
  · rw [scans] at scanned
    cases scanned
  · have unpublished := (kept.unpublished own).2.1
    rw [published] at unpublished
    cases unpublished

theorem lookup_erase {records : Std.ExtTreeMap Nat Registration} {r q : Nat}
    {found : Registration} (at' : (records.erase r)[q]? = some found) :
    q ≠ r ∧ records[q]? = some found := by
  rw [Tables.getElem?_erase] at at'
  split at at'
  · cases at'
  · exact ⟨‹_›, at'⟩

theorem State.sweep_cases (r : Nat) (s : State) :
    s.sweep r = s ∨ ∃ record, s.records[r]? = some record ∧ record.listed = false ∧
      record.owned = false ∧ s.sweep r = { s with records := s.records.erase r } := by
  unfold State.sweep
  cases s.records[r]? with
  | none => exact .inl rfl
  | some record =>
      by_cases stays : (record.listed || record.owned) = true
      · exact .inl (if_pos stays)
      · have goes : (record.listed || record.owned) = false := eq_false_of_ne_true stays
        rw [Bool.or_eq_false_iff] at goes
        exact .inr ⟨record, rfl, goes.1, goes.2, if_neg stays⟩

theorem Good.sweep {s : State} (good : Good s) (r : Nat) : Good (s.sweep r) := by
  obtain same | ⟨record, at_, unlisted, -, same⟩ := s.sweep_cases r
  · rw [same]
    exact good
  · rw [same]
    have handle : record.handle = 0 := by
      by_contra nonzero
      rw [((good.sane r record at_).handle nonzero).1] at unlisted
      cases unlisted
    refine ⟨good.table.forget at_ unlisted, good.handles.forget at_ handle, ?_, good.targets,
      ⟨?_, good.used.opened, good.used.calls⟩, ?_, good.logged.forget at_ handle,
      good.keepalive, good.releasing⟩
    · exact fun q found at' => good.sane q found (lookup_erase at').2
    · exact fun q found at' => good.used.records q found (lookup_erase at').2
    · refine ⟨good.fresh.next, fun q there => ?_, good.fresh.callbacks, good.fresh.opened,
        good.fresh.calls, good.fresh.data⟩
      exact good.fresh.records q (Tables.mem_erase_iff.mp there).2

theorem Later.sweep {base s : State} (later : Later base s) (good : Good s) (r : Nat) :
    Later base (s.sweep r) := by
  obtain same | ⟨record, at_, unlisted, unowned, same⟩ := s.sweep_cases r
  · rw [same]
    exact later
  · rw [same]
    refine ⟨later.overlap, later.next, later.collecting, later.releasing, later.data,
      later.pinned, ?_, ?_, ?_, later.appended, ?_⟩
    · intro q record₀ was held
      obtain ⟨found, found_, kept⟩ := later.records q record₀ was held
      have other : q ≠ r := by
        rintro rfl
        rw [at_] at found_
        cases found_
        -- what a frame relies on is listed or owned
        rcases kept.held held with active | ⟨owned, -⟩ | ⟨-, listed⟩
        · rw [(good.sane q record at_).active active] at unlisted
          cases unlisted
        · rw [owned] at unowned
          cases unowned
        · rw [listed] at unlisted
          cases unlisted
      refine ⟨found, ?_, kept⟩
      rw [← found_]
      exact (Tables.getElem?_erase ..).trans (if_neg other)
    · intro q below absent
      refine (Tables.getElem?_erase ..).trans ?_
      rw [later.gone q below absent]
      exact ite_self _
    · intro q record₀ found below was at' published
      exact later.published q record₀ found below was (lookup_erase at').2 published
    · intro t target member data releasing idle
      obtain ⟨member', idle'⟩ := later.idle t target member data releasing idle
      exact ⟨member', idle'.opened, idle'.calls,
        fun q found at' => idle'.records q found (lookup_erase at').2⟩

/-- While the base is not scanning, the order in the tables does not matter. -/
theorem Later.retable {base s : State} (later : Later base s) (scans : base.collecting = false)
    (calm : base.releasing = none) (registrations targets : List Nat) :
    Later base { s with registrations, targets } where
  overlap := later.overlap
  next := later.next
  collecting := later.collecting
  releasing := later.releasing
  data := later.data
  pinned := later.pinned
  records := later.records
  gone := later.gone
  published := later.published
  appended scanning := by
    rw [scans] at scanning
    cases scanning
  idle t target _ _ releasing _ := by
    rw [calm] at releasing
    cases releasing

/-- The table without a record. -/
def State.unlist (index r : Nat) (record : Registration) (s : State) : State :=
  { s with
    registrations := s.registrations.eraseIdx index
    records := s.records.insert r { record with listed := false } }

theorem State.eraseRegistration_eq {s : State} {r index : Nat} {record : Registration}
    (at_ : s.records[r]? = some record) (finished : record.installing = false) :
    s.eraseRegistration index r =
      ((s.unlist index r record).sweep r).note (.dropped r record) := by
  unfold State.eraseRegistration State.unlist
  rw [at_]
  simp only [finished, Bool.or_false]

theorem Good.unlist {s : State} (good : Good s) {r index : Nat} {record : Registration}
    (there : s.registrations[index]? = some r) (at_ : s.records[r]? = some record)
    (idle : record.active = 0) (handle : record.handle = 0)
    (finished : record.installing = false) : Good (s.unlist index r record) := by
  refine ⟨good.table.drop there rfl, good.handles.insert at_ rfl, ?_, good.targets,
    good.used.insert (good.used.records r record at_), ?_, good.logged.insert at_ rfl,
    good.keepalive, good.releasing⟩
  · intro q found at'
    rcases lookup_insert at' with ⟨-, rfl⟩ | ⟨-, was⟩
    · refine ⟨fun now => ?_, fun active => absurd idle active, fun nonzero => absurd handle nonzero,
        (good.sane r record at_).retires⟩
      have now : record.installing = true := now
      rw [finished] at now
      cases now
    · exact good.sane q found was
  · refine ⟨good.fresh.next, fun q inside => ?_, good.fresh.callbacks, good.fresh.opened,
      good.fresh.calls, good.fresh.data⟩
    rcases Tables.mem_insert_iff.mp inside with rfl | was
    · exact good.below at_
    · exact good.fresh.records q was

theorem Good.eraseRegistration {s : State} (good : Good s) {r index : Nat} {record : Registration}
    (there : s.registrations[index]? = some r) (at_ : s.records[r]? = some record)
    (closing : record.closing = true) (idle : record.active = 0) (handle : record.handle = 0)
    (finished : record.installing = false) : Good (s.eraseRegistration index r) := by
  have unlisted := good.unlist there at_ idle handle finished
  rw [State.eraseRegistration_eq at_ finished]
  have swept := unlisted.sweep r
  have log : ((s.unlist index r record).sweep r).log = s.log := by
    obtain same | ⟨_, -, -, -, same⟩ := (s.unlist index r record).sweep_cases r <;>
      rw [same] <;> rfl
  have cleared : Cleared r s.log := by
    intro h member
    obtain ⟨nonzero, removed | ⟨found, found_, same⟩⟩ := good.logged.added r h member
    · exact removed
    · rw [at_] at found_
      cases found_
      exact absurd (same.symm.trans handle) nonzero
  have retired : record.retires = 1 := by
    rw [(good.sane r record at_).retires, closing]
    rfl
  refine ⟨swept.table, swept.handles, swept.sane, swept.targets, swept.used, ?_, ?_,
    swept.keepalive, swept.releasing⟩
  · exact ⟨swept.fresh.next, swept.fresh.records, swept.fresh.callbacks, swept.fresh.opened,
      swept.fresh.calls, swept.fresh.data⟩
  · refine swept.logged.note (fun _ => rfl) (fun _ _ wrong => nomatch wrong) ?_
    show Event.justified ((s.unlist index r record).sweep r).log (.dropped r record)
    rw [log]
    exact ⟨closing, idle, retired, cleared⟩

theorem Later.eraseRegistration {base s : State} (later : Later base s) (good : Good s)
    {r index : Nat} {record : Registration} (there : s.registrations[index]? = some r)
    (at_ : s.records[r]? = some record) (idle : record.active = 0) (handle : record.handle = 0)
    (finished : record.installing = false) (scans : base.collecting = false)
    (calm : base.releasing = none) : Later base (s.eraseRegistration index r) := by
  have unlisted : Later base (s.edit r fun record => { record with listed := false }) := by
    refine later.edit at_ rfl (fun record₀ _ _ kept => ?_) fun _ => id
    refine ⟨kept.active, kept.target, kept.closing, fun why => ?_, kept.scanned, kept.unpublished⟩
    rcases why with active | scanning
    · exact absurd (kept.active.symm.trans idle) active
    · rw [scans] at scanning
      cases scanning
  rw [State.edit_eq at_] at unlisted
  have erased : Later base (s.unlist index r record) :=
    unlisted.retable scans calm (s.registrations.eraseIdx index) s.targets
  rw [State.eraseRegistration_eq at_ finished]
  exact (erased.sweep (good.unlist there at_ idle handle finished) r).congr
    ⟨rfl, rfl, rfl, rfl, rfl, rfl, rfl, rfl, rfl, rfl⟩

/-! ## Releasing a target -/

theorem Good.eraseTarget {s : State} (good : Good s) {t index : Nat} {target : TargetData}
    (there : s.targets[index]? = some t) (at_ : s.data[t]? = some target) (idle : Idle t s)
    {result : KeelResult} (answer : released result = true) :
    Good (s.eraseTarget index target.handle result) := by
  have member : t ∈ s.targets := List.mem_of_getElem? there
  have stays : ∀ {q : Nat}, q ≠ t → q ∈ s.targets → q ∈ s.targets.eraseIdx index :=
    fun other was => (mem_eraseIdx good.targets.nodup there).mpr ⟨other, was⟩
  have held_ : held target.handle s.log = true := by
    obtain ⟨found, found_, leased⟩ := good.targets.known t member
    rw [at_] at found_
    cases found_
    exact (good.logged.held _).mp leased
  refine ⟨good.table, good.handles, good.sane, ?_, ?_, ?_, ?_, ?_, good.releasing⟩
  · refine ⟨good.targets.nodup.eraseIdx index, fun q inside => ?_, fun h inside => ?_,
      fun q inside q' inside' => ?_⟩
    · obtain ⟨other, was⟩ := (mem_eraseIdx good.targets.nodup there).mp inside
      obtain ⟨found, found_, leased⟩ := good.targets.known q was
      refine ⟨found, found_, List.mem_filter.mpr ⟨leased, ?_⟩⟩
      have different : found.handle ≠ target.handle := fun same =>
        other (good.targets.distinct q was t member found target found_ at_ same)
      simpa using different
    · obtain ⟨leased, different⟩ := List.mem_filter.mp inside
      obtain ⟨q, was, found, found_, same⟩ := good.targets.leased h leased
      refine ⟨q, stays ?_ was, found, found_, same⟩
      rintro rfl
      rw [at_] at found_
      cases found_
      simp [same] at different
    · exact good.targets.distinct q ((mem_eraseIdx good.targets.nodup there).mp inside).2 q'
        ((mem_eraseIdx good.targets.nodup there).mp inside').2
  · exact ⟨fun r record at' => stays (idle.records r record at') (good.used.records r record at'),
      fun o object at' => stays (idle.opened o object at') (good.used.opened o object at'),
      fun c q at' => stays (idle.calls c q at') (good.used.calls c q at')⟩
  · exact ⟨good.fresh.next, good.fresh.records, good.fresh.callbacks, good.fresh.opened,
      good.fresh.calls, good.fresh.data⟩
  · refine ⟨⟨⟨answer, held_⟩, good.logged.justified⟩, fun h => ?_, ?_, ?_⟩
    · show h ∈ s.leases.filter (· != target.handle) ↔
        (target.handle != h && held h s.log) = true
      rw [List.mem_filter, good.logged.held h, Bool.and_eq_true, and_comm, bne_iff_ne, bne_iff_ne]
      exact and_congr_left fun _ => ne_comm
    · intro r h inside
      rcases List.mem_cons.mp inside with wrong | was
      · cases wrong
      · obtain ⟨nonzero, ⟨result', removed⟩ | known⟩ := good.logged.added r h was
        · exact ⟨nonzero, .inl ⟨result', List.mem_cons_of_mem _ removed⟩⟩
        · exact ⟨nonzero, .inr known⟩
    · exact fun r record at' nonzero => List.mem_cons_of_mem _ (good.logged.given r record at' nonzero)
  · intro left
    refine good.keepalive fun none_ => ?_
    rw [none_] at member
    exact absurd member List.not_mem_nil

theorem Later.eraseTarget {base s : State} (later : Later base s) (scans : base.collecting = false)
    (calm : base.releasing = none) (index handle : Nat) (result : KeelResult) :
    Later base (s.eraseTarget index handle result) :=
  (later.retable scans calm s.registrations (s.targets.eraseIdx index)).congr
    ⟨rfl, rfl, rfl, rfl, rfl, rfl, rfl, rfl, rfl, rfl⟩

/-! ## Steps that keep the invariant -/

/-- What every state satisfies in which foreign code has control. -/
def Fine (s : State) : Prop := s.overlap = true ∨ Good s

/-- What holds of a state reached from another one. -/
def Within (base s : State) : Prop := s.overlap = true ∨ (Good s ∧ Later base s)

theorem Within.fine {base s : State} (within : Within base s) : Fine s :=
  within.imp id And.left

theorem Within.refl {s : State} (fine : Fine s) : Within s s :=
  fine.imp id fun good => ⟨good, .refl s⟩

theorem Within.trans {s t u : State} (first : Within s t) (second : Within t u) : Within s u := by
  rcases second with overlap | ⟨good, later⟩
  · exact .inl overlap
  · rcases first with overlap | ⟨-, earlier⟩
    · exact .inl (later.overlap.trans overlap)
    · exact .inr ⟨good, earlier.trans later⟩

section Steady

variable {α β : Type}

/-- However it ends, and whenever foreign code has control, the invariant holds and
the state is a later one. -/
def Steady (m : M α) (s : State) : Prop :=
  ∀ base, Within base s → (m s).Wp Fine Within fun _ s' => Within base s'

theorem steady_pure {value : α} {s : State} : Steady (pure value) s := fun _ within => within

theorem steady_throw {text : Thrown} {s : State} : Steady (throw text : M α) s :=
  fun _ within => within

theorem steady_bind {m : M α} {f : α → M β} {s : State} (first : Steady m s)
    (rest : ∀ value s', Steady (f value) s') : Steady (m >>= f) s := by
  intro base within
  refine wp_bind.mpr ((first base within).mono fun outcome s' later => ?_)
  cases outcome with
  | ok value => exact rest value s' base later
  | error text => exact later

theorem steady_get {f : State → M β} {s : State} (rest : Steady (f s) s) :
    Steady (Code.get >>= f) s :=
  fun base within => wp_bind.mpr (rest base within)

theorem steady_modify {f : State → State} {s : State} (step : Fine s → Within s (f s)) :
    Steady (Code.modify f) s :=
  fun _ within => within.trans (step within.fine)

theorem steady_then {f : State → State} {g : Unit → M β} {s : State}
    (step : Fine s → Within s (f s)) (rest : Steady (g ()) (f s)) :
    Steady (Code.modify f >>= g) s :=
  fun base within => wp_bind.mpr (rest base (within.trans (step within.fine)))

theorem steady_reply {f : Reply → M β} {s : State} (rest : ∀ answer, Steady (f answer) s) :
    Steady (Code.reply >>= f) s :=
  fun base within => wp_bind.mpr (wp_reply.mpr fun answer => rest answer base within)

theorem steady_enter {s : State} : Steady Code.enter s :=
  fun _ within => ⟨within.fine, fun _ _ _ moved => within.trans moved⟩

theorem steady_ite {c : Prop} [Decidable c] {m n : M α} {s : State} (pos : c → Steady m s)
    (neg : ¬ c → Steady n s) : Steady (if c then m else n) s := by
  split
  · exact pos ‹c›
  · exact neg ‹¬ c›

/-- A step around `m` which the way out takes back. -/
theorem steady_bracket {m : M α} {f g : State → State} {s : State}
    (began : Fine s → Fine (f s)) (inside : Steady m (f s))
    (back : Fine s → ∀ t, Within (f s) t → Within s (g t)) :
    Steady (Code.finally_ (do Code.modify f; m) g) s := by
  intro base within
  have fine := within.fine
  refine wp_finally.mpr (wp_bind.mpr (wp_modify.mpr ?_))
  exact (inside (f s) (.refl (began fine))).mono fun _ t later => within.trans (back fine t later)

/-- Once an overlap has happened, nothing more is said. -/
theorem within_overlap {base s s' : State} (same : s'.overlap = s.overlap)
    (overlap : s.overlap = true) : Within base s' :=
  .inl (same.trans overlap)

/-- A step that is made in good states only. -/
theorem within_step {s s' : State} (same : s.overlap = true → s'.overlap = true)
    (step : Good s → Within s s') (fine : Fine s) : Within s s' := by
  rcases fine with overlap | good
  · exact .inl (same overlap)
  · exact step good

theorem State.edit_overlap (r : Nat) (f : Registration → Registration) (s : State) :
    (s.edit r f).overlap = s.overlap := by
  unfold State.edit
  cases s.records[r]? <;> rfl

theorem State.sweep_overlap (r : Nat) (s : State) : (s.sweep r).overlap = s.overlap := by
  obtain same | ⟨_, -, -, -, same⟩ := s.sweep_cases r <;> rw [same]

theorem thread_steady {s : State} : Steady thread s := by
  unfold thread
  refine steady_reply fun answer => ?_
  exact steady_ite (fun _ => steady_throw) fun _ => steady_pure

theorem close_steady {r : Nat} {s : State} : Steady (close r) s := by
  unfold close
  refine steady_get ?_
  cases at_ : s.records[r]? with
  | none => exact steady_pure
  | some record =>
      refine steady_ite (fun _ => steady_pure) fun opened => ?_
      refine steady_then ?_ (steady_bind steady_enter fun _ _ => steady_pure)
      refine within_step (fun overlap => (s.edit_overlap r _).trans overlap) fun good => .inr ?_
      have sane := good.sane r record at_
      refine ⟨good.edit at_ ⟨sane.installing, sane.active, sane.handle, ?_⟩ rfl rfl rfl,
        (Later.refl s).edit_kept at_ (fun _ => ?_) id⟩
      · show record.retires + 1 = 1
        rw [sane.retires, if_neg opened]
      · exact ⟨rfl, rfl, fun _ => rfl, fun _ => rfl, fun _ => rfl, fun own => ⟨own.1, own.2, rfl, rfl⟩⟩

end Steady

/-! ## Scanning -/

/-- The state without the marks of a scan. -/
def State.calm (s : State) : State := { s with collecting := false, releasing := none }

/-- A scan under way that began in `base`. -/
structure Scan (base s : State) : Prop where
  good : Good s
  collecting : s.collecting = true
  releasing : s.releasing = none
  later : Later base s.calm

theorem Good.calm {s : State} (good : Good s) : Good s.calm where
  table := good.table
  handles := good.handles
  sane := good.sane
  targets := good.targets
  used := good.used
  fresh := ⟨good.fresh.next, good.fresh.records, good.fresh.callbacks, good.fresh.opened,
    good.fresh.calls, good.fresh.data⟩
  logged := good.logged
  keepalive := good.keepalive
  releasing some_ := absurd rfl some_

theorem Later.calm {s s' : State} (later : Later s s') : Later s.calm s'.calm where
  overlap := later.overlap
  next := later.next
  collecting := rfl
  releasing := rfl
  data := later.data
  pinned := later.pinned
  records r record at_ held := by
    have held' : Held s.collecting record := by
      rcases held with active | unpublished | ⟨scanned, -⟩
      · exact .inl active
      · exact .inr (.inl unpublished)
      · cases scanned
    obtain ⟨record', at', kept⟩ := later.records r record at_ held'
    refine ⟨record', at', kept.active, kept.target, kept.closing, fun why => ?_, fun scanned => ?_,
      kept.unpublished⟩
    · rcases why with active | scanned
      · exact kept.listed (.inl active)
      · cases scanned
    · cases scanned
  gone := later.gone
  published := later.published
  appended scanned := by cases scanned
  idle t target _ _ releasing _ := by cases releasing

theorem Scan.moved {base s s' : State} (scan : Scan base s) (good : Good s') (later : Later s s') :
    Scan base s' :=
  ⟨good, later.collecting.trans scan.collecting, later.releasing.trans scan.releasing,
    scan.later.trans later.calm⟩

theorem State.removed_calm (r handle : Nat) (result : KeelResult) (s : State) :
    (s.removed r handle result).calm = s.calm.removed r handle result := by
  unfold State.removed State.edit State.calm
  dsimp only
  cases s.records[r]? <;> rfl

theorem State.sweep_calm (r : Nat) (s : State) : (s.sweep r).calm = s.calm.sweep r := by
  have records : s.calm.records = s.records := rfl
  unfold State.sweep
  rw [records]
  cases s.records[r]? with
  | none => rfl
  | some record =>
      dsimp only
      split <;> rfl

theorem State.eraseRegistration_calm {index r : Nat} {record : Registration} {s : State}
    (at_ : s.records[r]? = some record) (finished : record.installing = false) :
    (s.eraseRegistration index r).calm = s.calm.eraseRegistration index r := by
  rw [State.eraseRegistration_eq at_ finished, State.eraseRegistration_eq (s := s.calm) at_ finished]
  show ((s.unlist index r record).sweep r).calm.note _ = _
  rw [State.sweep_calm]
  rfl

theorem State.eraseRegistration_flags (index r : Nat) (s : State) :
    (s.eraseRegistration index r).collecting = s.collecting ∧
      (s.eraseRegistration index r).releasing = s.releasing := by
  unfold State.eraseRegistration
  cases s.records[r]? with
  | none => exact ⟨rfl, rfl⟩
  | some record =>
      dsimp only [State.note]
      obtain same | ⟨_, -, -, -, same⟩ := State.sweep_cases r _ <;> rw [same] <;>
        exact ⟨rfl, rfl⟩

theorem State.eraseRegistration_overlap {index r : Nat} {s : State} (overlap : s.overlap = true) :
    (s.eraseRegistration index r).overlap = true := by
  unfold State.eraseRegistration
  cases s.records[r]? with
  | none => exact overlap
  | some record =>
      show (State.sweep r _).overlap = true
      rw [State.sweep_overlap]
      show (s.overlap || record.installing) = true
      rw [overlap]
      rfl

theorem State.removed_overlap (r handle : Nat) (result : KeelResult) (s : State) :
    (s.removed r handle result).overlap = s.overlap := by
  show (State.edit r _ _).overlap = _
  rw [State.edit_overlap]

/-- A scan goes on, or an overlap has happened. -/
def Scans (base s : State) : Prop := s.overlap = true ∨ Scan base s

theorem Scans.fine {base s : State} (scans : Scans base s) : Fine s := scans.imp id Scan.good

theorem Scans.moved {base s s' : State} (scans : Scans base s) (moved : Within s s') :
    Scans base s' := by
  rcases moved with overlap | ⟨good, later⟩
  · exact .inl overlap
  · rcases scans with overlap | scan
    · exact .inl (later.overlap.trans overlap)
    · exact .inr (scan.moved good later)

theorem Good.startRelease {s : State} (good : Good s) (collecting : s.collecting = true) {t : Nat}
    {target : TargetData} (member : t ∈ s.targets) (at_ : s.data[t]? = some target)
    (idle : Idle t s) :
    Good (s.startRelease t target.handle) := by
  have held_ : held target.handle s.log = true := by
    obtain ⟨found, found_, leased⟩ := good.targets.known t member
    rw [at_] at found_
    cases found_
    exact (good.logged.held _).mp leased
  refine ⟨good.table, good.handles, good.sane, good.targets, good.used, ?_, ?_, good.keepalive,
    fun _ => collecting⟩
  · exact ⟨good.fresh.next, good.fresh.records, good.fresh.callbacks, good.fresh.opened,
      good.fresh.calls, good.fresh.data⟩
  · exact good.logged.note (fun _ => rfl) (fun _ _ wrong => nomatch wrong)
      ⟨idle_iff.mpr idle, held_⟩

section Scanning

variable {base : State} (scans : base.collecting = false) (still : base.releasing = none)
include scans still

/-- The scan drops a record, unless that one is still being installed. -/
theorem Scan.drop {s : State} (scan : Scan base s) {index r : Nat} {record : Registration}
    (there : s.registrations[index]? = some r) (at_ : s.records[r]? = some record)
    (closing : record.closing = true) (idle : record.active = 0) (handle : record.handle = 0) :
    Scans base (s.eraseRegistration index r) := by
  obtain ⟨collecting, releasing⟩ := s.eraseRegistration_flags index r
  cases finished : record.installing with
  | true =>
      refine .inl ?_
      unfold State.eraseRegistration
      rw [at_]
      show (State.sweep r _).overlap = true
      rw [State.sweep_overlap, finished]
      exact Bool.or_true _
  | false =>
      refine .inr ⟨scan.good.eraseRegistration there at_ closing idle handle finished,
        collecting.trans scan.collecting, releasing.trans scan.releasing, ?_⟩
      rw [State.eraseRegistration_calm at_ finished]
      exact scan.later.eraseRegistration scan.good.calm there at_ idle handle finished scans still

/-- The host has removed the callback of the record the scan stands at. -/
theorem Scan.remove {s s' : State} (scan : Scan base s) (moved : Within s s') {index r : Nat}
    {record : Registration} (there : s.registrations[index]? = some r)
    (at_ : s.records[r]? = some record) (closing : record.closing = true)
    (idle : record.active = 0) (positive : record.handle ≠ 0) {result : KeelResult}
    (answer : released result = true) :
    Scans base ((s'.removed r record.handle result).eraseRegistration index r) := by
  rcases moved with overlap | ⟨good, later⟩
  · exact .inl (State.eraseRegistration_overlap ((s'.removed_overlap r _ _).trans overlap))
  · have scan' := scan.moved good later
    -- the record is where it was, and as idle
    have listed : record.listed = true := ((scan.good.sane r record at_).handle positive).1
    obtain ⟨record', at', kept⟩ := later.records r record at_ (.inr (.inr ⟨scan.collecting, listed⟩))
    have handle : record'.handle = record.handle := kept.scanned scan.collecting
    have there' : s'.registrations[index]? = some r := by
      obtain ⟨newer, appended⟩ := (later.appended scan.collecting).1
      rw [← appended, List.getElem?_append_left (List.getElem?_eq_some_iff.mp there).1]
      exact there
    have positive' : record'.handle ≠ 0 := handle ▸ positive
    have removed := good.removed at' positive' answer
    rw [handle] at removed
    have found : (s'.removed r record.handle result).records[r]? =
        some { record' with handle := 0 } := by
      have edited := State.edit_eq
        (s := { s' with callbacks := s'.callbacks.erase record.handle }) at'
        fun record => { record with handle := 0 }
      unfold State.removed
      rw [edited]
      exact lookup_self
    have listing : (s'.removed r record.handle result).registrations = s'.registrations := by
      unfold State.removed State.edit
      dsimp only
      cases s'.records[r]? <;> rfl
    have marks : (s'.removed r record.handle result).collecting = s'.collecting ∧
        (s'.removed r record.handle result).releasing = s'.releasing := by
      unfold State.removed State.edit
      dsimp only
      cases s'.records[r]? <;> exact ⟨rfl, rfl⟩
    have going : Scan base (s'.removed r record.handle result) := by
      refine ⟨removed, marks.1.trans scan'.collecting, marks.2.trans scan'.releasing, ?_⟩
      rw [State.removed_calm, ← handle]
      exact scan'.later.removed good.calm at' positive' scans result
    exact going.drop scans still (listing ▸ there') found (kept.closing closing)
      (kept.active.trans idle) rfl

theorem collectRegistrations_scans (rounds : Nat) : ∀ (index : Nat) (s : State), Scans base s →
    (collectRegistrations rounds index s).Wp Fine Within fun _ s' => Scans base s' := by
  induction rounds with
  | zero => exact fun _ _ going => going
  | succ rounds ih =>
      intro index s going
      unfold collectRegistrations
      refine wp_bind.mpr (wp_get.mpr ?_)
      dsimp only
      cases there : s.registrations[index]? with
      | none => exact going
      | some r =>
          dsimp only
          cases at_ : s.records[r]? with
          | none => exact ih _ _ going
          | some record =>
              refine wp_ite (fun _ => ih _ _ going) fun ready => ?_
              simp only [Bool.or_eq_true, Bool.not_eq_true', bne_iff_ne, ne_eq, not_or,
                Bool.not_eq_false, not_not] at ready
              obtain ⟨closing, idle⟩ := ready
              refine wp_ite (fun positive => ?_) fun absent => ?_
              · refine wp_bind.mpr (wp_enter.mpr ⟨going.fine, fun answer s' _ moved => ?_⟩)
                refine wp_ite (fun released => ?_) fun _ => ih _ _ (going.moved moved)
                refine wp_bind.mpr (wp_modify.mpr (wp_bind.mpr (wp_modify.mpr (ih _ _ ?_))))
                rcases going with overlap | scan
                · have overlap' : s'.overlap = true := by
                    rcases moved with overlap' | ⟨-, later⟩
                    · exact overlap'
                    · exact later.overlap.trans overlap
                  exact .inl (State.eraseRegistration_overlap
                    ((s'.removed_overlap r _ _).trans overlap'))
                · exact scan.remove scans still moved there at_ closing idle
                    (by simpa using positive) released
              · refine wp_bind.mpr (wp_modify.mpr (ih _ _ ?_))
                rcases going with overlap | scan
                · exact .inl (State.eraseRegistration_overlap overlap)
                · exact scan.drop scans still there at_ closing idle (by simpa using absent)

/-- What is left of a target whose release call has returned. -/
structure Spent (base : State) (index t : Nat) (target : TargetData) (s : State) : Prop where
  scan : Scan base s
  there : s.targets[index]? = some t
  data : s.data[t]? = some target
  idle : Idle t s

omit scans still in
theorem Scan.released {s s' : State} (scan : Scan base s) {index t : Nat} {target : TargetData}
    (there : s.targets[index]? = some t) (at_ : s.data[t]? = some target) (idle : Idle t s)
    (moved : Within (s.startRelease t target.handle) s') :
    s'.overlap = true ∨ Spent base index t target { s' with releasing := none } := by
  rcases moved with overlap | ⟨good, later⟩
  · exact .inl overlap
  · obtain ⟨newer, appended⟩ := (later.appended scan.collecting).2
    have appended : s.targets ++ newer = s'.targets := appended
    have idle' : Idle t (s.startRelease t target.handle) := ⟨idle.opened, idle.calls, idle.records⟩
    have member : t ∈ s.targets := List.mem_of_getElem? there
    have stays := (later.idle t target member at_ rfl idle').2
    have there' : s'.targets[index]? = some t := by
      rw [← appended, List.getElem?_append_left (List.getElem?_eq_some_iff.mp there).1]
      exact there
    have collecting : s'.collecting = true := later.collecting.trans scan.collecting
    have marked : Later base (s.startRelease t target.handle).calm :=
      scan.later.congr ⟨rfl, rfl, rfl, rfl, rfl, rfl, rfl, rfl, rfl, rfl⟩
    have calm : Good { s' with releasing := none } :=
      ⟨good.table, good.handles, good.sane, good.targets, good.used,
        ⟨good.fresh.next, good.fresh.records, good.fresh.callbacks, good.fresh.opened,
          good.fresh.calls, good.fresh.data⟩,
        good.logged, good.keepalive, fun wrong => absurd rfl wrong⟩
    exact .inr ⟨⟨calm, collecting, rfl, marked.trans later.calm⟩, there',
      later.data t target at_, stays.opened, stays.calls, stays.records⟩

theorem Spent.erase {s : State} {index t : Nat} {target : TargetData}
    (spent : Spent base index t target s) {result : KeelResult} (answer : released result = true) :
    Scan base (s.eraseTarget index target.handle result) :=
  ⟨spent.scan.good.eraseTarget spent.there spent.data spent.idle answer, spent.scan.collecting,
    spent.scan.releasing, spent.scan.later.eraseTarget scans still index target.handle result⟩

theorem collectTargets_scans (rounds : Nat) : ∀ (index : Nat) (s : State), Scans base s →
    (collectTargets rounds index s).Wp Fine Within fun _ s' => Scans base s' := by
  induction rounds with
  | zero => exact fun _ _ going => going
  | succ rounds ih =>
      intro index s going
      unfold collectTargets
      refine wp_bind.mpr (wp_get.mpr ?_)
      dsimp only
      cases there : s.targets[index]? with
      | none => exact going
      | some t =>
          dsimp only
          cases at_ : s.data[t]? with
          | none => exact ih _ _ going
          | some target =>
              refine wp_ite (fun _ => ih _ _ going) fun unused => ?_
              have idle : Idle t s := idle_iff.mp (by simpa using unused)
              refine wp_bind.mpr (wp_modify.mpr ?_)
              refine wp_bind.mpr (wp_enter.mpr ⟨?_, fun answer s' _ moved => ?_⟩)
              · rcases going with overlap | scan
                · exact .inl overlap
                · exact .inr (scan.good.startRelease scan.collecting (List.mem_of_getElem? there) at_
                    idle)
              · have returned : s'.overlap = true ∨
                    Spent base index t target { s' with releasing := none } := by
                  rcases going with overlap | scan
                  · rcases moved with overlap' | ⟨-, later⟩
                    · exact .inl overlap'
                    · exact .inl (later.overlap.trans overlap)
                  · exact scan.released there at_ idle moved
                refine wp_bind.mpr (wp_modify.mpr (wp_ite (fun answered => ?_) fun _ => ?_))
                · refine wp_bind.mpr (wp_modify.mpr (ih _ _ ?_))
                  exact returned.imp id fun spent => spent.erase scans still answered
                · exact ih _ _ (returned.imp id Spent.scan)

end Scanning

theorem Good.calm_eq {s : State} (good : Good s) (collecting : s.collecting = false) :
    s.calm = s := by
  have still : s.releasing = none := by
    by_contra some_
    rw [good.releasing some_] at collecting
    cases collecting
  unfold State.calm
  rw [← collecting, ← still]

theorem Good.empty {s : State} (good : Good s) :
    Good (if s.empty then { s with keepalive := false } else s) := by
  split
  · rename_i empty
    unfold State.empty at empty
    simp only [Bool.and_eq_true, List.isEmpty_iff] at empty
    exact ⟨good.table, good.handles, good.sane, good.targets, good.used,
      ⟨good.fresh.next, good.fresh.records, good.fresh.callbacks, good.fresh.opened,
        good.fresh.calls, good.fresh.data⟩,
      good.logged, fun left => absurd empty.1.2 left, good.releasing⟩
  · exact good

theorem collect_steady {rounds : Nat} {s : State} : Steady (collect rounds) s := by
  unfold collect
  refine steady_bind thread_steady fun _ s => steady_get ?_
  refine steady_ite (fun _ => steady_pure) fun idle => ?_
  have collecting : s.collecting = false := eq_false_of_ne_true idle
  intro base within
  refine wp_bind.mpr (wp_modify.mpr (wp_finally.mpr ?_))
  -- the scan is about the state it begins in; the base comes in at its end
  have going : Scans s.calm { s with collecting := true } := by
    refine within.fine.imp id fun good => ?_
    have still : s.releasing = none := by
      rw [← good.calm_eq collecting]
      rfl
    refine ⟨⟨good.table, good.handles, good.sane, good.targets, good.used, ?_, good.logged,
      good.keepalive, fun _ => rfl⟩, rfl, still, .refl _⟩
    exact ⟨good.fresh.next, good.fresh.records, good.fresh.callbacks, good.fresh.opened,
      good.fresh.calls, good.fresh.data⟩
  have ended : ∀ t, Scans s.calm t → Within base { t with collecting := false } := by
    intro t scans
    rcases scans with overlap | scan
    · exact .inl overlap
    · refine within.trans ?_
      rcases within with overlap | ⟨good, -⟩
      · exact .inl (scan.later.overlap.trans overlap)
      · have later := scan.later
        rw [good.calm_eq collecting] at later
        refine .inr ⟨?_, later.congr ?_⟩
        · exact ⟨scan.good.table, scan.good.handles, scan.good.sane, scan.good.targets,
            scan.good.used,
            ⟨scan.good.fresh.next, scan.good.fresh.records, scan.good.fresh.callbacks,
              scan.good.fresh.opened, scan.good.fresh.calls, scan.good.fresh.data⟩,
            scan.good.logged, scan.good.keepalive, fun some_ => absurd scan.releasing some_⟩
        · exact ⟨rfl, rfl, rfl, scan.releasing, rfl, rfl, rfl, rfl, rfl, rfl⟩
  refine wp_bind.mpr ((collectRegistrations_scans rfl rfl rounds 0 _ going).mono
    fun outcome t scans => ?_)
  cases outcome with
  | error text => exact ended t scans
  | ok _ =>
      refine wp_bind.mpr ((collectTargets_scans rfl rfl rounds 0 t scans).mono
        fun outcome u scans => ?_)
      cases outcome with
      | error text => exact ended u scans
      | ok _ =>
          refine wp_modify.mpr (ended _ ?_)
          rcases scans with overlap | scan
          · refine .inl ?_
            split
            · exact overlap
            · exact overlap
          · have good := scan.good.empty
            refine .inr ?_
            split at good
            · rename_i empty
              rw [if_pos empty]
              exact ⟨good, scan.collecting, scan.releasing, scan.later.congr
                ⟨rfl, rfl, rfl, rfl, rfl, rfl, rfl, rfl, rfl, rfl⟩⟩
            · rename_i left
              rw [if_neg left]
              exact scan

/-! ## Opening a target -/

theorem Good.unused {s : State} (good : Good s) {n : Nat} (above : s.next ≤ n) :
    s.records[n]? = none ∧ s.opened[n]? = none ∧ s.calls[n]? = none ∧ s.data[n]? = none ∧
      s.callbacks[n]? = none := by
  refine ⟨?_, ?_, ?_, ?_, ?_⟩
  · exact Tables.not_mem_iff.mp fun there => absurd (good.fresh.records n there) (by omega)
  · exact Tables.not_mem_iff.mp fun there => absurd (good.fresh.opened n there) (by omega)
  · exact Tables.not_mem_iff.mp fun there => absurd (good.fresh.calls n there) (by omega)
  · exact Tables.not_mem_iff.mp fun there => absurd (good.fresh.data n there) (by omega)
  · exact Tables.not_mem_iff.mp fun there => absurd (good.fresh.callbacks n there) (by omega)

theorem Good.openTarget {s : State} (good : Good s) {t : Nat} (member : t ∈ s.targets) :
    Good (s.openTarget t) where
  table := good.table
  handles := good.handles
  sane := good.sane
  targets := good.targets
  used := by
    refine ⟨good.used.records, fun o target at' => ?_, good.used.calls⟩
    have at' : (s.opened.insert s.next { data := t, pins := 0 })[o]? = some target := at'
    rw [Tables.getElem?_insert] at at'
    split at at'
    · cases at'
      exact member
    · exact good.used.opened o target at'
  fresh := by
    refine ⟨Nat.succ_pos _, fun q there => Nat.lt_succ_of_lt (good.fresh.records q there),
      fun h there => Nat.lt_succ_of_lt (good.fresh.callbacks h there), fun o there => ?_,
      fun c there => Nat.lt_succ_of_lt (good.fresh.calls c there),
      fun q there => Nat.lt_succ_of_lt (good.fresh.data q there)⟩
    rcases Tables.mem_insert_iff.mp there with rfl | was
    · exact Nat.lt_succ_self _
    · exact Nat.lt_succ_of_lt (good.fresh.opened o was)
  logged := good.logged
  keepalive _ := rfl
  releasing := good.releasing

theorem Later.openTarget {s : State} (good : Good s) {t : Nat}
    (other : ∀ target, s.data[t]? = some target → s.releasing ≠ some target.handle) :
    Later s (s.openTarget t) where
  overlap := rfl
  next := Nat.le_succ _
  collecting := rfl
  releasing := rfl
  data _ _ at_ := at_
  pinned o target at_ _ := by
    show (s.opened.insert s.next { data := t, pins := 0 })[o]? = some target
    rw [Tables.getElem?_insert]
    split
    · rename_i same
      rw [same, (good.unused (Nat.le_refl _)).2.1] at at_
      cases at_
    · exact at_
  records _ record at_ _ := ⟨record, at_, .refl _ record⟩
  gone _ _ absent := absent
  published _ record record' _ at_ at' published := by
    have at' : s.records[_]? = some record' := at'
    rw [at_] at at'
    cases at'
    exact published
  appended _ := ⟨List.prefix_refl _, List.prefix_refl _⟩
  idle q target member at_ releasing idle := by
    refine ⟨member, fun o object at' => ?_, idle.calls, idle.records⟩
    have at' : (s.opened.insert s.next { data := t, pins := 0 })[o]? = some object := at'
    rw [Tables.getElem?_insert] at at'
    split at at'
    · cases at'
      rintro rfl
      exact other target at_ releasing
    · exact idle.opened o object at'

theorem State.hasHandle_iff {s : State} {handle t : Nat} :
    s.hasHandle handle t = true ↔ ∃ target, s.data[t]? = some target ∧ target.handle = handle := by
  unfold State.hasHandle
  cases s.data[t]? with
  | none => simp
  | some target => simp

theorem State.existing_some {s : State} {handle t : Nat} (found : s.existing handle = some t) :
    t ∈ s.targets ∧ ∃ target, s.data[t]? = some target ∧ target.handle = handle :=
  ⟨List.mem_of_find?_eq_some found, State.hasHandle_iff.mp (List.find?_some found)⟩

theorem State.existing_none {s : State} {handle : Nat} (found : s.existing handle = none) {t : Nat}
    {target : TargetData} (member : t ∈ s.targets) (at_ : s.data[t]? = some target) :
    target.handle ≠ handle := fun same =>
  List.find?_eq_none.mp found t member (State.hasHandle_iff.mpr ⟨target, at_, same⟩)

/-- A target the host gave for the first time, and its first object. -/
theorem Good.addTarget {s : State} (good : Good s) {handle : Nat} {definition : Definition}
    (found : s.existing handle = none) :
    Good ((s.addTarget handle definition).openTarget s.next) := by
  have unused := good.unused (Nat.le_refl s.next)
  have new : s.next ∉ s.targets := by
    intro member
    obtain ⟨target, at_, -⟩ := good.targets.known _ member
    rw [unused.2.2.2.1] at at_
    cases at_
  have lookup : ∀ (q : Nat), (s.data.insert s.next
      ({ handle, prototype := definition.prototype } : TargetData))[q]? =
        if q = s.next then some { handle, prototype := definition.prototype } else s.data[q]? :=
    fun q => Tables.getElem?_insert ..
  have old : ∀ q ∈ s.targets, (s.data.insert s.next
      ({ handle, prototype := definition.prototype } : TargetData))[q]? = s.data[q]? := by
    intro q member
    rw [lookup, if_neg]
    rintro rfl
    exact new member
  have unleased : handle ∉ s.leases := by
    intro leased
    obtain ⟨t, member, target, at_, same⟩ := good.targets.leased handle leased
    exact State.existing_none found member at_ same
  refine ⟨good.table, good.handles, good.sane, ?_, ?_, ?_, ?_, fun _ => rfl, good.releasing⟩
  · refine ⟨?_, fun q member => ?_, fun h leased => ?_, fun q member q' member' a b at_ at' same => ?_⟩
    · exact List.nodup_append.mpr ⟨good.targets.nodup, List.nodup_singleton _, fun q member q' last =>
        (List.mem_singleton.mp last) ▸ fun same => new (same ▸ member)⟩
    · rcases List.mem_append.mp member with was | last
      · obtain ⟨target, at_, leased⟩ := good.targets.known q was
        exact ⟨target, (old q was).trans at_, List.mem_cons_of_mem _ leased⟩
      · obtain rfl := List.mem_singleton.mp last
        exact ⟨_, (lookup _).trans (if_pos rfl), List.mem_cons_self ..⟩
    · rcases List.mem_cons.mp leased with rfl | was
      · exact ⟨s.next, List.mem_append_right _ (List.mem_singleton_self _), _,
          (lookup _).trans (if_pos rfl), rfl⟩
      · obtain ⟨q, member, target, at_, same⟩ := good.targets.leased h was
        exact ⟨q, List.mem_append_left _ member, target, (old q member).trans at_, same⟩
    · -- the new target's handle is not that of an older one
      have fresh : ∀ p ∈ s.targets, ∀ target : TargetData, s.data[p]? = some target →
          target.handle ≠ handle := fun p member target at_ => State.existing_none found member at_
      have at_ : (s.data.insert s.next _)[q]? = some a := at_
      have at' : (s.data.insert s.next _)[q']? = some b := at'
      rcases List.mem_append.mp member with was | last
      · rw [old q was] at at_
        rcases List.mem_append.mp member' with was' | last'
        · rw [old q' was'] at at'
          exact good.targets.distinct q was q' was' a b at_ at' same
        · obtain rfl := List.mem_singleton.mp last'
          rw [lookup, if_pos rfl] at at'
          cases at'
          exact absurd same (fresh q was a at_)
      · obtain rfl := List.mem_singleton.mp last
        rw [lookup, if_pos rfl] at at_
        cases at_
        rcases List.mem_append.mp member' with was' | last'
        · rw [old q' was'] at at'
          exact absurd same.symm (fresh q' was' b at')
        · exact (List.mem_singleton.mp last').symm
  · refine ⟨fun r record at' => List.mem_append_left _ (good.used.records r record at'),
      fun o target at' => ?_, fun c t at' => List.mem_append_left _ (good.used.calls c t at')⟩
    have at' : (s.opened.insert (s.next + 1) { data := s.next, pins := 0 })[o]? = some target := at'
    rw [Tables.getElem?_insert] at at'
    split at at'
    · cases at'
      exact List.mem_append_right _ (List.mem_singleton_self _)
    · exact List.mem_append_left _ (good.used.opened o target at')
  · have further : ∀ {n : Nat}, n < s.next → n < s.next + 1 + 1 := by omega
    refine ⟨Nat.succ_pos _, fun q there => further (good.fresh.records q there),
      fun h there => further (good.fresh.callbacks h there), fun o there => ?_,
      fun c there => further (good.fresh.calls c there), fun q there => ?_⟩
    · rcases Tables.mem_insert_iff.mp there with rfl | was
      · exact Nat.lt_succ_self _
      · exact further (good.fresh.opened o was)
    · rcases Tables.mem_insert_iff.mp there with rfl | was
      · show s.next < s.next + 1 + 1
        omega
      · exact further (good.fresh.data q was)
  · refine ⟨⟨?_, good.logged.justified⟩, fun h => ?_, fun r h inside => ?_,
      fun r record at' nonzero => List.mem_cons_of_mem _ (good.logged.given r record at' nonzero)⟩
    · show held handle s.log = false
      exact eq_false_of_ne_true fun held_ => unleased ((good.logged.held _).mpr held_)
    · show h ∈ handle :: s.leases ↔ (handle == h || held h s.log) = true
      rw [List.mem_cons, good.logged.held h, Bool.or_eq_true, beq_iff_eq, eq_comm]
    · rcases List.mem_cons.mp inside with wrong | was
      · cases wrong
      · obtain ⟨nonzero, ⟨result, removed⟩ | known⟩ := good.logged.added r h was
        · exact ⟨nonzero, .inl ⟨result, List.mem_cons_of_mem _ removed⟩⟩
        · exact ⟨nonzero, .inr known⟩

theorem Later.addTarget {s : State} (good : Good s) {handle : Nat} {definition : Definition} :
    Later s ((s.addTarget handle definition).openTarget s.next) := by
  have unused := good.unused (Nat.le_refl s.next)
  have above := good.unused (Nat.le_succ s.next)
  refine ⟨rfl, ?_, rfl, rfl, fun q target at_ => ?_, fun o target at_ _ => ?_,
    fun _ record at_ _ => ⟨record, at_, .refl _ record⟩, fun _ _ absent => absent,
    fun r record record' _ at_ at' published => ?_,
    fun _ => ⟨List.prefix_refl _, List.prefix_append ..⟩, fun q target member at_ releasing idle => ?_⟩
  · show s.next ≤ s.next + 1 + 1
    omega
  · refine (Tables.getElem?_insert ..).trans ?_
    rw [if_neg]
    · exact at_
    · rintro rfl
      rw [unused.2.2.2.1] at at_
      cases at_
  · refine (Tables.getElem?_insert ..).trans ?_
    rw [if_neg]
    · exact at_
    · rintro rfl
      have at_ : s.opened[s.next + 1]? = some target := at_
      rw [above.2.1] at at_
      cases at_
  · have at' : s.records[r]? = some record' := at'
    rw [at_] at at'
    cases at'
    exact published
  · refine ⟨List.mem_append_left _ member, fun o object at' => ?_, idle.calls, idle.records⟩
    have at' : (s.opened.insert (s.next + 1) { data := s.next, pins := 0 })[o]? = some object := at'
    rw [Tables.getElem?_insert] at at'
    split at at'
    · cases at'
      rintro rfl
      rw [unused.2.2.2.1] at at_
      cases at_
    · exact idle.opened o object at'

theorem thread_bind {α : Type} {f : Unit → M α} {s : State} (rest : Steady (f ()) s) :
    Steady (thread >>= f) s := by
  intro base within
  refine wp_bind.mpr (wp_bind.mpr (wp_reply.mpr fun answer => ?_))
  refine wp_ite (fun _ => within) fun _ => rest base within

/-- A step that is only made where nothing has overlapped. -/
theorem steady_resolved {handle : Nat} {m : M Unit} {s : State}
    (spoiled : ∀ t, t.overlap = true → Steady m t)
    (step : Good s → s.releasing ≠ some handle → Steady m s) :
    Steady (Code.modify (State.resolved handle) >>= fun _ => m) s := by
  intro base within
  refine wp_bind.mpr (wp_modify.mpr ?_)
  show (m (s.resolved handle)).Wp Fine Within fun _ s' => Within base s'
  unfold State.resolved
  by_cases same : s.releasing = some handle
  · rw [if_pos same]
    exact spoiled _ rfl base (.inl rfl)
  · rw [if_neg same]
    rcases within with overlap | ⟨good, later⟩
    · exact spoiled s overlap base (.inl overlap)
    · exact step good same base (.inr ⟨good, later⟩)

theorem steady_spoiled {f : State → State} {s : State} (same : (f s).overlap = s.overlap)
    (overlap : s.overlap = true) : Steady (Code.modify f) s :=
  steady_modify fun _ => within_overlap same overlap

theorem open_steady {rounds : Nat} {definition : Definition} {s : State} :
    Steady (open_ rounds definition) s := by
  unfold open_
  refine thread_bind (steady_bind collect_steady fun _ s => steady_get ?_)
  refine steady_ite (fun _ => steady_throw) fun _ => ?_
  refine steady_ite (fun _ => steady_throw) fun _ => ?_
  refine steady_reply fun answer => ?_
  refine steady_ite (fun _ => steady_throw) fun _ => ?_
  refine steady_ite (fun _ => steady_throw) fun _ => ?_
  cases found : s.existing answer.handle with
  | some t =>
      obtain ⟨member, target, at_, handle⟩ := State.existing_some found
      refine steady_resolved (fun u overlap => ?_) fun good other => ?_
      · exact steady_ite (fun _ => steady_throw) fun _ => steady_spoiled rfl overlap
      · refine steady_ite (fun _ => steady_throw) fun _ => steady_modify fun _ => ?_
        refine .inr ⟨good.openTarget member, .openTarget good fun found found_ releasing => ?_⟩
        rw [at_] at found_
        cases found_
        exact other (handle ▸ releasing)
  | none =>
      refine steady_resolved (fun u overlap => ?_) fun good other => ?_
      · exact steady_then (fun _ => within_overlap rfl overlap) (steady_spoiled rfl overlap)
      · intro base within
        refine wp_bind.mpr (wp_modify.mpr (wp_modify.mpr (within.trans ?_)))
        exact .inr ⟨good.addTarget found, .addTarget good⟩

/-! ## Attaching a hook -/

theorem Good.addRegistration {s : State} (good : Good s) {t : Nat} (member : t ∈ s.targets) :
    Good (s.addRegistration t) := by
  have unused := (good.unused (Nat.le_refl s.next)).1
  have new : s.next ∉ s.registrations := by
    intro there
    obtain ⟨record, at_, -⟩ := (good.table.listed _).mp there
    rw [unused] at at_
    cases at_
  have lookup : ∀ q : Nat, (s.records.insert s.next ({ target := t } : Registration))[q]? =
      if q = s.next then some { target := t } else s.records[q]? := fun q => Tables.getElem?_insert ..
  have old : ∀ (q : Nat) (record : Registration), s.records[q]? = some record →
      (s.records.insert s.next ({ target := t } : Registration))[q]? = some record := by
    intro q record at_
    rw [lookup, if_neg]
    · exact at_
    · rintro rfl
      rw [unused] at at_
      cases at_
  have found : ∀ (q : Nat) (record : Registration),
      (s.records.insert s.next ({ target := t } : Registration))[q]? = some record →
        (q = s.next ∧ record = { target := t }) ∨ s.records[q]? = some record := by
    intro q record at'
    rcases lookup_insert at' with same | ⟨-, was⟩
    · exact .inl same
    · exact .inr was
  refine ⟨⟨?_, fun q => ?_⟩, ⟨fun h q at' => ?_, fun q record at' nonzero => ?_⟩,
    fun q record at' => ?_, good.targets, ⟨fun q record at' => ?_, good.used.opened, good.used.calls⟩,
    ?_, ⟨good.logged.justified, good.logged.held, fun q h inside => ?_,
      fun q record at' nonzero => ?_⟩, good.keepalive, good.releasing⟩
  · exact List.nodup_append.mpr ⟨good.table.nodup, List.nodup_singleton _, fun q member q' last =>
      (List.mem_singleton.mp last) ▸ fun same => new (same ▸ member)⟩
  · show q ∈ s.registrations ++ [s.next] ↔ _
    rw [List.mem_append, List.mem_singleton, good.table.listed q]
    constructor
    · rintro (⟨record, at_, listed⟩ | rfl)
      · exact ⟨record, old q record at_, listed⟩
      · exact ⟨{ target := t }, (lookup _).trans (if_pos rfl), rfl⟩
    · rintro ⟨record, at', listed⟩
      rcases found q record at' with ⟨rfl, -⟩ | was
      · exact .inr rfl
      · exact .inl ⟨record, was, listed⟩
  · obtain ⟨nonzero, record, at_, same⟩ := good.handles.known h q at'
    exact ⟨nonzero, record, old q record at_, same⟩
  · rcases found q record at' with ⟨-, rfl⟩ | was
    · exact absurd rfl nonzero
    · exact good.handles.given q record was nonzero
  · rcases found q record at' with ⟨-, rfl⟩ | was
    · exact ⟨fun _ => ⟨rfl, rfl, rfl, rfl⟩, fun active => absurd rfl active,
        fun handle => absurd rfl handle, rfl⟩
    · exact good.sane q record was
  · rcases found q record at' with ⟨-, rfl⟩ | was
    · exact member
    · exact good.used.records q record was
  · refine ⟨Nat.succ_pos _, fun q there => ?_, fun h there => Nat.lt_succ_of_lt
      (good.fresh.callbacks h there), fun o there => Nat.lt_succ_of_lt (good.fresh.opened o there),
      fun c there => Nat.lt_succ_of_lt (good.fresh.calls c there),
      fun q there => Nat.lt_succ_of_lt (good.fresh.data q there)⟩
    rcases Tables.mem_insert_iff.mp there with rfl | was
    · exact Nat.lt_succ_self _
    · exact Nat.lt_succ_of_lt (good.fresh.records q was)
  · obtain ⟨nonzero, removed | ⟨record, at_, same⟩⟩ := good.logged.added q h inside
    · exact ⟨nonzero, .inl removed⟩
    · exact ⟨nonzero, .inr ⟨record, old q record at_, same⟩⟩
  · rcases found q record at' with ⟨-, rfl⟩ | was
    · exact absurd rfl nonzero
    · exact good.logged.given q record was nonzero

theorem Later.addRegistration {s : State} (good : Good s) {o t : Nat} {target : Target}
    (used : s.opened[o]? = some target) (same : target.data = t) :
    Later s (s.addRegistration t) := by
  have unused := (good.unused (Nat.le_refl s.next)).1
  have other : ∀ q : Nat, q < s.next →
      (s.records.insert s.next ({ target := t } : Registration))[q]? = s.records[q]? :=
    fun q below => lookup_other (Nat.ne_of_lt below)
  refine ⟨rfl, Nat.le_succ _, rfl, rfl, fun _ _ at_ => at_, fun _ _ at_ _ => at_,
    fun r record at_ _ => ⟨record, (other r (good.below at_)).trans at_, .refl _ record⟩,
    fun r below absent => (other r below).trans absent, fun r record record' below at_ at' published => ?_,
    fun _ => ⟨List.prefix_append .., List.prefix_refl _⟩, fun q found member at_ releasing idle => ?_⟩
  · rw [show (s.addRegistration t).records[r]? = s.records[r]? from other r below, at_] at at'
    cases at'
    exact published
  · refine ⟨member, idle.opened, idle.calls, fun r record at' => ?_⟩
    rcases lookup_insert at' with ⟨-, rfl⟩ | ⟨-, was⟩
    · exact same ▸ idle.opened o target used
    · exact idle.records r record was

/-- The host's add call has succeeded. -/
theorem Good.installed {s : State} (good : Good s) {r : Nat} {record : Registration}
    (at_ : s.records[r]? = some record) (installing : record.installing = true) :
    Good (s.installed r) := by
  obtain ⟨listed, handle, owned, unpublished⟩ := (good.sane r record at_).installing installing
  have unused := (good.unused (Nat.le_refl s.next)).2.2.2.2
  have edited := State.edit_eq
    (s := { s with callbacks := s.callbacks.insert s.next r, next := s.next + 1 }) at_
    fun record => { record with installing := false, published := true, handle := s.next }
  have other : ∀ (q : Nat) (found : Registration), s.records[q]? = some found → found.handle ≠ 0 →
      q ≠ r := by
    rintro q found found_ nonzero rfl
    rw [at_] at found_
    cases found_
    exact nonzero handle
  unfold State.installed
  rw [edited]
  refine ⟨good.table.insert at_ rfl, ⟨fun h q at' => ?_, fun q found at' nonzero => ?_⟩,
    fun q found at' => ?_, good.targets, good.used.insert (good.used.records r record at_), ?_,
    ⟨⟨trivial, good.logged.justified⟩, good.logged.held, fun q h inside => ?_,
      fun q found at' nonzero => ?_⟩, good.keepalive, good.releasing⟩
  · have at' : (s.callbacks.insert s.next r)[h]? = some q := at'
    rw [Tables.getElem?_insert] at at'
    split at at'
    · rename_i new
      cases at'
      exact ⟨new.symm ▸ Nat.ne_of_gt good.fresh.next, _, lookup_self, new.symm⟩
    · obtain ⟨nonzero, found, found_, same⟩ := good.handles.known h q at'
      exact ⟨nonzero, found,
        (lookup_other (other q found found_ (same.symm ▸ nonzero))).trans found_, same⟩
  · show (s.callbacks.insert s.next r)[found.handle]? = some q
    rw [Tables.getElem?_insert]
    rcases lookup_insert at' with ⟨rfl, rfl⟩ | ⟨-, was⟩
    · exact if_pos rfl
    · have there := good.handles.given q found was nonzero
      rw [if_neg]
      · exact there
      · intro same
        rw [same, unused] at there
        cases there
  · rcases lookup_insert at' with ⟨-, rfl⟩ | ⟨-, was⟩
    · exact ⟨fun wrong => (by cases wrong), fun _ => listed, fun _ => ⟨listed, rfl⟩,
        (good.sane r record at_).retires⟩
    · exact good.sane q found was
  · refine ⟨Nat.succ_pos _, fun q there => Nat.lt_succ_of_lt ?_, fun h there => ?_,
      fun o there => Nat.lt_succ_of_lt (good.fresh.opened o there),
      fun c there => Nat.lt_succ_of_lt (good.fresh.calls c there),
      fun q there => Nat.lt_succ_of_lt (good.fresh.data q there)⟩
    · rcases Tables.mem_insert_iff.mp there with rfl | was
      · exact good.below at_
      · exact good.fresh.records q was
    · rcases Tables.mem_insert_iff.mp there with rfl | was
      · exact Nat.lt_succ_self _
      · exact Nat.lt_succ_of_lt (good.fresh.callbacks h was)
  · rcases List.mem_cons.mp inside with new | was
    · cases new
      exact ⟨Nat.ne_of_gt good.fresh.next, .inr ⟨_, lookup_self, rfl⟩⟩
    · obtain ⟨nonzero, ⟨result, removed⟩ | ⟨found, found_, same⟩⟩ := good.logged.added q h was
      · exact ⟨nonzero, .inl ⟨result, List.mem_cons_of_mem _ removed⟩⟩
      · exact ⟨nonzero, .inr ⟨found,
          (lookup_other (other q found found_ (same.symm ▸ nonzero))).trans found_, same⟩⟩
  · rcases lookup_insert at' with ⟨rfl, rfl⟩ | ⟨-, was⟩
    · exact List.mem_cons_self ..
    · exact List.mem_cons_of_mem _ (good.logged.given q found was nonzero)

/-- A record that is new to the base may change. -/
theorem Later.edit_new {base s : State} (later : Later base s) {r : Nat} {record : Registration}
    (at_ : s.records[r]? = some record) {f : Registration → Registration}
    (target : (f record).target = record.target) (absent : base.records[r]? = none)
    (new : base.next ≤ r) : Later base (s.edit r f) := by
  refine later.edit at_ target (fun record₀ was _ _ => ?_) fun below => absurd below (by omega)
  rw [absent] at was
  cases was

theorem Later.further {base s : State} (later : Later base s) {n : Nat} (above : s.next ≤ n)
    (callbacks : Std.ExtTreeMap Nat Nat) : Later base { s with callbacks, next := n } :=
  ⟨later.overlap, later.next.trans above, later.collecting, later.releasing, later.data,
    later.pinned, later.records, later.gone, later.published, later.appended,
    fun t target member at_ releasing idle =>
      have ⟨member', idle'⟩ := later.idle t target member at_ releasing idle
      ⟨member', idle'.opened, idle'.calls, idle'.records⟩⟩

theorem Later.installed {base s : State} (later : Later base s) {r : Nat} {record : Registration}
    (at_ : s.records[r]? = some record) (absent : base.records[r]? = none) (new : base.next ≤ r) :
    Later base (s.installed r) := by
  have further := later.further (Nat.le_succ s.next) (s.callbacks.insert s.next r)
  refine (further.edit_new (f := fun record =>
    { record with installing := false, published := true, handle := s.next }) at_ rfl absent
    new).congr ?_
  exact ⟨rfl, rfl, rfl, rfl, rfl, rfl, rfl, rfl, rfl, rfl⟩

/-- The hook object of a record whose add call is over goes. -/
theorem Good.disown {s : State} (good : Good s) {r : Nat}
    (finished : ∀ record : Registration, s.records[r]? = some record → record.installing = false) :
    Good (s.disown r) := by
  unfold State.disown
  refine Good.sweep ?_ r
  cases at_ : s.records[r]? with
  | none =>
      unfold State.edit
      rw [at_]
      exact good
  | some record =>
      have sane := good.sane r record at_
      refine good.edit at_ ⟨fun wrong => ?_, sane.active, sane.handle, sane.retires⟩ rfl rfl rfl
      have wrong : record.installing = true := wrong
      rw [finished record at_] at wrong
      cases wrong

theorem Later.disown {base s : State} (later : Later base s) (good : Good s) {r : Nat}
    (finished : ∀ record : Registration, s.records[r]? = some record → record.installing = false)
    (mine : (base.records[r]? = none ∧ base.next ≤ r) ∨
      ∀ record : Registration, s.records[r]? = some record → record.published = true) :
    Later base (s.disown r) := by
  unfold State.disown
  cases at_ : s.records[r]? with
  | none =>
      have same : (s.edit r fun record => { record with owned := false }) = s := by
        unfold State.edit
        rw [at_]
      rw [same]
      exact later.sweep good r
  | some record =>
      have sane := good.sane r record at_
      have edited : Good (s.edit r fun record => { record with owned := false }) := by
        refine good.edit at_ ⟨fun wrong => ?_, sane.active, sane.handle, sane.retires⟩ rfl rfl rfl
        have wrong : record.installing = true := wrong
        rw [finished record at_] at wrong
        cases wrong
      refine Later.sweep ?_ edited r
      rcases mine with ⟨absent, new⟩ | published
      · exact later.edit_new at_ rfl absent new
      · refine later.edit at_ rfl (fun record₀ _ _ kept => ?_) fun _ => id
        refine ⟨kept.active, kept.target, kept.closing, kept.listed, kept.scanned, fun own => ?_⟩
        have unpublished := (kept.unpublished own).2.1
        rw [published record at_] at unpublished
        cases unpublished

theorem State.disown_overlap (r : Nat) (s : State) : (s.disown r).overlap = s.overlap := by
  unfold State.disown
  rw [State.sweep_overlap, State.edit_overlap]

theorem install_steady {rounds o t : Nat} {s : State} {target : Target}
    (used : s.opened[o]? = some target) (same : target.data = t) : Steady (install rounds t) s := by
  unfold install
  refine steady_get ?_
  intro base within
  refine wp_bind.mpr (wp_modify.mpr (wp_bind.mpr (wp_enter.mpr ⟨?_, fun answer u _ moved => ?_⟩)))
  · refine within.fine.imp id fun good => ?_
    exact good.addRegistration (same ▸ good.used.opened o target used)
  -- what is known of the new record when the host returns
  have back : u.overlap = true ∨ (Good s ∧ Good u ∧ Later s u ∧
      ∃ record : Registration, u.records[s.next]? = some record ∧ record.installing = true ∧
        record.owned = true ∧ record.published = false) := by
    rcases moved with overlap | ⟨good, later⟩
    · exact .inl overlap
    · rcases within.fine with overlap | before
      · exact .inl (later.overlap.trans overlap)
      · obtain ⟨record, at_, kept⟩ := later.records s.next { target := t } lookup_self
          (.inr (.inl ⟨rfl, rfl⟩))
        obtain ⟨owned, published, installing, -⟩ := kept.unpublished ⟨rfl, rfl⟩
        exact .inr ⟨before, good, (Later.addRegistration before used same).trans later, record, at_,
          installing, owned, published⟩
  refine wp_ite (fun _ => ?_) fun _ => ?_
  · refine wp_modify.mpr ?_
    rcases back with overlap | ⟨before, good, later, record, at_, installing, -, -⟩
    · refine .inl ?_
      show (State.edit s.next _ _).overlap = true
      rw [State.edit_overlap]
      exact overlap
    · refine within.trans (.inr ⟨good.installed at_ installing, ?_⟩)
      exact later.installed at_ (before.unused (Nat.le_refl _)).1 (Nat.le_refl _)
  · refine wp_bind.mpr (wp_modify.mpr (wp_finally.mpr ?_))
    have rest : Steady (do close s.next; collect rounds; throw "Attach hook" : M Unit)
        (u.uninstalled s.next) :=
      steady_bind close_steady fun _ _ => steady_bind collect_steady fun _ _ => steady_throw
    have fine : Fine (u.uninstalled s.next) := by
      rcases back with overlap | ⟨-, good, -, record, at_, -, -, -⟩
      · exact .inl ((u.edit_overlap _ _).trans overlap)
      · have sane := good.sane _ record at_
        exact .inr (good.edit at_ ⟨fun wrong => (by cases wrong), sane.active, sane.handle,
          sane.retires⟩ rfl rfl rfl)
    refine (rest _ (.refl fine)).mono fun outcome v ended => ?_
    rcases ended with overlap | ⟨good', later'⟩
    · exact .inl ((v.disown_overlap _).trans overlap)
    · rcases back with overlap | ⟨before, good, later, record, at_, installing, owned, unpublished⟩
      · have overlap' : v.overlap = true :=
          later'.overlap.trans ((u.edit_overlap _ _).trans overlap)
        exact .inl ((v.disown_overlap _).trans overlap')
      · have absent := (before.unused (Nat.le_refl s.next)).1
        have answered := State.edit_at at_ fun record => { record with installing := false }
        obtain ⟨found, found_, kept⟩ := later'.records s.next _ answered
          (.inr (.inl ⟨owned, unpublished⟩))
        have finished : ∀ record : Registration, v.records[s.next]? = some record →
            record.installing = false := by
          intro other other_
          rw [found_] at other_
          cases other_
          exact (kept.unpublished ⟨owned, unpublished⟩).2.2.1
        have since : Later s v := (later.edit_new at_ rfl absent (Nat.le_refl _)).trans later'
        refine within.trans (.inr ⟨good'.disown finished, ?_⟩)
        exact since.disown good' finished (.inl ⟨absent, Nat.le_refl _⟩)

theorem State.pin_eq {s : State} {o : Nat} {target : Target} (at_ : s.opened[o]? = some target)
    (f : Nat → Nat) :
    s.pin o f = { s with opened := s.opened.insert o { target with pins := f target.pins } } := by
  unfold State.pin
  rw [at_]

theorem State.pin_cases (o : Nat) (f : Nat → Nat) (s : State) :
    s.pin o f = s ∨ ∃ target, s.opened[o]? = some target ∧
      s.pin o f = { s with opened := s.opened.insert o { target with pins := f target.pins } } := by
  cases at_ : s.opened[o]? with
  | none =>
      left
      unfold State.pin
      rw [at_]
  | some target => exact .inr ⟨target, rfl, State.pin_eq at_ f⟩

theorem State.pin_overlap (o : Nat) (f : Nat → Nat) (s : State) :
    (s.pin o f).overlap = s.overlap := by
  obtain same | ⟨_, -, same⟩ := s.pin_cases o f <;> rw [same]

theorem Good.pin {s : State} (good : Good s) (o : Nat) (f : Nat → Nat) : Good (s.pin o f) := by
  obtain same | ⟨target, at_, same⟩ := s.pin_cases o f
  · rw [same]
    exact good
  · rw [same]
    refine ⟨good.table, good.handles, good.sane, good.targets,
      ⟨good.used.records, fun q found at' => ?_, good.used.calls⟩,
      ⟨good.fresh.next, good.fresh.records, good.fresh.callbacks, fun q there => ?_,
        good.fresh.calls, good.fresh.data⟩,
      good.logged, good.keepalive, good.releasing⟩
    · have at' : (s.opened.insert o { target with pins := f target.pins })[q]? = some found := at'
      rw [Tables.getElem?_insert] at at'
      split at at'
      · cases at'
        exact good.used.opened o target at_
      · exact good.used.opened q found at'
    · rcases Tables.mem_insert_iff.mp there with rfl | was
      · exact good.fresh.opened q (Tables.mem_iff.mpr ⟨target, at_⟩)
      · exact good.fresh.opened q was

theorem Idle.pin {t : Nat} {s : State} (idle : Idle t s) (o : Nat) (f : Nat → Nat) :
    Idle t (s.pin o f) := by
  obtain same | ⟨target, at_, same⟩ := s.pin_cases o f
  · rw [same]
    exact idle
  · rw [same]
    refine ⟨fun q found at' => ?_, idle.calls, idle.records⟩
    have at' : (s.opened.insert o { target with pins := f target.pins })[q]? = some found := at'
    rw [Tables.getElem?_insert] at at'
    split at at'
    · cases at'
      exact idle.opened o target at_
    · exact idle.opened q found at'

/-- The object is pinned while `Attach` runs. -/
theorem Later.pinned_ {s t : State} {o : Nat} {target : Target} (at_ : s.opened[o]? = some target)
    (later : Later (s.pin o (· + 1)) t) : Later s (t.pin o (· - 1)) := by
  have began := State.pin_eq at_ (· + 1)
  have kept : t.opened[o]? = some { target with pins := target.pins + 1 } := by
    refine later.pinned o _ ?_ (Nat.succ_ne_zero _)
    rw [began]
    exact (Tables.getElem?_insert ..).trans (if_pos rfl)
  have ended := State.pin_eq kept (· - 1)
  rw [ended]
  rw [began] at later
  refine ⟨later.overlap, later.next, later.collecting, later.releasing, later.data,
    fun q found was pins => ?_, later.records, later.gone, later.published, later.appended,
    fun q found member data releasing idle => ?_⟩
  · refine (Tables.getElem?_insert ..).trans ?_
    by_cases same : q = o
    · subst same
      rw [at_] at was
      cases was
      exact if_pos rfl
    · rw [if_neg same]
      refine later.pinned q found ?_ pins
      exact (Tables.getElem?_insert ..).trans ((if_neg same).trans was)
  · have idle' : Idle q { s with opened := s.opened.insert o { target with pins := target.pins + 1 } } := by
      rw [← began]
      exact idle.pin o _
    obtain ⟨member', after⟩ := later.idle q found member data releasing idle'
    refine ⟨member', ?_⟩
    have pinned := after.pin o (· - 1)
    rw [ended] at pinned
    exact pinned

theorem attach_steady {rounds o : Nat} {valid : Bool} {s : State}
    (there : (s.opened[o]?).isSome = true) : Steady (attach rounds o valid) s := by
  obtain ⟨target, at_⟩ := Option.isSome_iff_exists.mp there
  unfold attach
  refine thread_bind (steady_bracket (fun fine => ?_) ?_ fun fine t later => ?_)
  · exact fine.imp (fun overlap => (s.pin_overlap o _).trans overlap) fun good => good.pin o _
  · refine steady_bind collect_steady fun _ u => steady_get ?_
    cases used : u.opened[o]? with
    | none => exact steady_throw
    | some target =>
        refine steady_ite (fun _ => steady_throw) fun _ => ?_
        refine steady_ite (fun _ => steady_throw) fun _ => ?_
        exact install_steady used rfl
  · rcases later with overlap | ⟨good, later⟩
    · exact .inl ((t.pin_overlap o _).trans overlap)
    · exact .inr ⟨good.pin o _, .pinned_ at_ later⟩

/-! ## The other operations -/

theorem destroyHook_steady {r : Nat} {s : State} {record : Registration}
    (at_ : s.records[r]? = some record) (published : record.published = true) :
    Steady (destroyHook r) s := by
  intro base within
  refine wp_finally.mpr ((close_steady s (.refl within.fine)).mono fun outcome t later => ?_)
  refine within.trans ?_
  rcases later with overlap | ⟨good, later⟩
  · exact .inl ((t.disown_overlap r).trans overlap)
  · rcases within.fine with overlap | before
    · exact .inl ((t.disown_overlap r).trans (later.overlap.trans overlap))
    · have still : ∀ found : Registration, t.records[r]? = some found → found.published = true :=
        fun found found_ => later.published r record found (before.below at_) at_ found_ published
      have finished : ∀ found : Registration, t.records[r]? = some found →
          found.installing = false := by
        intro found found_
        refine eq_false_of_ne_true fun installing => ?_
        have unpublished := ((good.sane r found found_).installing installing).2.2.2
        rw [still found found_] at unpublished
        cases unpublished
      exact .inr ⟨good.disown finished, later.disown good finished (.inr still)⟩

theorem enable_steady {r : Nat} {enabled : Bool} {s : State} : Steady (enable r enabled) s := by
  unfold enable
  refine thread_bind (steady_get ?_)
  cases at_ : s.records[r]? with
  | none => exact steady_throw
  | some record =>
      refine steady_ite (fun _ => steady_throw) fun _ => steady_reply fun answer => ?_
      refine steady_ite (fun _ => steady_throw) fun _ => steady_modify ?_
      refine within_step (fun overlap => (s.edit_overlap r _).trans overlap) fun good => .inr ?_
      have sane := good.sane r record at_
      refine ⟨good.edit at_ ⟨sane.installing, sane.active, sane.handle, sane.retires⟩ rfl rfl rfl, ?_⟩
      refine (Later.refl s).edit_kept at_ (fun _ => ?_) id
      exact ⟨rfl, rfl, id, fun _ => rfl, fun _ => rfl, fun own => ⟨own.1, own.2, rfl, rfl⟩⟩

/-- Objects that are not records come and go. -/
theorem Later.others {s : State} {opened : Std.ExtTreeMap Nat Target}
    {calls : Std.ExtTreeMap Nat Nat} {n : Nat} (above : s.next ≤ n)
    (pinned : ∀ (o : Nat) (target : Target), s.opened[o]? = some target → target.pins ≠ 0 →
      opened[o]? = some target)
    (openedIdle : ∀ t, Idle t s → ∀ (o : Nat) (target : Target), opened[o]? = some target →
      target.data ≠ t)
    (callsIdle : ∀ t, Idle t s → ∀ c t' : Nat, calls[c]? = some t' → t' ≠ t) :
    Later s { s with opened, calls, next := n } where
  overlap := rfl
  next := above
  collecting := rfl
  releasing := rfl
  data _ _ at_ := at_
  pinned := pinned
  records _ record at_ _ := ⟨record, at_, .refl _ record⟩
  gone _ _ absent := absent
  published r record record' _ at_ at' published := by
    have at' : s.records[r]? = some record' := at'
    rw [at_] at at'
    cases at'
    exact published
  appended _ := ⟨List.prefix_refl _, List.prefix_refl _⟩
  idle t _ member _ _ idle := ⟨member, openedIdle t idle, callsIdle t idle, idle.records⟩

theorem prepare_steady {o : Nat} {s : State} : Steady (prepare o) s := by
  unfold prepare
  refine thread_bind (steady_get ?_)
  cases at_ : s.opened[o]? with
  | none => exact steady_throw
  | some target =>
      refine steady_reply fun answer => steady_ite (fun _ => steady_throw) fun _ => ?_
      refine steady_modify (within_step id fun good => .inr ⟨?_, ?_⟩)
      · refine ⟨good.table, good.handles, good.sane, good.targets,
          ⟨good.used.records, good.used.opened, fun c t at' => ?_⟩, ?_, good.logged,
          good.keepalive, good.releasing⟩
        · have at' : (s.calls.insert s.next target.data)[c]? = some t := at'
          rw [Tables.getElem?_insert] at at'
          split at at'
          · cases at'
            exact good.used.opened o target at_
          · exact good.used.calls c t at'
        · refine ⟨Nat.succ_pos _, fun q there => Nat.lt_succ_of_lt (good.fresh.records q there),
            fun h there => Nat.lt_succ_of_lt (good.fresh.callbacks h there),
            fun o there => Nat.lt_succ_of_lt (good.fresh.opened o there), fun c there => ?_,
            fun q there => Nat.lt_succ_of_lt (good.fresh.data q there)⟩
          rcases Tables.mem_insert_iff.mp there with rfl | was
          · exact Nat.lt_succ_self _
          · exact Nat.lt_succ_of_lt (good.fresh.calls c was)
      · refine Later.others (Nat.le_succ _) (fun _ _ at_ _ => at_)
          (fun t idle => idle.opened) fun t idle c t' at' => ?_
        rw [Tables.getElem?_insert] at at'
        split at at'
        · cases at'
          exact idle.opened o target at_
        · exact idle.calls c t' at'

theorem dropTarget_within {o : Nat} {s : State}
    (unpinned : (s.opened[o]?).all (fun target => target.pins == 0) = true) (fine : Fine s) :
    Within s { s with opened := s.opened.erase o } := by
  refine within_step id (fun good => .inr ⟨?_, ?_⟩) fine
  · refine ⟨good.table, good.handles, good.sane, good.targets,
      ⟨good.used.records, fun q found at' => ?_, good.used.calls⟩,
      ⟨good.fresh.next, good.fresh.records, good.fresh.callbacks, fun q there => ?_,
        good.fresh.calls, good.fresh.data⟩, good.logged, good.keepalive, good.releasing⟩
    · have at' : (s.opened.erase o)[q]? = some found := at'
      rw [Tables.getElem?_erase] at at'
      split at at'
      · cases at'
      · exact good.used.opened q found at'
    · exact good.fresh.opened q (Tables.mem_erase_iff.mp there).2
  · refine Later.others (Nat.le_refl _) (fun q target at_ pins => ?_)
      (fun t idle q found at' => ?_) fun t idle => idle.calls
    · rw [Tables.getElem?_erase, if_neg]
      · exact at_
      · rintro rfl
        rw [at_] at unpinned
        exact pins (by simpa using unpinned)
    · rw [Tables.getElem?_erase] at at'
      split at at'
      · cases at'
      · exact idle.opened q found at'

theorem dropCall_within {c : Nat} {s : State} (fine : Fine s) :
    Within s { s with calls := s.calls.erase c } := by
  refine within_step id (fun good => .inr ⟨?_, ?_⟩) fine
  · refine ⟨good.table, good.handles, good.sane, good.targets,
      ⟨good.used.records, good.used.opened, fun q t at' => ?_⟩,
      ⟨good.fresh.next, good.fresh.records, good.fresh.callbacks, good.fresh.opened,
        fun q there => ?_, good.fresh.data⟩, good.logged, good.keepalive, good.releasing⟩
    · have at' : (s.calls.erase c)[q]? = some t := at'
      rw [Tables.getElem?_erase] at at'
      split at at'
      · cases at'
      · exact good.used.calls q t at'
    · exact good.fresh.calls q (Tables.mem_erase_iff.mp there).2
  · refine Later.others (Nat.le_refl _) (fun _ _ at_ _ => at_) (fun t idle => idle.opened)
      fun t idle q t' at' => ?_
    rw [Tables.getElem?_erase] at at'
    split at at'
    · cases at'
    · exact idle.calls q t' at'

theorem entities_within {n : Nat} {s : State} (fine : Fine s) :
    Within s { s with entities := n } := by
  refine within_step id (fun good => .inr ⟨?_, ?_⟩) fine
  · exact ⟨good.table, good.handles, good.sane, good.targets, good.used,
      ⟨good.fresh.next, good.fresh.records, good.fresh.callbacks, good.fresh.opened,
        good.fresh.calls, good.fresh.data⟩, good.logged, good.keepalive, good.releasing⟩
  · exact (Later.refl s).congr ⟨rfl, rfl, rfl, rfl, rfl, rfl, rfl, rfl, rfl, rfl⟩

/-! ## Dispatches -/

/-- The host's user data is a record that is in the table. -/
theorem Good.dispatchable {s : State} (good : Good s) {r : Nat} (given : s.dispatchable r) :
    ∃ record : Registration, s.records[r]? = some record ∧ record.listed = true := by
  rcases given with known | installing
  · obtain ⟨⟨h, q⟩, member, same⟩ := List.mem_map.mp known
    obtain rfl : q = r := same
    obtain ⟨nonzero, record, at_, handle⟩ := good.handles.known h q (Tables.mem_toList.mp member)
    exact ⟨record, at_, ((good.sane q record at_).handle (handle.symm ▸ nonzero)).1⟩
  · obtain ⟨record, at_, now⟩ := (Option.any_eq_true ..).mp installing
    exact ⟨record, at_, ((good.sane r record at_).installing now).1⟩

theorem Good.begin_ {s : State} (good : Good s) {r : Nat} {record : Registration}
    (at_ : s.records[r]? = some record) (listed : record.listed = true) : Good (s.begin_ r) := by
  have sane := good.sane r record at_
  have edited := good.edit at_ (f := fun record => { record with active := record.active + 1 })
    ⟨sane.installing, fun _ => listed, sane.handle, sane.retires⟩ rfl rfl rfl
  exact ⟨edited.table, edited.handles, edited.sane, edited.targets, edited.used,
    ⟨edited.fresh.next, edited.fresh.records, edited.fresh.callbacks, edited.fresh.opened,
      edited.fresh.calls, edited.fresh.data⟩, edited.logged, edited.keepalive, edited.releasing⟩

/-- The record a dispatch is in is counted down again on the way out. -/
theorem Later.dispatched {s t : State} {r : Nat} {record : Registration}
    (at_ : s.records[r]? = some record) (good : Good t) (later : Later (s.begin_ r) t) :
    Good (t.end_ r) ∧ Later s (t.end_ r) := by
  have began := State.edit_eq at_ fun record => { record with active := record.active + 1 }
  have within_ : (s.begin_ r).records[r]? = some { record with active := record.active + 1 } :=
    State.edit_at at_ fun record => { record with active := record.active + 1 }
  have collecting : (s.begin_ r).collecting = s.collecting := by
    show (s.edit r _).collecting = _
    rw [began]
  obtain ⟨found, found_, kept⟩ := later.records r _ within_ (.inl (Nat.succ_ne_zero _))
  rw [collecting] at kept
  have active : found.active = record.active + 1 := kept.active
  have sane := good.sane r found found_
  have listed : found.listed = true := sane.active (by omega)
  have edited : Good (t.edit r fun record => { record with active := record.active - 1 }) :=
    good.edit found_ ⟨sane.installing, fun _ => listed, sane.handle, sane.retires⟩ rfl rfl rfl
  have ended := State.edit_eq found_ fun record => { record with active := record.active - 1 }
  constructor
  · exact ⟨edited.table, edited.handles, edited.sane, edited.targets, edited.used,
      ⟨edited.fresh.next, edited.fresh.records, edited.fresh.callbacks, edited.fresh.opened,
        edited.fresh.calls, edited.fresh.data⟩, edited.logged, edited.keepalive, edited.releasing⟩
  · have same : Later (s.edit r fun record => { record with active := record.active + 1 }) t := by
      exact ⟨later.overlap, later.next, later.collecting, later.releasing, later.data,
        later.pinned, later.records, later.gone, later.published, later.appended,
        fun q target member data releasing idle =>
          later.idle q target member data releasing ⟨idle.opened, idle.calls, idle.records⟩⟩
    rw [began] at same
    have counted : Later s (t.edit r fun record => { record with active := record.active - 1 }) := by
      rw [ended]
      refine ⟨same.overlap, same.next, same.collecting, same.releasing, same.data, same.pinned,
        fun q record₀ was held => ?_, fun q below absent => ?_,
        fun q record₀ record' below was at' published => ?_, same.appended,
        fun q target member data releasing idle => ?_⟩
      · by_cases this : q = r
        · subst this
          rw [at_] at was
          cases was
          refine ⟨_, lookup_self, ?_, kept.target, kept.closing, fun _ => ?_, kept.scanned,
            kept.unpublished⟩
          · show found.active - 1 = record.active
            omega
          · exact kept.listed (.inl (Nat.succ_ne_zero _))
        · obtain ⟨record', at', kept'⟩ := same.records q record₀ ((lookup_other this).trans was) held
          exact ⟨record', (lookup_other this).trans at', kept'⟩
      · have this : q ≠ r := by
          rintro rfl
          rw [at_] at absent
          cases absent
        exact (lookup_other this).trans (same.gone q below ((lookup_other this).trans absent))
      · by_cases this : q = r
        · subst this
          rw [at_] at was
          cases was
          rcases lookup_insert at' with ⟨-, rfl⟩ | ⟨wrong, -⟩
          · exact same.published q _ found below lookup_self found_ published
          · exact absurd rfl wrong
        · exact same.published q record₀ record' below ((lookup_other this).trans was)
            ((lookup_other this).symm.trans at') published
      · obtain ⟨member', idle'⟩ := same.idle q target member data releasing (idle.insert at_ rfl)
        exact ⟨member', idle'.insert found_ rfl⟩
    exact counted.congr ⟨rfl, rfl, rfl, rfl, rfl, rfl, rfl, rfl, rfl, rfl⟩

theorem dispatch_steady {r handle : Nat} {s : State} (given : s.dispatchable r) :
    Steady (dispatch r handle) s := by
  unfold dispatch
  refine steady_get ?_
  cases at_ : s.records[r]? with
  | none =>
      refine steady_modify (within_step id fun good => ?_)
      obtain ⟨record, found, -⟩ := good.dispatchable given
      rw [at_] at found
      cases found
  | some record =>
      refine steady_reply fun answer => steady_ite (fun _ => steady_pure) fun _ => ?_
      refine steady_bracket (fun fine => ?_) ?_ fun fine t later => ?_
      · refine fine.imp (fun overlap => (s.edit_overlap r _).trans overlap) fun good => ?_
        obtain ⟨found, found_, listed⟩ := good.dispatchable given
        exact good.begin_ found_ listed
      · refine steady_bind steady_enter fun answer u => ?_
        cases answer.action with
        | none => exact steady_pure
        | some action => exact steady_ite (fun _ => close_steady) fun _ => steady_pure
      · rcases later with overlap | ⟨good, later⟩
        · exact .inl ((t.edit_overlap r _).trans overlap)
        · exact .inr (later.dispatched at_ good)

theorem perform_steady {rounds : Nat} {operation : Operation} {s : State}
    (may : allowed s operation) : Steady (perform rounds operation) s := by
  cases operation with
  | open_ definition => exact open_steady
  | attach o valid => exact attach_steady may
  | prepare o => exact prepare_steady
  | closeHook r => exact thread_bind close_steady
  | destroyHook r =>
      obtain ⟨record, at_, both⟩ := (Option.any_eq_true ..).mp may
      rw [Bool.and_eq_true] at both
      exact destroyHook_steady at_ both.2
  | enable r enabled => exact enable_steady
  | collect => exact collect_steady
  | dispatch r handle => exact dispatch_steady may
  | dropTarget o => exact steady_modify (dropTarget_within may)
  | dropCall c => exact steady_modify dropCall_within
  | entities n => exact steady_modify entities_within

theorem Good.start : Good {} := by
  have nothing : ∀ {V : Type} (k : Nat), (∅ : Std.ExtTreeMap Nat V)[k]? = none := by simp
  refine ⟨⟨List.nodup_nil, fun r => ?_⟩, ⟨fun h r at_ => ?_, fun r record at_ => ?_⟩,
    fun r record at_ => ?_,
    ⟨List.nodup_nil, fun t member => absurd member List.not_mem_nil,
      fun h member => absurd member List.not_mem_nil,
      fun t member => absurd member List.not_mem_nil⟩,
    ⟨fun r record at_ => ?_, fun o target at_ => ?_, fun c t at_ => ?_⟩, ?_,
    ⟨trivial, fun handle => ?_, fun r handle member => absurd member List.not_mem_nil,
      fun r record at_ => ?_⟩, fun left => absurd rfl left, fun some_ => absurd rfl some_⟩
  · simp
  · simp at at_
  · simp at at_
  · simp at at_
  · simp at at_
  · simp at at_
  · simp at at_
  · refine ⟨Nat.one_pos, ?_, ?_, ?_, ?_, ?_⟩ <;>
      exact fun k there => absurd there Std.ExtTreeMap.not_mem_empty
  · simp [held]
  · simp at at_

/-! ## All runs -/

/-- What holds of the registrations and targets as long as nothing has overlapped. -/
structure Lifetime (s : State) : Prop where
  /-- The user data of every callback of the host is a record of the table. -/
  callbacks : ∀ handle r : Nat, s.callbacks[handle]? = some r → r ∈ s.registrations ∧
    ∃ record : Registration, s.records[r]? = some record ∧ record.handle = handle
  installing : ∀ (r : Nat) (record : Registration), s.records[r]? = some record →
    record.installing = true → r ∈ s.registrations
  undangling : ∀ r, .dangling r ∉ s.log
  /-- A record is dropped when it is closed and idle, retired, and every callback that was
  added for it was removed, with the answer OK or not-found. -/
  dropped : ∀ newer older r record, s.log = newer ++ .dropped r record :: older →
    record.closing = true ∧ record.active = 0 ∧ record.retires = 1 ∧
      ∀ handle, .added r handle ∈ older → ∃ result, .removed r handle result ∈ older ∧
        released result = true
  retires : ∀ (r : Nat) (record : Registration), s.records[r]? = some record →
    record.retires = if record.closing then 1 else 0
  /-- A target is released when it has no user, and once until it is opened again. -/
  releasing : ∀ newer older handle users, s.log = newer ++ .releasing handle users :: older →
    users = 0 ∧ held handle older = true
  released : ∀ newer older handle result, s.log = newer ++ .returned handle result :: older →
    released result = true ∧ held handle older = true
  /-- Whatever uses a target, the host holds it. -/
  used : ∀ t : Nat, s.users t ≠ 0 → ∃ target : TargetData, s.data[t]? = some target ∧
    target.handle ∈ s.leases
  leases : ∀ handle, handle ∈ s.leases ↔ held handle s.log = true
  empty : s.empty = true → s.callbacks = ∅ ∧ s.leases = []
  keepalive : s.registrations ≠ [] ∨ s.targets ≠ [] → s.keepalive = true

theorem Justified.event {newer older : List Event} {event : Event}
    (justified : Justified (newer ++ event :: older)) :
    event.justified older ∧ Justified older := by
  induction newer with
  | nil => exact justified
  | cons first newer ih => exact ih justified.2

theorem Good.lifetime {s : State} (good : Good s) : Lifetime s where
  callbacks handle r at_ := by
    obtain ⟨nonzero, record, found, same⟩ := good.handles.known handle r at_
    have listed := ((good.sane r record found).handle (same.symm ▸ nonzero)).1
    exact ⟨(good.table.listed r).mpr ⟨record, found, listed⟩, record, found, same⟩
  installing r record at_ now :=
    (good.table.listed r).mpr ⟨record, at_, ((good.sane r record at_).installing now).1⟩
  undangling r member := by
    obtain ⟨newer, older, log⟩ := List.append_of_mem member
    have justified := good.logged.justified
    rw [log] at justified
    exact justified.event.1
  dropped newer older r record log := by
    have justified := good.logged.justified
    rw [log] at justified
    obtain ⟨⟨closing, idle, retired, cleared⟩, before⟩ := justified.event
    refine ⟨closing, idle, retired, fun handle added => ?_⟩
    obtain ⟨result, removed⟩ := cleared handle added
    obtain ⟨between, first, split⟩ := List.append_of_mem removed
    rw [split] at before
    exact ⟨result, removed, before.event.1.1⟩
  retires r record at_ := (good.sane r record at_).retires
  releasing newer older handle users log := by
    have justified := good.logged.justified
    rw [log] at justified
    exact justified.event.1
  released newer older handle result log := by
    have justified := good.logged.justified
    rw [log] at justified
    exact justified.event.1
  used t users := by
    have member : t ∈ s.targets := by
      by_contra absent
      refine users (idle_iff.mpr ⟨?_, ?_, ?_⟩)
      · rintro o target at_ rfl
        exact absent (good.used.opened o target at_)
      · rintro c t' at_ rfl
        exact absent (good.used.calls c t' at_)
      · rintro r record at_ rfl
        exact absent (good.used.records r record at_)
    exact good.targets.known t member
  leases := good.logged.held
  empty empty := by
    unfold State.empty at empty
    simp only [Bool.and_eq_true, List.isEmpty_iff] at empty
    obtain ⟨⟨registrations, targets⟩, -⟩ := empty
    constructor
    · refine Tables.eq_empty_iff.mpr fun handle there => ?_
      obtain ⟨r, at_⟩ := Tables.mem_iff.mp there
      obtain ⟨nonzero, record, found, same⟩ := good.handles.known handle r at_
      have listed := ((good.sane r record found).handle (same.symm ▸ nonzero)).1
      have member := (good.table.listed r).mpr ⟨record, found, listed⟩
      rw [registrations] at member
      exact absurd member List.not_mem_nil
    · refine List.eq_nil_iff_forall_not_mem.mpr fun handle leased => ?_
      obtain ⟨t, member, -⟩ := good.targets.leased handle leased
      rw [targets] at member
      exact absurd member List.not_mem_nil
  keepalive some_ := by
    refine good.keepalive fun targets => ?_
    rcases some_ with registrations | left
    · obtain ⟨r, member⟩ := List.exists_mem_of_ne_nil _ registrations
      obtain ⟨record, at_, -⟩ := (good.table.listed r).mp member
      have used := good.used.records r record at_
      rw [targets] at used
      exact absurd used List.not_mem_nil
    · exact left targets

/-- The relation foreign code keeps, from a state that satisfies the invariant. -/
def Moves (s s' : State) : Prop := Fine s → Within s s'

theorem wp_moves {Q : Except Thrown Unit → State → Prop} {tree : Tree State Reply Thrown Unit}
    (holds : tree.Wp Fine Within Q) : tree.Wp Fine Moves Q := by
  induction tree with
  | done outcome s => exact holds
  | choose k ih => exact fun answer => ih answer (holds answer)
  | enter s k ih =>
      exact ⟨holds.1, fun answer s' fine moved =>
        ih answer s' (holds.2 answer s' fine (moved holds.1))⟩

theorem reaches_good {rounds : Nat} {s : State}
    {stack : List (Reply → State → Tree State Reply Thrown Unit)}
    (reached : Reaches (perform rounds) allowed {} s stack) : Fine s := by
  have keeps : ∀ operation t, Fine t → allowed t operation →
      (perform rounds operation t).Wp Fine Moves (Ended Fine Moves t) := by
    intro operation t fine may
    refine wp_moves ((perform_steady may t (.refl fine)).mono fun outcome u later => ?_)
    exact ⟨later.fine, fun _ => later⟩
  exact (control_inv (fun _ => Within.refl)
    (fun _ _ _ first second fine => (first fine).trans (second (first fine).fine)) keeps
    (.inr .start) reached).1

/-- Whatever is opened, attached, dispatched, closed or refused, and however it nests,
as long as no scan meets a closed and idle record in mid-installation and no open is
given a target in mid-release. -/
theorem lifetime_safe {rounds : Nat} {s : State}
    {stack : List (Reply → State → Tree State Reply Thrown Unit)}
    (reached : Reaches (perform rounds) allowed {} s stack) (calm : s.overlap = false) :
    Lifetime s := by
  rcases reaches_good reached with overlap | good
  · rw [calm] at overlap
    cases overlap
  · exact good.lifetime

/-! ## Runs -/

def plain : Reply :=
  { result := .ok, handle := 5, empty := false, action := some 0, retire := false }

def anyTarget : Definition :=
  { valid := true, prototype := { result := 0, arguments := [], method := false } }

/-- The state a run ends in, with no operation under way. -/
def endOf (labels : List (Label Operation Reply)) : Option State :=
  match Transition.run (next (perform 9) allowed) { control := .foreign {} } labels with
  | some { control := .foreign s, stack := [] } => some s
  | _ => none

theorem endOf_reaches {labels : List (Label Operation Reply)} {s : State}
    (same : endOf labels = some s) : Reaches (perform 9) allowed {} s [] := by
  unfold endOf at same
  split at same
  · rename_i s' ran
    cases same
    exact ⟨labels, ran⟩
  · cases same

/-- A target is opened; its object is number 2. -/
def opening : List (Label Operation Reply) :=
  [.start (.open_ anyTarget), .reply plain, .reply plain, .reply plain]

/-- The host refuses to add a callback. -/
def refused : List (Label Operation Reply) :=
  opening ++ [.start (.attach 2 true), .reply plain, .reply plain,
    .back { plain with result := .busy }, .back plain, .reply plain]

/-- The host dispatches the callback it is adding, and that retires it; something
else in the game has the tables scanned; then the host is done. -/
def dispatchedEarly : List (Label Operation Reply) :=
  opening ++ [.start (.attach 2 true), .reply plain, .reply plain,
    .start (.dispatch 3 5), .reply plain, .back { plain with action := some (-2) }, .back plain,
    .start .collect, .reply plain, .back plain]

/-- The target is opened while it is being released. -/
def openedLate : List (Label Operation Reply) :=
  opening ++ [.start (.dropTarget 2), .start .collect, .reply plain,
    .start (.open_ anyTarget), .reply plain, .reply plain, .reply plain, .back plain]

/-- A hook is added, removed and its target released. -/
def ordinary : List (Label Operation Reply) :=
  opening ++ [.start (.attach 2 true), .reply plain, .reply plain, .back plain,
    .start (.dispatch 3 5), .reply plain, .back plain, .start (.destroyHook 3), .back plain,
    .start (.dropTarget 2), .start .collect, .reply plain, .back plain, .back plain]

theorem endOf_some (labels : List (Label Operation Reply)) {p : State → Bool}
    (ran : (endOf labels).any p = true) :
    ∃ s, Reaches (perform 9) allowed {} s [] ∧ p s = true := by
  obtain ⟨s, same, shown⟩ := (Option.any_eq_true ..).mp ran
  exact ⟨s, endOf_reaches same, shown⟩

theorem lifetime_safe_ordinary :
    ∃ s, Reaches (perform 9) allowed {} s [] ∧ Lifetime s ∧ s.empty = true ∧ s.log.length = 6 := by
  obtain ⟨s, reached, shown⟩ := endOf_some ordinary
    (p := fun s => !s.overlap && s.empty && s.log.length == 6) (by decide +kernel)
  simp only [Bool.and_eq_true, Bool.not_eq_true', beq_iff_eq] at shown
  exact ⟨s, reached, lifetime_safe reached shown.1.1, shown.1.2, shown.2⟩

def Event.isDropped (r : Nat) : Event → Bool
  | .dropped r' _ => r' == r
  | _ => false

def Event.isRemoved : Event → Bool
  | .removed _ _ _ => true
  | _ => false

/-- A record whose add call failed goes without a removal; a record closed in
mid-installation goes although its callback is then added; a target opened in
mid-release is used although it is no longer held. -/
theorem lifetime_overlaps :
    (∃ s, Reaches (perform 9) allowed {} s [] ∧ s.log.any (Event.isDropped 3) = true ∧
      s.log.any Event.isRemoved = false) ∧
    (∃ s, Reaches (perform 9) allowed {} s [] ∧ s.callbacks[4]? = some 3 ∧
      3 ∉ s.registrations) ∧
    ∃ s, Reaches (perform 9) allowed {} s [] ∧ s.users 1 ≠ 0 ∧ s.leases = [] := by
  refine ⟨?_, ?_, ?_⟩
  · obtain ⟨s, reached, shown⟩ := endOf_some refused
      (p := fun s => s.log.any (Event.isDropped 3) && !s.log.any Event.isRemoved)
      (by decide +kernel)
    simp only [Bool.and_eq_true, Bool.not_eq_true'] at shown
    exact ⟨s, reached, shown.1, shown.2⟩
  · obtain ⟨s, reached, shown⟩ := endOf_some dispatchedEarly
      (p := fun s => s.callbacks[4]? == some 3 && !s.registrations.contains 3)
      (by decide +kernel)
    simp only [Bool.and_eq_true, Bool.not_eq_true', beq_iff_eq] at shown
    exact ⟨s, reached, shown.1, by simpa using shown.2⟩
  · obtain ⟨s, reached, shown⟩ := endOf_some openedLate
      (p := fun s => s.users 1 != 0 && s.leases.isEmpty) (by decide +kernel)
    simp only [Bool.and_eq_true, bne_iff_ne, List.isEmpty_iff] at shown
    exact ⟨s, reached, shown.1, shown.2⟩

end Source2Root.DHooks
