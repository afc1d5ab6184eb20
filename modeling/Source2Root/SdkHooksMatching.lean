import Source2Root.SdkHooks
import Source2Root.Tables

/-!
# Pre and post phases match

What the record of the dispatches looks like in every state in which foreign code
has control: a post callback consumed the capture of the latest pre phase with its
key, every capture is consumed once, and a pre callback which removed what its call
needs ends in a blocked call.
-/

set_option autoImplicit false

namespace Source2Root.SdkHooks

open Reentrant

variable {W : Type}

/-! ## What an event may be preceded by -/

/-- The event ends what an earlier pre phase of the hook captured under the key. -/
def Event.ends (r : Nat) (key : Pointer) : Event W → Prop
  | .pre r' key' _ => r' = r ∧ key' = key
  | .discarded r' => r' = r
  | .consumed _ _ | .ran _ _ _ _ _ | .answered _ _ _ _ _ _ => False

/-- The capture is that of the latest pre phase the hook saw with its key, and was
not discarded since. -/
def Standing (r : Nat) (capture : Pending) (log : List (Event W)) : Prop :=
  ∃ newer older, log = newer ++ .pre r capture.key (some capture) :: older ∧
    ∀ event ∈ newer, ¬ event.ends r capture.key

def consumedSerials : List (Event W) → List Nat
  | [] => []
  | .consumed _ capture :: older => capture.serial :: consumedSerials older
  | .pre _ _ _ :: older | .discarded _ :: older | .ran _ _ _ _ _ :: older
  | .answered _ _ _ _ _ _ :: older => consumedSerials older

/-- The captures post callbacks ran with. -/
def postSerials : List (Event W) → List Nat
  | [] => []
  | .ran _ _ frame capture _ :: older =>
      if frame.phase = .post then capture.serial :: postSerials older else postSerials older
  | .pre _ _ _ :: older | .discarded _ :: older | .consumed _ _ :: older
  | .answered _ _ _ _ _ _ :: older => postSerials older

/-- The hooked entity is at the pointer, and the other one is still there. -/
def alive (host : Host W) (state : Registration) (frame : NativeFrame) (capture : Pending)
    (w : W) : Prop :=
  state.matches_ host w frame.instance_ = true ∧ validOption host w capture.other = true

def Event.justified (host : Host W) (older : List (Event W)) : Event W → Prop
  | .pre _ _ _ | .discarded _ => True
  | .consumed r capture => Standing r capture older
  | .ran r state frame capture w =>
      alive host state frame capture w ∧
        (frame.phase = .post → capture.key = frame.key ∧ capture.instance_ = frame.instance_ ∧
          capture.secondary = state.secondary frame ∧ .consumed r capture ∈ older)
  | .answered _ state frame capture left action =>
      ∀ context w, capture = some context → left = some w → frame.phase = .pre →
        ¬ alive host state frame context w → action = .supersede

def Justified (host : Host W) : List (Event W) → Prop
  | [] => True
  | event :: older => event.justified host older ∧ Justified host older

theorem consumedSerials_append (newer older : List (Event W)) :
    consumedSerials (newer ++ older) = consumedSerials newer ++ consumedSerials older := by
  induction newer with
  | nil => rfl
  | cons event newer ih => cases event <;> simp [consumedSerials, ih]

theorem postSerials_append (newer older : List (Event W)) :
    postSerials (newer ++ older) = postSerials newer ++ postSerials older := by
  induction newer with
  | nil => rfl
  | cons event newer ih =>
      cases event with
      | ran r state frame capture w =>
          by_cases post : frame.phase = .post
          · simp [postSerials, ih, post]
          · simp [postSerials, ih, post]
      | pre | discarded | consumed | answered => simp [postSerials, ih]

theorem mem_consumedSerials {log : List (Event W)} {r : Nat} {capture : Pending}
    (member : Event.consumed r capture ∈ log) : capture.serial ∈ consumedSerials log := by
  obtain ⟨newer, older, rfl⟩ := List.append_of_mem member
  rw [consumedSerials_append]
  exact List.mem_append_right _ (List.mem_cons_self ..)

theorem Standing.cons {r : Nat} {capture : Pending} {log : List (Event W)} {event : Event W}
    (standing : Standing r capture log) (goes : ¬ event.ends r capture.key) :
    Standing r capture (event :: log) := by
  obtain ⟨newer, older, rfl, none_⟩ := standing
  refine ⟨event :: newer, older, rfl, ?_⟩
  intro other member
  rcases List.mem_cons.mp member with rfl | later
  · exact goes
  · exact none_ other later

theorem Justified.of_append {host : Host W} {newer older : List (Event W)}
    (justified : Justified host (newer ++ older)) : Justified host older := by
  induction newer with
  | nil => exact justified
  | cons event newer ih => exact ih justified.2

/-! ## Hooks and captures of a state -/

namespace State

def waitingOf (s : State W) (r : Nat) : List Pending :=
  match s.hooks[r]? with
  | none => []
  | some registration => registration.pending

theorem waiting_eq (r : Nat) (s : State W) : s.waiting r = (s.waitingOf r).length := by
  unfold waiting waitingOf
  cases s.hooks[r]? <;> rfl

theorem found_eq (r : Nat) (key : Pointer) (s : State W) :
    s.found r key = (s.waitingOf r).find? fun p => p.key == key := by
  unfold found waitingOf
  cases s.hooks[r]? <;> rfl

theorem waitingOf_congr {s s' : State W} (same : s'.hooks = s.hooks) (r : Nat) :
    s'.waitingOf r = s.waitingOf r := by
  unfold waitingOf
  rw [same]

theorem waitingOf_setHook (r : Nat) (registration : Registration) (s : State W) (q : Nat) :
    (s.setHook r registration).waitingOf q =
      if r = q then registration.pending else s.waitingOf q := by
  unfold waitingOf setHook
  rw [Std.ExtTreeMap.getElem?_insert]
  by_cases same : r = q
  · simp [same]
  · simp [same]

/-- Editing a hook changes its captures as the edit does. -/
theorem waitingOf_editHook (r : Nat) (f : Registration → Registration)
    (g : List Pending → List Pending) (s : State W)
    (changed : ∀ registration, (f registration).pending = g registration.pending) (q : Nat) :
    (s.editHook r f).waitingOf q =
      if r = q ∧ s.hooks[r]? ≠ none then g (s.waitingOf q) else s.waitingOf q := by
  unfold editHook
  cases at_ : s.hooks[r]? with
  | none => simp
  | some registration =>
      show (s.setHook r (f registration)).waitingOf q = _
      rw [waitingOf_setHook]
      by_cases same : r = q
      · subst same
        have now : s.waitingOf r = registration.pending := by
          unfold waitingOf
          rw [at_]
        simp [now, changed]
      · simp [same]

end State

/-! ## The invariant -/

/-- The counter agrees with the leases there are. -/
structure Leased (s : State W) : Prop where
  count : s.leases = s.live.size
  issued : ∀ id ∈ s.live, id < s.nextLease

structure Recorded (host : Host W) (s : State W) : Prop where
  short : ∀ r, (s.waitingOf r).length ≤ 8
  keys : ∀ r, ((s.waitingOf r).map Pending.key).Nodup
  standing : ∀ r, ∀ p ∈ s.waitingOf r, Standing r p s.log
  fresh : ∀ r, ∀ p ∈ s.waitingOf r, p.serial < s.nextSerial ∧ p.serial ∉ consumedSerials s.log
  apart : ∀ r r' p p', p ∈ s.waitingOf r → p' ∈ s.waitingOf r' → p.serial = p'.serial →
    r = r' ∧ p = p'
  past : ∀ n ∈ consumedSerials s.log, n < s.nextSerial
  once : (consumedSerials s.log).Nodup
  ranOnce : (postSerials s.log).Nodup
  justified : Justified host s.log

structure Inv (host : Host W) (s : State W) : Prop where
  leased : Leased s
  recorded : Recorded host s

namespace Leased

variable {s s' : State W}

theorem of_same (leased : Leased s) (leases : s'.leases = s.leases) (live : s'.live = s.live)
    (next : s'.nextLease = s.nextLease) : Leased s' := by
  refine ⟨by rw [leases, live]; exact leased.count, ?_⟩
  rw [live, next]
  exact leased.issued

theorem drop (leased : Leased s) (lease : Lease) : Leased (s.drop lease) := by
  unfold State.drop
  cases at_ : s.live[lease.id]? with
  | none => exact leased
  | some owners =>
      have member : lease.id ∈ s.live := Tables.mem_iff.mpr ⟨owners, at_⟩
      have there : s.live.contains lease.id = true := member
      by_cases last : owners = 1
      · simp only [if_pos last]
        refine ⟨?_, fun id there => leased.issued id (Std.ExtTreeMap.mem_of_mem_erase there)⟩
        show s.leases - 1 = (s.live.erase lease.id).size
        rw [Std.ExtTreeMap.size_erase, if_pos there, leased.count]
      · simp only [if_neg last]
        refine ⟨?_, ?_⟩
        · show s.leases = (s.live.insert lease.id (owners - 1)).size
          rw [Std.ExtTreeMap.size_insert, if_pos there, leased.count]
        · intro id there
          rcases Tables.mem_insert_iff.mp there with rfl | there
          · exact leased.issued _ member
          · exact leased.issued id there

theorem share (leased : Leased s) (lease : Lease) : Leased (s.share lease) := by
  unfold State.share
  cases at_ : s.live[lease.id]? with
  | none => exact leased
  | some owners =>
      have member : lease.id ∈ s.live := Tables.mem_iff.mpr ⟨owners, at_⟩
      have there : s.live.contains lease.id = true := member
      refine ⟨?_, ?_⟩
      · show s.leases = (s.live.insert lease.id (owners + 1)).size
        rw [Std.ExtTreeMap.size_insert, if_pos there, leased.count]
      · intro id there
        rcases Tables.mem_insert_iff.mp there with rfl | there
        · exact leased.issued _ member
        · exact leased.issued id there

theorem lend (leased : Leased s) : Leased s.lend := by
  have new : ¬ s.live.contains s.nextLease = true := fun there =>
    Nat.lt_irrefl _ (leased.issued _ there)
  refine ⟨?_, ?_⟩
  · show s.leases + 1 = (s.live.insert s.nextLease 1).size
    rw [Std.ExtTreeMap.size_insert, if_neg new, leased.count]
  · intro id there
    show id < s.nextLease + 1
    rcases Tables.mem_insert_iff.mp there with rfl | there
    · exact Nat.lt_succ_self _
    · exact Nat.lt_succ_of_lt (leased.issued id there)

theorem dropOption (leased : Leased s) (lease : Option Lease) : Leased (s.dropOption lease) := by
  cases lease with
  | none => exact leased
  | some lease => exact leased.drop lease

theorem shareOption (leased : Leased s) (lease : Option Lease) : Leased (s.shareOption lease) := by
  cases lease with
  | none => exact leased
  | some lease => exact leased.share lease

theorem dropPending (leased : Leased s) (pending : List Pending) :
    Leased (s.dropPending pending) := by
  induction pending generalizing s with
  | nil => exact leased
  | cons capture pending ih => exact ih (leased.dropOption capture.other)

end Leased

/-- At most the leases differ. -/
structure OnlyLeases (s s' : State W) : Prop where
  log : s'.log = s.log
  hooks : s'.hooks = s.hooks
  serial : s'.nextSerial = s.nextSerial

namespace OnlyLeases

theorem refl (s : State W) : OnlyLeases s s := ⟨rfl, rfl, rfl⟩

theorem trans {s t u : State W} (first : OnlyLeases s t) (second : OnlyLeases t u) :
    OnlyLeases s u :=
  ⟨second.log.trans first.log, second.hooks.trans first.hooks, second.serial.trans first.serial⟩

theorem drop (lease : Lease) (s : State W) : OnlyLeases s (s.drop lease) := by
  unfold State.drop
  cases s.live[lease.id]? with
  | none => exact refl s
  | some owners =>
      by_cases last : owners = 1
      · simp only [if_pos last]
        exact ⟨rfl, rfl, rfl⟩
      · simp only [if_neg last]
        exact ⟨rfl, rfl, rfl⟩

theorem share (lease : Lease) (s : State W) : OnlyLeases s (s.share lease) := by
  unfold State.share
  cases s.live[lease.id]? with
  | none => exact refl s
  | some owners => exact ⟨rfl, rfl, rfl⟩

theorem lend (s : State W) : OnlyLeases s s.lend := ⟨rfl, rfl, rfl⟩

theorem dropOption (lease : Option Lease) (s : State W) : OnlyLeases s (s.dropOption lease) := by
  cases lease with
  | none => exact refl s
  | some lease => exact drop lease s

theorem shareOption (lease : Option Lease) (s : State W) : OnlyLeases s (s.shareOption lease) := by
  cases lease with
  | none => exact refl s
  | some lease => exact share lease s

theorem dropPending (pending : List Pending) (s : State W) :
    OnlyLeases s (s.dropPending pending) := by
  induction pending generalizing s with
  | nil => exact refl s
  | cons capture pending ih => exact (dropOption capture.other s).trans (ih _)

end OnlyLeases

namespace Recorded

variable {host : Host W} {s s' : State W}

/-- Captures may go. -/
theorem fewer (recorded : Recorded host s) (log : s'.log = s.log)
    (serial : s'.nextSerial = s.nextSerial)
    (fewer : ∀ r, (s'.waitingOf r).Sublist (s.waitingOf r)) : Recorded host s' where
  short r := (fewer r).length_le.trans (recorded.short r)
  keys r := ((fewer r).map _).nodup (recorded.keys r)
  standing r p member := by
    rw [log]
    exact recorded.standing r p ((fewer r).subset member)
  fresh r p member := by
    rw [log, serial]
    exact recorded.fresh r p ((fewer r).subset member)
  apart r r' p p' member member' :=
    recorded.apart r r' p p' ((fewer r).subset member) ((fewer r').subset member')
  past := by
    rw [log, serial]
    exact recorded.past
  once := by
    rw [log]
    exact recorded.once
  ranOnce := by
    rw [log]
    exact recorded.ranOnce
  justified := by
    rw [log]
    exact recorded.justified

theorem onlyLeases (recorded : Recorded host s) (only : OnlyLeases s s') : Recorded host s' :=
  recorded.fewer only.log only.serial fun r => by rw [State.waitingOf_congr only.hooks]

/-- An event that neither takes a capture nor is a post callback. -/
theorem record {event : Event W} (recorded : Recorded host s)
    (takes : consumedSerials [event] = []) (runs : postSerials [event] = [])
    (goes : ∀ r, ∀ p ∈ s.waitingOf r, ¬ event.ends r p.key)
    (justified : event.justified host s.log) : Recorded host (s.record event) := by
  have consumed : consumedSerials (event :: s.log) = consumedSerials s.log := by
    rw [← List.singleton_append, consumedSerials_append, takes, List.nil_append]
  have posts : postSerials (event :: s.log) = postSerials s.log := by
    rw [← List.singleton_append, postSerials_append, runs, List.nil_append]
  refine ⟨recorded.short, recorded.keys, ?_, ?_, recorded.apart, ?_, ?_, ?_, ?_⟩
  · intro r p member
    exact (recorded.standing r p member).cons (goes r p member)
  · intro r p member
    show p.serial < s.nextSerial ∧ p.serial ∉ consumedSerials (event :: s.log)
    rw [consumed]
    exact recorded.fresh r p member
  · show ∀ n ∈ consumedSerials (event :: s.log), n < s.nextSerial
    rw [consumed]
    exact recorded.past
  · show (consumedSerials (event :: s.log)).Nodup
    rw [consumed]
    exact recorded.once
  · show (postSerials (event :: s.log)).Nodup
    rw [posts]
    exact recorded.ranOnce
  · exact ⟨justified, recorded.justified⟩

/-- A post callback runs, the first with its capture. -/
theorem recordPost {r : Nat} {state : Registration} {frame : NativeFrame} {capture : Pending}
    (recorded : Recorded host s) (post : frame.phase = .post)
    (first : capture.serial ∉ postSerials s.log)
    (justified : (Event.ran r state frame capture s.world).justified host s.log) :
    Recorded host (s.record (.ran r state frame capture s.world)) := by
  refine ⟨recorded.short, recorded.keys, ?_, recorded.fresh, recorded.apart, recorded.past,
    recorded.once, ?_, ⟨justified, recorded.justified⟩⟩
  · intro q p member
    exact (recorded.standing q p member).cons fun ends => ends
  · show (postSerials (.ran r state frame capture s.world :: s.log)).Nodup
    rw [postSerials, if_pos post]
    exact List.nodup_cons.mpr ⟨first, recorded.ranOnce⟩

end Recorded

/-- What post callbacks ran with was consumed. -/
theorem Justified.consumed {host : Host W} {log : List (Event W)} (justified : Justified host log) :
    ∀ n ∈ postSerials log, n ∈ consumedSerials log := by
  induction log with
  | nil => exact fun _ member => absurd member List.not_mem_nil
  | cons event older ih =>
      intro n member
      have below := ih justified.2 n
      cases event with
      | ran r state frame capture w =>
          by_cases post : frame.phase = .post
          · rw [postSerials, if_pos post] at member
            rcases List.mem_cons.mp member with rfl | member
            · have taken := mem_consumedSerials (justified.1.2 post).2.2.2
              exact taken
            · exact below member
          · rw [postSerials, if_neg post] at member
            exact below member
      | consumed r capture => exact List.mem_cons_of_mem _ (below member)
      | pre | discarded | answered => exact below member

/-! ## Steps on the captures -/

/-- The keys differ, so nothing with the key is left. -/
theorem key_ne_of_mem_eraseP {key : Pointer} {pending : List Pending}
    (keys : (pending.map Pending.key).Nodup) :
    ∀ p ∈ pending.eraseP (fun p => p.key == key), p.key ≠ key := by
  induction pending with
  | nil => exact fun p member => absurd member List.not_mem_nil
  | cons first rest ih =>
      rw [List.map_cons, List.nodup_cons] at keys
      intro p member
      by_cases same : first.key = key
      · rw [List.eraseP_cons_of_pos (by simp [same])] at member
        intro same'
        exact keys.1 (List.mem_map.mpr ⟨p, member, same'.trans same.symm⟩)
      · rw [List.eraseP_cons_of_neg (by simp [same])] at member
        rcases List.mem_cons.mp member with rfl | later
        · exact same
        · exact ih keys.2 p later

namespace State

theorem clear_log (r : Nat) (s : State W) : (s.clear r).log = s.log := by
  unfold clear
  cases s.hooks[r]? with
  | none => rfl
  | some registration => exact (OnlyLeases.dropPending registration.pending _).log

theorem clear_serial (r : Nat) (s : State W) : (s.clear r).nextSerial = s.nextSerial := by
  unfold clear
  cases s.hooks[r]? with
  | none => rfl
  | some registration => exact (OnlyLeases.dropPending registration.pending _).serial

theorem waitingOf_clear (r : Nat) (s : State W) (q : Nat) :
    (s.clear r).waitingOf q = if r = q then [] else s.waitingOf q := by
  unfold clear
  cases at_ : s.hooks[r]? with
  | none =>
      by_cases same : r = q
      · subst same
        rw [if_pos rfl]
        show s.waitingOf r = []
        unfold waitingOf
        rw [at_]
      · rw [if_neg same]
  | some registration =>
      show ((s.setHook r { registration with pending := [] }).dropPending
        registration.pending).waitingOf q = _
      rw [waitingOf_congr (OnlyLeases.dropPending registration.pending _).hooks, waitingOf_setHook]

theorem take_log (r : Nat) (key : Pointer) (s : State W) : (s.take r key).log = s.log := by
  unfold take editHook
  cases s.hooks[r]? <;> rfl

theorem take_serial (r : Nat) (key : Pointer) (s : State W) :
    (s.take r key).nextSerial = s.nextSerial := by
  unfold take editHook
  cases s.hooks[r]? <;> rfl

theorem push_log (r : Nat) (context : Pending) (s : State W) : (s.push r context).log = s.log := by
  unfold push
  rw [(OnlyLeases.shareOption context.other _).log]
  unfold editHook
  cases s.hooks[r]? <;> rfl

theorem waitingOf_take (r : Nat) (key : Pointer) (s : State W) (q : Nat) :
    (s.take r key).waitingOf q =
      if r = q then (s.waitingOf q).eraseP (fun p => p.key == key) else s.waitingOf q := by
  unfold take
  rw [waitingOf_editHook r _ (fun pending => pending.eraseP fun p => p.key == key) s
    (fun registration => rfl) q]
  by_cases same : r = q
  · subst same
    by_cases there : s.hooks[r]? = none
    · have nothing : s.waitingOf r = [] := by
        unfold waitingOf
        rw [there]
      simp [nothing]
    · simp [there]
  · simp [same]

theorem waitingOf_forget (r : Nat) (s : State W) (q : Nat) :
    (s.forget r).waitingOf q = if r = q then [] else s.waitingOf q := by
  unfold forget
  cases at_ : s.hooks[r]? with
  | none =>
      by_cases same : r = q
      · subst same
        rw [if_pos rfl]
        show s.waitingOf r = []
        unfold waitingOf
        rw [at_]
      · rw [if_neg same]
  | some registration =>
      show ((({ s with hooks := s.hooks.erase r } : State W).dropPending
        registration.pending).drop registration.entity).waitingOf q = _
      rw [waitingOf_congr ((OnlyLeases.dropPending registration.pending _).trans
        (OnlyLeases.drop registration.entity _)).hooks]
      show (match (s.hooks.erase r)[q]? with
        | none => []
        | some registration => registration.pending) = _
      rw [Tables.getElem?_erase]
      by_cases same : r = q
      · simp [same]
      · rw [if_neg same, if_neg (Ne.symm same)]
        rfl

end State

namespace Inv

variable {host : Host W} {s s' : State W}

theorem onlyLeases (inv : Inv host s) (only : OnlyLeases s s') (leased : Leased s') :
    Inv host s' :=
  ⟨leased, inv.recorded.onlyLeases only⟩

theorem drop (inv : Inv host s) (lease : Lease) : Inv host (s.drop lease) :=
  inv.onlyLeases (.drop lease s) (inv.leased.drop lease)

theorem dropOption (inv : Inv host s) (lease : Option Lease) : Inv host (s.dropOption lease) :=
  inv.onlyLeases (.dropOption lease s) (inv.leased.dropOption lease)

theorem lend (inv : Inv host s) : Inv host s.lend := inv.onlyLeases (.lend s) inv.leased.lend

/-- The counters, the flags of a hook and the world are no part of it. -/
theorem editHook (inv : Inv host s) (r : Nat) {f : Registration → Registration}
    (pending : ∀ registration, (f registration).pending = registration.pending) :
    Inv host (s.editHook r f) := by
  have same : ∀ q, (s.editHook r f).waitingOf q = s.waitingOf q := by
    intro q
    rw [State.waitingOf_editHook r f id s pending q]
    split <;> rfl
  unfold State.editHook at same ⊢
  cases at_ : s.hooks[r]? with
  | none => exact inv
  | some registration =>
      rw [at_] at same
      refine ⟨inv.leased.of_same rfl rfl rfl, inv.recorded.fewer rfl rfl fun q => ?_⟩
      exact (same q).symm ▸ List.Sublist.refl _

theorem clear (inv : Inv host s) (r : Nat) : Inv host (s.clear r) := by
  refine ⟨?_, inv.recorded.fewer (s.clear_log r) (s.clear_serial r) fun q => ?_⟩
  · unfold State.clear
    cases s.hooks[r]? with
    | none => exact inv.leased
    | some registration =>
        have shown : Leased (s.setHook r { registration with pending := [] }) :=
          inv.leased.of_same rfl rfl rfl
        exact shown.dropPending registration.pending
  · rw [State.waitingOf_clear]
    split
    · exact List.nil_sublist _
    · exact List.Sublist.refl _

theorem discard (inv : Inv host s) (r : Nat) : Inv host ((s.clear r).record (.discarded r)) := by
  have cleared := inv.clear r
  refine ⟨cleared.leased.of_same rfl rfl rfl, cleared.recorded.record rfl rfl ?_ trivial⟩
  intro q p member ends
  obtain rfl : r = q := ends
  rw [State.waitingOf_clear, if_pos rfl] at member
  exact absurd member List.not_mem_nil

theorem forget (inv : Inv host s) (r : Nat) : Inv host (s.forget r) := by
  have lists := s.waitingOf_forget r
  unfold State.forget at lists ⊢
  cases at_ : s.hooks[r]? with
  | none => exact inv
  | some registration =>
      rw [at_] at lists
      have erased : Leased { s with hooks := s.hooks.erase r } := inv.leased.of_same rfl rfl rfl
      have only := (OnlyLeases.dropPending registration.pending
        { s with hooks := s.hooks.erase r }).trans (OnlyLeases.drop registration.entity _)
      refine ⟨(erased.dropPending registration.pending).drop registration.entity,
        inv.recorded.fewer only.log only.serial fun q => ?_⟩
      rw [lists q]
      split
      · exact List.nil_sublist _
      · exact List.Sublist.refl _

theorem take (inv : Inv host s) (r : Nat) (key : Pointer) : Inv host (s.take r key) := by
  refine ⟨?_, inv.recorded.fewer (s.take_log r key) (s.take_serial r key) fun q => ?_⟩
  · unfold State.take State.editHook
    cases s.hooks[r]? with
    | none => exact inv.leased
    | some registration => exact inv.leased.of_same rfl rfl rfl
  · rw [State.waitingOf_take]
    split
    · exact List.eraseP_sublist ..
    · exact List.Sublist.refl _

/-- The post phase takes a capture over. -/
theorem consume (inv : Inv host s) {r : Nat} {key : Pointer} {context : Pending}
    (found : s.found r key = some context) :
    Inv host ((s.take r key).record (.consumed r context)) ∧ context.key = key ∧
      context.serial ∉ postSerials s.log := by
  rw [State.found_eq] at found
  have member : context ∈ s.waitingOf r := List.mem_of_find?_eq_some found
  have key_ : context.key = key := by simpa using List.find?_some found
  have recorded := inv.recorded
  obtain ⟨known, new⟩ := recorded.fresh r context member
  have taken := inv.take r key
  have log := s.take_log r key
  have serial := s.take_serial r key
  have stays : ∀ q, ∀ p ∈ (s.take r key).waitingOf q,
      p ∈ s.waitingOf q ∧ p.serial ≠ context.serial := by
    intro q p there
    rw [State.waitingOf_take] at there
    by_cases same : r = q
    · subst same
      rw [if_pos rfl] at there
      refine ⟨List.mem_of_mem_eraseP there, fun serials => ?_⟩
      obtain ⟨-, rfl⟩ := recorded.apart r r p context (List.mem_of_mem_eraseP there) member serials
      exact key_ne_of_mem_eraseP (recorded.keys r) p there key_
    · rw [if_neg same] at there
      refine ⟨there, fun serials => ?_⟩
      exact same (recorded.apart q r p context there member serials).1.symm
  refine ⟨⟨taken.leased.of_same rfl rfl rfl, taken.recorded.short, taken.recorded.keys, ?_, ?_,
    taken.recorded.apart, ?_, ?_, taken.recorded.ranOnce, ?_, taken.recorded.justified⟩, key_, ?_⟩
  · intro q p there
    exact (taken.recorded.standing q p there).cons fun ends => ends
  · intro q p there
    obtain ⟨was, other⟩ := stays q p there
    obtain ⟨below, absent⟩ := recorded.fresh q p was
    show p.serial < (s.take r key).nextSerial ∧
      p.serial ∉ context.serial :: consumedSerials (s.take r key).log
    rw [log, serial]
    exact ⟨below, List.not_mem_cons_of_ne_of_not_mem other absent⟩
  · show ∀ n ∈ context.serial :: consumedSerials (s.take r key).log, n < (s.take r key).nextSerial
    rw [log, serial]
    intro n there
    rcases List.mem_cons.mp there with rfl | past
    · exact known
    · exact recorded.past n past
  · show (context.serial :: consumedSerials (s.take r key).log).Nodup
    rw [log]
    exact List.nodup_cons.mpr ⟨new, recorded.once⟩
  · show Standing r context (s.take r key).log
    rw [log]
    exact recorded.standing r context member
  · exact fun posted => new (recorded.justified.consumed _ posted)

/-- A pre phase adds its capture. -/
theorem push (inv : Inv host s) {r : Nat} {context : Pending}
    (serial : context.serial = s.nextSerial) (room : s.waiting r < 8)
    (free : ∀ p ∈ s.waitingOf r, p.key ≠ context.key) :
    Inv host ((s.push r context).record (.pre r context.key (some context))) := by
  have recorded := inv.recorded
  unfold State.push
  generalize made : ({ s with nextSerial := s.nextSerial + 1 } : State W).editHook r
    (fun registration =>
      { registration with pending := registration.pending ++ [context] }) = t
  have lists : ∀ q, t.waitingOf q =
      if r = q ∧ s.hooks[r]? ≠ none then s.waitingOf q ++ [context] else s.waitingOf q := by
    intro q
    rw [← made]
    exact State.waitingOf_editHook r _ (fun pending => pending ++ [context])
      { s with nextSerial := s.nextSerial + 1 } (fun registration => rfl) q
  have parts : t.log = s.log ∧ t.nextSerial = s.nextSerial + 1 ∧ Leased t := by
    rw [← made]
    unfold State.editHook
    cases s.hooks[r]? with
    | none => exact ⟨rfl, rfl, inv.leased.of_same rfl rfl rfl⟩
    | some registration => exact ⟨rfl, rfl, inv.leased.of_same rfl rfl rfl⟩
  obtain ⟨log, next, leased⟩ := parts
  have only := OnlyLeases.shareOption context.other t
  have mine : ∀ q, ∀ p ∈ t.waitingOf q, p ∈ s.waitingOf q ∨ (r = q ∧ p = context) := by
    intro q p member
    rw [lists q] at member
    split at member
    · rename_i same
      rcases List.mem_append.mp member with was | now
      · exact .inl was
      · exact .inr ⟨same.1, List.mem_singleton.mp now⟩
    · exact .inl member
  have older : ∀ q, ∀ p ∈ s.waitingOf q, p.serial ≠ context.serial := by
    intro q p member same
    have below := (recorded.fresh q p member).1
    rw [same, serial] at below
    exact Nat.lt_irrefl _ below
  have seen := State.waitingOf_congr only.hooks
  have listed : ∀ q, ((t.shareOption context.other).record
      (.pre r context.key (some context))).waitingOf q = t.waitingOf q := seen
  refine ⟨(leased.shareOption context.other).of_same rfl rfl rfl,
    ?_, ?_, ?_, ?_, ?_, ?_, ?_, ?_, ?_⟩
  · intro q
    show ((t.shareOption context.other).waitingOf q).length ≤ 8
    rw [seen q, lists q]
    split
    · rename_i same
      rw [State.waiting_eq, same.1] at room
      rw [List.length_append, List.length_singleton]
      omega
    · exact recorded.short q
  · intro q
    show (((t.shareOption context.other).waitingOf q).map Pending.key).Nodup
    rw [seen q, lists q]
    split
    · rename_i same
      rw [List.map_append, List.map_singleton, List.nodup_append]
      refine ⟨recorded.keys q, List.nodup_singleton _, ?_⟩
      intro a there b last
      obtain ⟨p, member, rfl⟩ := List.mem_map.mp there
      rw [List.mem_singleton.mp last]
      exact free p (same.1 ▸ member)
    · exact recorded.keys q
  · intro q p member
    rw [listed] at member
    show Standing q p (.pre r context.key (some context) :: (t.shareOption context.other).log)
    rw [only.log, log]
    rcases mine q p member with was | ⟨rfl, rfl⟩
    · refine (recorded.standing q p was).cons ?_
      intro ends
      obtain ⟨rfl, key⟩ : r = q ∧ context.key = p.key := ends
      exact free p was key.symm
    · exact ⟨[], s.log, rfl, fun event nothing => absurd nothing List.not_mem_nil⟩
  · intro q p member
    rw [listed] at member
    show p.serial < (t.shareOption context.other).nextSerial ∧
      p.serial ∉ consumedSerials (t.shareOption context.other).log
    rw [only.log, only.serial, log, next]
    rcases mine q p member with was | ⟨-, rfl⟩
    · obtain ⟨below, absent⟩ := recorded.fresh q p was
      exact ⟨Nat.lt_succ_of_lt below, absent⟩
    · rw [serial]
      exact ⟨Nat.lt_succ_self _, fun past => Nat.lt_irrefl _ (recorded.past _ past)⟩
  · intro q q' p p' member member' serials
    rw [listed] at member member'
    rcases mine q p member with was | ⟨rfl, rfl⟩
    · rcases mine q' p' member' with was' | ⟨rfl, rfl⟩
      · exact recorded.apart q q' p p' was was' serials
      · exact absurd serials (older q p was)
    · rcases mine q' p' member' with was' | ⟨rfl, rfl⟩
      · exact absurd serials.symm (older q' p' was')
      · exact ⟨rfl, rfl⟩
  · show ∀ n ∈ consumedSerials (t.shareOption context.other).log,
      n < (t.shareOption context.other).nextSerial
    rw [only.log, only.serial, log, next]
    exact fun n past => Nat.lt_succ_of_lt (recorded.past n past)
  · show (consumedSerials (t.shareOption context.other).log).Nodup
    rw [only.log, log]
    exact recorded.once
  · show (postSerials (t.shareOption context.other).log).Nodup
    rw [only.log, log]
    exact recorded.ranOnce
  · refine ⟨trivial, ?_⟩
    rw [only.log, log]
    exact recorded.justified

end Inv

/-! ## What happens meanwhile -/

/-- What was recorded since: the captures that post callbacks ran with, and those
in `claimed`, were consumed since. -/
def Since (claimed : List Nat) (s s' : State W) : Prop :=
  ∃ newer, s'.log = newer ++ s.log ∧ (∀ n ∈ postSerials newer, n ∈ consumedSerials newer) ∧
    ∀ n ∈ claimed, n ∈ consumedSerials newer

namespace Since

variable {claimed : List Nat} {s t u : State W}

theorem of_log (same : t.log = s.log) : Since [] s t :=
  ⟨[], same, fun _ member => absurd member List.not_mem_nil,
    fun _ member => absurd member List.not_mem_nil⟩

theorem refl (s : State W) : Since [] s s := of_log rfl

theorem append {more : List Nat} (first : Since claimed s t) (second : Since more t u) :
    Since (claimed ++ more) s u := by
  obtain ⟨newer, log, taken, mine⟩ := first
  obtain ⟨newest, log', taken', mine'⟩ := second
  refine ⟨newest ++ newer, by rw [log', log, List.append_assoc], ?_, ?_⟩
  · intro n member
    rw [postSerials_append] at member
    rw [consumedSerials_append]
    rcases List.mem_append.mp member with late | early
    · exact List.mem_append_left _ (taken' n late)
    · exact List.mem_append_right _ (taken n early)
  · intro n member
    rw [consumedSerials_append]
    rcases List.mem_append.mp member with early | late
    · exact List.mem_append_right _ (mine n early)
    · exact List.mem_append_left _ (mine' n late)

theorem trans (first : Since claimed s t) (second : Since [] t u) : Since claimed s u :=
  List.append_nil claimed ▸ first.append second

theorem weaken (since : Since claimed s t) : Since [] s t := by
  obtain ⟨newer, log, taken, -⟩ := since
  exact ⟨newer, log, taken, fun _ member => absurd member List.not_mem_nil⟩

theorem record {event : Event W} (runs : postSerials [event] = []) : Since [] s (s.record event) :=
  ⟨[event], rfl, fun _ member => absurd (runs ▸ member) List.not_mem_nil,
    fun _ member => absurd member List.not_mem_nil⟩

theorem consumed (r : Nat) (capture : Pending) :
    Since [capture.serial] s (s.record (.consumed r capture)) :=
  ⟨[.consumed r capture], rfl, fun _ member => absurd member List.not_mem_nil,
    fun _ member => member⟩

theorem ran {r : Nat} {state : Registration} {frame : NativeFrame} {capture : Pending} {w : W}
    (since : Since [capture.serial] s t) :
    Since [] s (t.record (.ran r state frame capture w)) := by
  obtain ⟨newer, log, taken, mine⟩ := since
  refine ⟨.ran r state frame capture w :: newer, by rw [State.record, log]; rfl, ?_,
    fun _ member => absurd member List.not_mem_nil⟩
  intro n member
  rw [← List.singleton_append, postSerials_append] at member
  show n ∈ consumedSerials newer
  rcases List.mem_append.mp member with now | early
  · have same : n = capture.serial := by
      unfold postSerials at now
      split at now
      · exact List.mem_singleton.mp now
      · exact absurd now List.not_mem_nil
    rw [same]
    exact mine _ (List.mem_singleton_self _)
  · exact taken n early

end Since

section Steady
variable (host : Host W)

/-- The invariant holds, and so much was recorded since `base`. -/
def Going (base s : State W) : Prop := Inv host s ∧ Since [] base s

/-- However it ends, the invariant holds then and whenever foreign code has control. -/
def Steady {α : Type} (m : M W α) : Prop :=
  ∀ base s, Going host base s → (m s).Wp (Inv host) (Since []) fun _ s' => Going host base s'

variable {host} {α β : Type}

theorem Going.moved {base s s' : State W} (going : Going host base s) (inv : Inv host s')
    (since : Since [] s s') : Going host base s' :=
  ⟨inv, going.2.trans since⟩

theorem steady_pure (value : α) : Steady host (pure value : M W α) := fun _ _ going => going

theorem steady_throw (text : Thrown) : Steady host (throw text : M W α) := fun _ _ going => going

theorem steady_get : Steady host (Code.get : M W (State W)) := fun _ _ going => going

theorem steady_modify {f : State W → State W}
    (keeps : ∀ s, Inv host s → Inv host (f s) ∧ Since [] s (f s)) :
    Steady host (Code.modify f : M W Unit) := by
  intro base s going
  obtain ⟨inv, since⟩ := keeps s going.1
  exact going.moved inv since

theorem steady_reply : Steady host (Code.reply : M W Reply) := fun _ _ going _ => going

theorem steady_enter : Steady host (Code.enter : M W Reply) := by
  intro base s going
  exact ⟨going.1, fun answer s' inv since => going.moved inv since⟩

theorem steady_bind {m : M W α} {f : α → M W β} (first : Steady host m)
    (rest : ∀ value, Steady host (f value)) : Steady host (m >>= f) := by
  intro base s going
  refine wp_bind.mpr ((first base s going).mono fun outcome s' later => ?_)
  cases outcome with
  | ok value => exact rest value base s' later
  | error text => exact later

theorem steady_ite {c : Prop} [Decidable c] {m n : M W α} (pos : c → Steady host m)
    (neg : ¬ c → Steady host n) : Steady host (if c then m else n) := by
  split
  · exact pos ‹c›
  · exact neg ‹¬ c›

/-! ## The operations that do not dispatch -/

theorem steady_drop (lease : Lease) : Steady host (Code.modify (State.drop lease) : M W Unit) :=
  steady_modify fun s inv => ⟨inv.drop lease, .of_log (OnlyLeases.drop lease s).log⟩

theorem steady_lend : Steady host (Code.modify State.lend : M W Unit) :=
  steady_modify fun _ inv => ⟨inv.lend, .of_log rfl⟩

theorem State.editHook_log (r : Nat) (f : Registration → Registration) (s : State W) :
    (s.editHook r f).log = s.log := by
  unfold State.editHook
  cases s.hooks[r]? <;> rfl

theorem steady_edit (r : Nat) {f : Registration → Registration}
    (pending : ∀ registration, (f registration).pending = registration.pending) :
    Steady host (Code.modify (State.editHook r f) : M W Unit) :=
  steady_modify fun s inv => ⟨inv.editHook r pending, .of_log (s.editHook_log r f)⟩

theorem Since.discard (r : Nat) (s : State W) : Since [] s ((s.clear r).record (.discarded r)) :=
  (Since.of_log (s.clear_log r)).trans (.record rfl)

theorem State.forget_log (r : Nat) (s : State W) : (s.forget r).log = s.log := by
  unfold State.forget
  cases s.hooks[r]? with
  | none => rfl
  | some registration =>
      exact ((OnlyLeases.dropPending registration.pending _).trans
        (OnlyLeases.drop registration.entity _)).log

theorem steady_forget (r : Nat) : Steady host (Code.modify (State.forget r) : M W Unit) :=
  steady_modify fun s inv => ⟨inv.forget r, .of_log (s.forget_log r)⟩

/-- A lease that turns out wrong is dropped again. -/
theorem steady_undo (lease : Lease) (text : Thrown) :
    Steady host (do Code.modify (State.drop lease); throw text : M W α) :=
  steady_bind (steady_drop lease) fun _ => steady_throw text

theorem steady_forgetIdle (r : Nat) :
    Steady host (Code.modify (State.forgetIdle r) : M W Unit) := by
  refine steady_modify fun s inv => ?_
  unfold State.forgetIdle
  split
  · exact ⟨inv, .refl s⟩
  · split
    · exact ⟨inv.forget r, .of_log (s.forget_log r)⟩
    · exact ⟨inv, .refl s⟩

theorem acquire_steady (source : Nat) : Steady host (acquire host source) := by
  unfold acquire
  refine steady_bind steady_get fun s => ?_
  refine steady_ite (fun _ => steady_throw _) fun _ => ?_
  extract_lets found
  clear_value found
  cases found with
  | error result => exact steady_throw _
  | ok pair =>
      refine steady_ite (fun _ => steady_throw _) fun _ => ?_
      refine steady_bind steady_lend fun _ => ?_
      extract_lets lease
      split
      · refine steady_ite (fun _ => steady_pure _) fun _ => ?_
        exact steady_undo _ _
      · exact steady_undo _ _

theorem capture_steady (pointer : Pointer) : Steady host (capture host pointer) := by
  unfold capture
  refine steady_ite (fun _ => steady_pure _) fun _ => ?_
  refine steady_bind steady_get fun s => ?_
  refine steady_ite (fun _ => steady_throw _) fun _ => ?_
  dsimp only
  split
  · exact steady_throw _
  · refine steady_ite (fun _ => steady_throw _) fun _ => ?_
    refine steady_bind steady_lend fun _ => ?_
    split
    · refine steady_ite (fun _ => steady_pure _) fun _ => ?_
      exact steady_undo _ _
    · exact steady_undo _ _

theorem closeNative_steady (r : Nat) : Steady host (closeNative r : M W Unit) := by
  unfold closeNative
  refine steady_bind steady_get fun s => ?_
  split
  · exact steady_pure _
  · refine steady_ite (fun _ => steady_pure _) fun _ => ?_
    refine steady_bind (steady_edit r fun _ => rfl) fun _ => ?_
    exact steady_bind steady_enter fun _ => steady_pure _

theorem close_steady (r : Nat) : Steady host (close r : M W Unit) := by
  unfold close
  refine steady_bind (closeNative_steady r) fun _ => ?_
  exact steady_modify fun s inv => ⟨inv.discard r, .discard r s⟩

theorem enable_steady (r : Nat) (enabled : Bool) : Steady host (enable r enabled : M W Unit) := by
  unfold enable
  refine steady_bind steady_get fun s => ?_
  split
  · exact steady_throw _
  · refine steady_ite (fun _ => steady_throw _) fun _ => ?_
    refine steady_bind steady_reply fun answer => ?_
    refine steady_ite (fun _ => steady_throw _) fun _ => ?_
    refine steady_modify fun s inv => ?_
    have edited := inv.editHook r (f := fun registration => { registration with enabled })
      fun _ => rfl
    exact ⟨edited.discard r, (Since.of_log (s.editHook_log r _)).trans (.discard r _)⟩

theorem clearAll_keeps (listed : List (Nat × Registration)) {s : State W} (inv : Inv host s) :
    Inv host (listed.foldl (fun s hook => s.clear hook.1) s) ∧
      Since [] s (listed.foldl (fun s hook => s.clear hook.1) s) := by
  induction listed generalizing s with
  | nil => exact ⟨inv, .refl s⟩
  | cons hook listed ih =>
      obtain ⟨inv', since⟩ := ih (inv.clear hook.1)
      exact ⟨inv', (Since.of_log (s.clear_log hook.1)).trans since⟩

theorem collect_steady (endFrame : Bool) : Steady host (collect endFrame : M W Unit) := by
  unfold collect
  refine steady_bind steady_enter fun _ => ?_
  refine steady_bind steady_get fun s => ?_
  refine steady_ite (fun _ => ?_) fun _ => steady_pure _
  exact steady_modify fun s inv => clearAll_keeps _ inv

theorem steady_install (r : Nat) {registration : Registration}
    (pending : registration.pending = []) :
    Steady host (Code.modify fun s => { s.setHook r registration with nextHook := r + 1 } :
      M W Unit) := by
  refine steady_modify fun s inv => ⟨⟨inv.leased.of_same rfl rfl rfl, ?_⟩, .of_log rfl⟩
  refine inv.recorded.fewer rfl rfl fun q => ?_
  show ((s.setHook r registration).waitingOf q).Sublist (s.waitingOf q)
  rw [State.waitingOf_setHook, pending]
  split
  · exact List.nil_sublist _
  · exact List.Sublist.refl _

theorem attach_steady (spec : Spec) : Steady host (attach host spec) := by
  unfold attach
  refine steady_bind (collect_steady false) fun _ => ?_
  refine steady_ite (fun _ => steady_throw _) fun _ => ?_
  refine steady_bind (acquire_steady spec.source) fun entity => ?_
  refine steady_bind steady_get fun s => ?_
  split
  · refine steady_ite (fun _ => steady_undo _ _) fun _ => ?_
    refine steady_bind steady_enter fun opened => ?_
    refine steady_ite (fun _ => steady_undo _ _) fun _ => ?_
    refine steady_bind steady_get fun s => ?_
    refine steady_bind (steady_install s.nextHook rfl) fun _ => ?_
    refine steady_bind steady_enter fun installed => ?_
    refine steady_ite (fun _ => steady_edit _ fun _ => rfl) fun _ => ?_
    refine steady_bind (closeNative_steady _) fun _ => ?_
    refine steady_bind steady_enter fun swept => ?_
    refine steady_ite (fun _ => ?_) fun _ => steady_throw _
    exact steady_bind (steady_forgetIdle _) fun _ => steady_throw _
  · exact steady_undo _ _

/-! ## Dispatches -/

theorem capture_only (pointer : Pointer) (s : State W) :
    (capture host pointer s).Wp (Inv host) (Since []) fun _ s' => OnlyLeases s s' := by
  unfold capture
  refine wp_ite (fun _ => wp_pure.mpr (.refl s)) fun _ => ?_
  refine wp_bind.mpr (wp_get.mpr ?_)
  refine wp_ite (fun _ => wp_throw.mpr (.refl s)) fun _ => ?_
  dsimp only
  cases host.capture s.world pointer with
  | error result => exact wp_throw.mpr (.refl s)
  | ok handle =>
      refine wp_ite (fun _ => wp_throw.mpr (.refl s)) fun _ => ?_
      refine wp_bind.mpr (wp_modify.mpr ?_)
      dsimp only
      have undone : ∀ lease, OnlyLeases s (s.lend.drop lease) := fun lease =>
        (OnlyLeases.lend s).trans (.drop lease _)
      cases host.describe s.world handle with
      | error result => exact wp_bind.mpr (wp_modify.mpr (wp_throw.mpr (undone _)))
      | ok identity =>
          refine wp_ite (fun _ => wp_pure.mpr (.lend s)) fun _ => ?_
          exact wp_bind.mpr (wp_modify.mpr (wp_throw.mpr (undone _)))

/-- No capture of the hook has the key. -/
def Free (r : Nat) (key : Pointer) (s : State W) : Prop := ∀ p ∈ s.waitingOf r, p.key ≠ key

theorem Free.of_none {r : Nat} {key : Pointer} {s : State W} (found : s.found r key = none) :
    Free r key s := by
  rw [State.found_eq, List.find?_eq_none] at found
  intro p member same
  exact found p member (by simp [same])

theorem Free.take {r : Nat} {key : Pointer} {s : State W} (inv : Inv host s) :
    Free r key (s.take r key) := by
  intro p member
  rw [State.waitingOf_take, if_pos rfl] at member
  exact key_ne_of_mem_eraseP (inv.recorded.keys r) p member

theorem Free.only {r : Nat} {key : Pointer} {s s' : State W} (free : Free r key s)
    (only : OnlyLeases s s') : Free r key s' := by
  intro p member
  rw [State.waitingOf_congr only.hooks] at member
  exact free p member

/-- A pre phase which captures nothing. -/
theorem Going.missed {base s : State W} {r : Nat} {key : Pointer} (going : Going host base s)
    (free : Free r key s) : Going host base (s.record (.pre r key none)) := by
  refine going.moved ⟨going.1.leased.of_same rfl rfl rfl, ?_⟩ (.record rfl)
  refine going.1.recorded.record rfl rfl ?_ trivial
  intro q p member ends
  obtain ⟨rfl, key_⟩ : r = q ∧ key = p.key := ends
  exact free p member key_.symm

theorem Going.onlyLeases {base s s' : State W} (going : Going host base s)
    (only : OnlyLeases s s') (leased : Leased s') : Going host base s' :=
  going.moved (going.1.onlyLeases only leased) (.of_log only.log)

theorem replace_keeps {r : Nat} {key : Pointer} {base s : State W} (going : Going host base s) :
    Going host base (s.replace r key) ∧ Free r key (s.replace r key) := by
  unfold State.replace
  split
  · rename_i found
    exact ⟨going, .of_none found⟩
  · rename_i old found
    have taken := going.1.take r key
    have only := OnlyLeases.dropOption old.other (s.take r key)
    refine ⟨going.moved (taken.dropOption old.other) (.of_log ?_), (Free.take going.1).only only⟩
    rw [only.log, State.take_log]

theorem captureOther_wp {state : Registration} {frame : NativeFrame} {base s : State W}
    (going : Going host base s) :
    (captureOther host state frame s).Wp (Inv host) (Since [])
      (Returns fun _ s' => Going host base s' ∧ OnlyLeases s s') := by
  unfold captureOther
  refine wp_tryCatch.mpr (wp_ite (fun _ => ?_) fun _ => ⟨going, .refl s⟩)
  have captured := (capture_steady (state.secondary frame) base s going).and
    (capture_only (state.secondary frame) s)
  refine wp_bind.mpr (captured.mono fun outcome t both => ?_)
  cases outcome with
  | ok other => exact both
  | error text => exact both

theorem preCapture_wp {r : Nat} {state : Registration} {frame : NativeFrame} {base s : State W}
    (going : Going host base s) :
    (preCapture host r state frame s).Wp (Inv host) (Since [])
      (Returns fun _ s' => Going host base s') := by
  obtain ⟨going, free⟩ : Going host base (s.replace r frame.key) ∧
      Free r frame.key (s.replace r frame.key) := replace_keeps going
  unfold preCapture
  refine wp_bind.mpr (wp_modify.mpr (wp_bind.mpr (wp_get.mpr ?_)))
  refine wp_ite (fun _ => ?_) fun room => ?_
  · exact wp_bind.mpr (wp_modify.mpr (going.missed free))
  · refine wp_returns (captureOther_wp going) ?_
    intro captured t ⟨going, only⟩
    have free := free.only only
    cases captured with
    | none => exact wp_bind.mpr (wp_modify.mpr (going.missed free))
    | some other =>
        refine wp_bind.mpr (wp_get.mpr (wp_bind.mpr (wp_modify.mpr ?_)))
        have below : t.waiting r < 8 := by
          have short := going.1.recorded.short r
          have full : (s.replace r frame.key).waiting r ≠ 8 := by
            intro full
            simp [full] at room
          rw [State.waiting_eq, ← State.waitingOf_congr only.hooks] at full
          rw [State.waiting_eq]
          omega
        refine going.moved (going.1.push rfl below free) ?_
        exact (Since.of_log (t.push_log r _)).trans (.record rfl)

/-- A dispatch with a capture under way: a post phase has taken the capture over,
and no callback ran with it so far. -/
structure Carrying (host : Host W) (base : State W) (r : Nat) (frame : NativeFrame)
    (context : Pending) (s : State W) : Prop where
  going : Going host base s
  since : frame.phase = .post → Since [context.serial] base s
  taken : frame.phase = .post → .consumed r context ∈ s.log
  first : frame.phase = .post → context.serial ∉ postSerials s.log
  key : frame.phase = .post → context.key = frame.key

theorem Carrying.moved {base s s' : State W} {r : Nat} {frame : NativeFrame} {context : Pending}
    (carrying : Carrying host base r frame context s) (inv : Inv host s') (since : Since [] s s') :
    Carrying host base r frame context s' where
  going := carrying.going.moved inv since
  since post := (carrying.since post).trans since
  taken post := by
    obtain ⟨newer, log, -, -⟩ := since
    rw [log]
    exact List.mem_append_right _ (carrying.taken post)
  first post := by
    -- whoever runs with the capture has consumed it, but it can be consumed only once
    obtain ⟨newer, log, taken, -⟩ := since
    have once := inv.recorded.once
    rw [log, consumedSerials_append, List.nodup_append] at once
    rw [log, postSerials_append]
    intro member
    rcases List.mem_append.mp member with late | early
    · exact once.2.2 _ (taken _ late) _ (mem_consumedSerials (carrying.taken post)) rfl
    · exact carrying.first post early
  key := carrying.key

theorem Carrying.pre {base s : State W} {r : Nat} {frame : NativeFrame} {context : Pending}
    (going : Going host base s) (pre : frame.phase ≠ .post) :
    Carrying host base r frame context s :=
  ⟨going, fun post => absurd post pre, fun post => absurd post pre, fun post => absurd post pre,
    fun post => absurd post pre⟩

/-- The pointers of the post phase are those of the capture. -/
def Paired (state : Registration) (frame : NativeFrame) (context : Pending) : Prop :=
  frame.phase = .post → context.instance_ = frame.instance_ ∧
    context.secondary = state.secondary frame

theorem postCapture_wp {r : Nat} {state : Registration} {frame : NativeFrame} {base s : State W}
    (going : Going host base s) :
    (postCapture host r state frame s).Wp (Inv host) (Since [])
      (Returns fun captured s' => Going host base s' ∧ ∀ context, captured = .ok context →
        Carrying host base r frame context s' ∧ Paired state frame context) := by
  unfold postCapture
  refine wp_bind.mpr (wp_get.mpr ?_)
  dsimp only
  cases found : s.found r frame.key with
  | none => exact wp_pure.mpr ⟨going, fun context wrong => nomatch wrong⟩
  | some context =>
      obtain ⟨inv, key, first⟩ := going.1.consume found
      refine wp_bind.mpr (wp_modify.mpr (wp_bind.mpr (wp_get.mpr ?_)))
      have log := s.take_log r frame.key
      have consumed : Since [context.serial] s
          ((s.take r frame.key).record (.consumed r context)) := by
        obtain ⟨newer, log', posts, mine⟩ := Since.consumed (s := s.take r frame.key) r context
        exact ⟨newer, by rw [log', log], posts, mine⟩
      have moved := going.moved inv consumed.weaken
      refine wp_ite (fun _ => ?_) fun same => ?_
      · refine wp_bind.mpr (wp_modify.mpr (wp_pure.mpr ?_))
        have leased := (inv.dropOption context.other).leased
        refine ⟨moved.onlyLeases (.dropOption context.other _) leased, fun context wrong => nomatch wrong⟩
      · refine wp_pure.mpr ⟨moved, fun other same' => ?_⟩
        cases same'
        refine ⟨⟨moved, fun _ => ?_, fun _ => List.mem_cons_self .., fun _ => ?_, fun _ => key⟩, ?_⟩
        · exact going.2.append consumed
        · show context.serial ∉ postSerials (s.take r frame.key).log
          rw [log]
          exact first
        · simp only [Bool.or_eq_true, not_or, bne_iff_ne, ne_eq, not_not] at same
          exact fun _ => ⟨same.1.1.1, same.1.1.2⟩

theorem writeDamage_wp {state : Registration} {reply : Reply} {base s : State W}
    (going : Going host base s) :
    (writeDamage state reply s).Wp (Inv host) (Since [])
      (Returns fun _ s' => Going host base s') := by
  unfold writeDamage
  refine wp_ite (fun _ => ?_) fun _ => wp_pure.mpr going
  exact wp_bind.mpr (wp_enter.mpr ⟨going.1, fun answer t inv since => going.moved inv since⟩)

theorem Carrying.readDamage {state : Registration} {base s : State W} {r : Nat}
    {frame : NativeFrame} {context : Pending} (carrying : Carrying host base r frame context s) :
    (readDamage state s).Wp (Inv host) (Since [])
      (Returns fun _ s' => Carrying host base r frame context s') := by
  unfold SdkHooks.readDamage
  refine wp_ite (fun _ => ?_) fun _ => wp_pure.mpr carrying
  refine wp_bind.mpr (wp_enter.mpr ⟨carrying.going.1, fun answer t inv since => ?_⟩)
  exact carrying.moved inv since

/-- The callback begins with the entities still there. -/
theorem Carrying.ran {state : Registration} {base s : State W} {r : Nat} {frame : NativeFrame}
    {context : Pending} (carrying : Carrying host base r frame context s)
    (paired : Paired state frame context) (there : alive host state frame context s.world) :
    Going host base (s.record (.ran r state frame context s.world)) := by
  have justified : (Event.ran r state frame context s.world).justified host s.log :=
    ⟨there, fun post => ⟨carrying.key post, (paired post).1, (paired post).2, carrying.taken post⟩⟩
  have inv := carrying.going.1
  by_cases post : frame.phase = .post
  · have recorded := inv.recorded.recordPost post (carrying.first post) justified
    exact ⟨⟨inv.leased.of_same rfl rfl rfl, recorded⟩, (carrying.since post).ran⟩
  · have runs : postSerials [Event.ran r state frame context s.world] = [] := if_neg post
    have recorded := inv.recorded.record rfl runs (fun _ _ _ ends => ends) justified
    exact carrying.going.moved ⟨inv.leased.of_same rfl rfl rfl, recorded⟩ (.record runs)

theorem callback_wp {r : Nat} {state : Registration} {frame : NativeFrame} {context : Pending}
    {base s : State W} (carrying : Carrying host base r frame context s)
    (paired : Paired state frame context) :
    (callback host r state frame context s).Wp (Inv host) (Since [])
      (Returns fun result s' => Going host base s' ∧ ∀ w, result.2.2 = some w → w = s'.world) := by
  unfold callback
  refine wp_returns carrying.readDamage fun readable t carrying => ?_
  refine wp_bind.mpr (wp_get.mpr ?_)
  have unrun : ∀ w, (none : Option W) = some w → w = t.world := fun w wrong => nomatch wrong
  refine wp_ite (fun _ => ⟨carrying.going, unrun⟩) fun _ => ?_
  refine wp_ite (fun there => ?_) fun _ => ⟨carrying.going, unrun⟩
  have ran := carrying.ran paired (by simpa [alive] using there)
  refine wp_bind.mpr (wp_modify.mpr (wp_bind.mpr (wp_enter.mpr ⟨ran.1, ?_⟩)))
  intro answer u inv since
  refine wp_bind.mpr (wp_get.mpr ⟨ran.moved inv since, ?_⟩)
  exact fun w same => (Option.some.inj same).symm

theorem conclude_wp {state : Registration} {frame : NativeFrame} {context : Pending}
    {action : Int} {reply : Reply} {base s : State W} (going : Going host base s) :
    (conclude host state frame context action reply s).Wp (Inv host) (Since [])
      (Returns fun answer s' => Going host base s' ∧
        (frame.phase = .pre → ¬ alive host state frame context s.world →
          answer.action = .supersede)) := by
  unfold conclude
  refine wp_bind.mpr (wp_get.mpr ?_)
  refine wp_ite (fun _ => ⟨going, fun _ _ => rfl⟩) fun stays => ?_
  have there : frame.phase = .pre → ¬ alive host state frame context s.world → False := by
    intro pre gone
    refine stays ⟨pre, ?_⟩
    have missing : ¬ (state.matches_ host s.world frame.instance_ &&
        validOption host s.world context.other) = true := by
      rwa [Bool.and_eq_true]
    rw [Bool.not_eq_true] at missing
    rw [missing]
    rfl
  have kept : ∀ {action : HookAction}, frame.phase = .pre →
      ¬ alive host state frame context s.world → action = .supersede :=
    fun pre gone => (there pre gone).elim
  refine wp_ite (fun _ => ⟨going, kept⟩) fun _ => ?_
  refine wp_ite (fun _ => ⟨going, kept⟩) fun _ => ?_
  refine wp_returns (writeDamage_wp going) fun written t later => ?_
  refine wp_bind.mpr (wp_get.mpr ?_)
  refine wp_ite (fun _ => ⟨later, kept⟩) fun _ => ?_
  exact wp_ite (fun _ => ⟨later, kept⟩) fun _ => ⟨later, kept⟩

/-- A dispatch ends with an answer the record allows. -/
theorem Going.answered {r : Nat} {state : Registration} {frame : NativeFrame}
    {capture : Option Pending} {left : Option W} {action : HookAction} {base s : State W}
    (going : Going host base s)
    (justified : (Event.answered r state frame capture left action).justified host s.log) :
    Going host base (s.record (.answered r state frame capture left action)) := by
  refine going.moved ⟨going.1.leased.of_same rfl rfl rfl, ?_⟩ (.record rfl)
  exact going.1.recorded.record rfl rfl (fun _ _ _ ends => ends) justified

theorem deliver_wp {r : Nat} {state : Registration} {frame : NativeFrame} {context : Pending}
    {base s : State W} (carrying : Carrying host base r frame context s)
    (paired : Paired state frame context) :
    (deliver host r state frame context s).Wp (Inv host) (Since [])
      (Returns fun _ s' => Going host base s') := by
  unfold deliver
  refine wp_ite (fun _ => ?_) fun _ => ?_
  · refine wp_returns (callback_wp carrying paired) ?_
    intro ⟨action, reply, left⟩ t ⟨going, world⟩
    refine wp_returns (conclude_wp going) ?_
    intro answer u ⟨going, blocks⟩
    refine wp_bind.mpr (wp_modify.mpr (wp_pure.mpr (going.answered ?_)))
    intro context' w same left_ pre gone
    cases same
    rw [world w left_] at gone
    exact blocks pre gone
  · refine wp_bind.mpr (wp_modify.mpr (wp_pure.mpr (carrying.going.answered ?_)))
    intro context' w same none_
    cases none_

theorem captureFor_wp {r : Nat} {state : Registration} {frame : NativeFrame} {base s : State W}
    (going : Going host base s) :
    (captureFor host r state frame s).Wp (Inv host) (Since [])
      (Returns fun captured s' => Going host base s' ∧ ∀ context, captured = .ok context →
        Carrying host base r frame context s' ∧ Paired state frame context) := by
  unfold captureFor
  cases phase : frame.phase with
  | pre =>
      have pre : frame.phase ≠ .post := by simp [phase]
      refine (preCapture_wp going).returns fun captured t later => ⟨later, fun context _ => ?_⟩
      exact ⟨.pre later pre, fun post => absurd post pre⟩
  | post => exact postCapture_wp going

theorem dispatch_wp {r : Nat} {state : Registration} {frame : NativeFrame} {base s : State W}
    (going : Going host base s) :
    (dispatch host r state frame s).Wp (Inv host) (Since [])
      (Returns fun _ s' => Going host base s') := by
  have flags : ∀ {t : State W} (n : Nat), Going host base t →
      Going host base { t with active := n } := fun n going =>
    going.onlyLeases ⟨rfl, rfl, rfl⟩ (going.1.leased.of_same rfl rfl rfl)
  unfold dispatch
  refine wp_finally.mpr (wp_bind.mpr (wp_modify.mpr ?_))
  refine wp_returns (captureFor_wp (flags _ going)) ?_
  intro captured t ⟨going, carried⟩
  cases captured with
  | error answer =>
      refine wp_bind.mpr (wp_modify.mpr (wp_pure.mpr (flags _ (going.answered ?_))))
      intro context w none_
      cases none_
  | ok context =>
      obtain ⟨carrying, paired⟩ := carried context rfl
      refine wp_finally.mpr ((deliver_wp carrying paired).mono fun outcome u later => ?_)
      cases outcome with
      | error text => exact later
      | ok answer =>
          have dropped := later.1.dropOption context.other
          exact flags _ (later.onlyLeases (.dropOption context.other u) dropped.leased)

theorem transport_steady (r : Nat) (frame : NativeFrame) :
    Steady host (transport host r frame) := by
  intro base s going
  unfold transport
  refine wp_bind.mpr (wp_get.mpr ?_)
  dsimp only
  cases s.hooks[r]? with
  | none => exact going
  | some state =>
      refine wp_ite (fun _ => going) fun _ => ?_
      have edits : ∀ {t : State W} (n : Nat) {f : Registration → Registration},
          (∀ registration, (f registration).pending = registration.pending) → Going host base t →
            Going host base { t.editHook r f with depth := n } := by
        intro t n f pending going
        have edited := going.moved (going.1.editHook r pending) (.of_log (t.editHook_log r f))
        exact edited.onlyLeases ⟨rfl, rfl, rfl⟩ (edited.1.leased.of_same rfl rfl rfl)
      refine wp_finally.mpr (wp_bind.mpr (wp_modify.mpr ?_))
      refine wp_returns (dispatch_wp (edits _ (fun _ => rfl) going)) fun answer t later => ?_
      refine wp_ite (fun _ => ?_) fun _ => edits _ (fun _ => rfl) later
      exact (closeNative_steady r base t later).mono fun outcome u ended =>
        edits _ (fun _ => rfl) ended

theorem perform_steady (operation : Operation W) : Steady host (perform host operation) := by
  cases operation with
  | attach spec => exact attach_steady spec
  | close r => exact close_steady r
  | enable r enabled => exact enable_steady r enabled
  | collect endFrame => exact collect_steady endFrame
  | dispatch r frame => exact transport_steady r frame
  | forget r => exact steady_forget r
  | world w =>
      exact steady_modify fun s inv =>
        ⟨inv.onlyLeases ⟨rfl, rfl, rfl⟩ (inv.leased.of_same rfl rfl rfl), .of_log rfl⟩

end Steady

/-! ## All runs -/

/-- What the record of a run shows. -/
structure Matched (host : Host W) (s : State W) : Prop where
  /-- A post callback ran with a capture it consumed, made by the latest pre phase the
  hook saw with the key, for the same pointers and for entities that were still there. -/
  post : ∀ newer older r state frame capture w,
    s.log = newer ++ .ran r state frame capture w :: older → frame.phase = .post →
      capture.key = frame.key ∧ capture.instance_ = frame.instance_ ∧
        capture.secondary = state.secondary frame ∧
        state.matches_ host w frame.instance_ = true ∧ valid host w state.entity = true ∧
        validOption host w capture.other = true ∧
        ∃ between before, older = between ++ .consumed r capture :: before ∧
          Standing r capture before
  once : (consumedSerials s.log).Nodup
  ranOnce : (postSerials s.log).Nodup
  /-- What waits was neither consumed nor discarded. -/
  waiting : ∀ r registration, s.hooks[r]? = some registration → registration.pending.length ≤ 8 ∧
    ∀ capture ∈ registration.pending, Standing r capture s.log ∧
      capture.serial ∉ consumedSerials s.log
  leases : s.leases = s.live.size
  /-- A callback that left an entity gone had its call blocked. -/
  blocked : ∀ r state frame capture w action,
    .answered r state frame (some capture) (some w) action ∈ s.log → frame.phase = .pre →
      ¬ (state.matches_ host w frame.instance_ = true ∧ validOption host w capture.other = true) →
        action = .supersede

theorem Registration.valid_of_matches {host : Host W} {w : W} {state : Registration}
    {pointer : Pointer} (matches_ : state.matches_ host w pointer = true) :
    valid host w state.entity = true := by
  unfold Registration.matches_ at matches_
  split at matches_
  · cases matches_
  · rename_i both
    simp only [Bool.or_eq_true, decide_eq_true_eq, Bool.not_eq_true', not_or,
      Bool.not_eq_false] at both
    exact both.2

theorem Justified.event {host : Host W} {newer older : List (Event W)} {event : Event W}
    (justified : Justified host (newer ++ event :: older)) :
    event.justified host older ∧ Justified host older :=
  justified.of_append

theorem Inv.matched {host : Host W} {s : State W} (inv : Inv host s) : Matched host s where
  post newer older r state frame capture w log post := by
    have justified := inv.recorded.justified
    rw [log] at justified
    obtain ⟨⟨there, paired⟩, justified⟩ := justified.event
    obtain ⟨key, instance_, secondary, consumed⟩ := paired post
    obtain ⟨between, before, rfl⟩ := List.append_of_mem consumed
    exact ⟨key, instance_, secondary, there.1, Registration.valid_of_matches there.1, there.2,
      between, before, rfl, justified.event.1⟩
  once := inv.recorded.once
  ranOnce := inv.recorded.ranOnce
  waiting r registration at_ := by
    have pending : s.waitingOf r = registration.pending := by
      unfold State.waitingOf
      rw [at_]
    rw [← pending]
    exact ⟨inv.recorded.short r, fun capture member =>
      ⟨inv.recorded.standing r capture member, (inv.recorded.fresh r capture member).2⟩⟩
  leases := inv.leased.count
  blocked r state frame capture w action member pre gone := by
    obtain ⟨newer, older, log⟩ := List.append_of_mem member
    have justified := inv.recorded.justified
    rw [log] at justified
    exact justified.event.1 capture w rfl rfl pre gone

theorem Inv.start (host : Host W) (w : W) : Inv host { world := w } := by
  have nothing : ∀ r, ({ world := w } : State W).waitingOf r = [] := fun r => by
    unfold State.waitingOf
    simp
  refine ⟨⟨rfl, fun id there => absurd there Std.ExtTreeMap.not_mem_empty⟩, ?_⟩
  refine ⟨fun r => ?_, fun r => ?_, fun r p member => ?_, fun r p member => ?_,
    fun r r' p p' member => ?_, fun _ member => absurd member List.not_mem_nil, List.nodup_nil,
    List.nodup_nil, trivial⟩
  · simp [nothing]
  · simp [nothing]
  · simp [nothing] at member
  · simp [nothing] at member
  · simp [nothing] at member

/-- Whatever is attached, dispatched, closed or removed, and however it nests. -/
theorem hooks_matched {host : Host W} {w : W} {s : State W}
    {stack : List (Reply → State W → Tree (State W) Reply Thrown Unit)}
    (reached : Reaches (perform host) allowed { world := w } s stack) : Matched host s := by
  have keeps : ∀ operation t, Inv host t → allowed t operation →
      (perform host operation t).Wp (Inv host) (Since []) (Ended (Inv host) (Since []) t) :=
    fun operation t inv _ => perform_steady operation t t ⟨inv, .refl t⟩
  exact (control_inv Since.refl (fun _ _ _ => Since.trans) keeps (.start host w) reached).1.matched

/-- A world that says whether the touching entity is still there. -/
def playground : Host Bool where
  find _ source := .ok source
  describe there handle :=
    if handle = 5 ∨ there then
      .ok { sized := true, index := 1, source2Handle := handle, reserved := 0, epoch := 1 }
    else .error .notFound
  visit _ _ _ := .ok (some 10)
  capture _ _ := .ok 6
  weaponMatches _ _ _ := .ok false
  construction := false
  observe _ _ := .error .notFound
  describePending _ _ := .error .notFound
  visitPending _ _ _ := .error .notFound

/-- A touch with both phases, then one whose pre callback removes the other entity. -/
def touches : List (Label (Operation Bool) Reply) :=
  let fine : Reply :=
    { ok := true, action := some 0, edited := false, result := false, retained := false }
  let frame (phase : Phase) : NativeFrame :=
    { key := 1, phase, instance_ := 10, argument := 20, result := false }
  let spec : Spec :=
    { source := 5, className := "CBaseEntity", kind := .touch, phases := fun _ => true }
  [.start (.attach spec),
    .back fine, .back fine, .back fine,
    .start (.dispatch 0 (frame .pre)), .back fine, .start (.dispatch 0 (frame .post)), .back fine,
    .start (.dispatch 0 (frame .pre)), .start (.world false), .back fine]

def touched : Option (State Bool) :=
  match Transition.run (next (perform playground) allowed) { control := .foreign { world := true } }
    touches with
  | some { control := .foreign s, stack := [] } => some s
  | _ => none

theorem touched_reaches {s : State Bool} (same : touched = some s) :
    Reaches (perform playground) allowed { world := true } s [] := by
  unfold touched at same
  split at same
  · rename_i s' ran
    cases same
    exact ⟨touches, ran⟩
  · cases same

theorem hooks_matched_touches :
    ∃ s, Reaches (perform playground) allowed { world := true } s [] ∧ Matched playground s ∧
      s.log.length = 9 ∧ consumedSerials s.log = [0] ∧ s.leases = 2 := by
  have ran : (touched.any fun s => s.log.length == 9 && consumedSerials s.log == [0] &&
      s.leases == 2) = true := by
    decide +kernel
  obtain ⟨s, same, shown⟩ := (Option.any_eq_true ..).mp ran
  simp only [Bool.and_eq_true, beq_iff_eq] at shown
  exact ⟨s, touched_reaches same, hooks_matched (touched_reaches same), shown.1.1, shown.1.2,
    shown.2⟩

end Source2Root.SdkHooks
