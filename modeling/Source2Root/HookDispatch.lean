import Mathlib
import Source2Root.HookFrame
import Source2Root.Identity
import Source2Root.Transition

/-!
# Dispatching native hooks

`Service::Dispatch` and `CheckBufferEdits` of `extensions/dhooks/hooks.cpp`, and the
callback of `extensions/dhooks/extension.cpp` that runs a script with a window on the
snapshot.  While the script runs it may edit any open window of its own, close and
enable hooks, and cause further native calls with frames of their own.

A native frame belongs to one native call, whose dispatches come one after another.
`before`, `edits` and the `log` are not in the source: they record what each dispatch
found, what its callback changed, and what it left.
-/

set_option autoImplicit false

namespace Source2Root.HookDispatch

open HookFrame

/-! ## Edits -/

/-- What changes a snapshot: the setters, and the mark to retire the hook. -/
inductive Edit where
  | setInteger (slot : Nat) (cell : Int)
  | setIntegerText (slot : Nat) (text : Text)
  | setNumber (slot : Nat) (number : Float32)
  | setNumberText (slot : Nat) (text : Text)
  | setNull (slot : Nat)
  | copy (destination source : Nat)
  | retire

/-- The slot that the edit writes. -/
def Edit.slot : Edit → Option Nat
  | .setInteger slot _ | .setIntegerText slot _ | .setNumber slot _ | .setNumberText slot _
  | .setNull slot | .copy slot _ => some slot
  | .retire => none

section Edits
variable (fromChars : Text → Option Float)

def Edit.apply : Edit → Frame → Except String Frame
  | .setInteger slot cell => Frame.setInteger slot cell
  | .setIntegerText slot text => Frame.setIntegerText slot text
  | .setNumber slot number => Frame.setNumber slot number
  | .setNumberText slot text => Frame.setNumberText fromChars slot text
  | .setNull slot => Frame.setNull slot
  | .copy destination source => HookFrame.Frame.copy destination source
  | .retire => fun frame => .ok { frame with retire := true }

def applyAll (edits : List Edit) (frame : Frame) : Except String Frame :=
  edits.foldlM (fun frame edit => edit.apply fromChars frame) frame

/-- An accepted edit writes a value of the same type to a slot that may be written. -/
inductive Assigned (slot : Option Nat) (frame : Frame) : Frame → Prop where
  | value (i : Nat) (old new : KeelHookValue) (here : slot = some i)
      (writable : frame.writable i = .ok old) (typed : new.type = old.type) :
      Assigned slot frame (frame.assign i new)
  | retire (none : slot = none) : Assigned slot frame { frame with retire := true }

theorem writeInteger_type {value written : KeelHookValue} {source : NativeIntegers.IntegerValue}
    (done : writeInteger value source = .ok written) : written.type = value.type := by
  cases typed : value.type.kind with
  | some k =>
      by_cases range : k.InRange source.number
      · rw [writeInteger_inRange typed range] at done
        cases done
        rfl
      · obtain ⟨message, refused⟩ := writeInteger_outside typed range
        rw [refused] at done
        cases done
  | none =>
      rw [writeInteger_other typed] at done
      cases done

theorem writeNumber_type {value written : KeelHookValue} {number : Float}
    (done : writeNumber value number = .ok written) : written.type = value.type := by
  unfold writeNumber at done
  split at done
  · cases done
  · split at done
    · cases done
      rfl
    · split at done
      · split at done
        · cases done
        · cases done
          rfl
      · cases done

/-- What every setter does once the slot may be written. -/
theorem assigned_of_bind {slot : Nat} {frame edited : Frame}
    {f : KeelHookValue → Except String KeelHookValue}
    (typed : ∀ old new, f old = .ok new → new.type = old.type)
    (done : (do
      let value ← frame.writable slot
      return frame.assign slot (← f value)) = .ok edited) : Assigned (some slot) frame edited := by
  obtain ⟨old, writable, done⟩ := bind_eq_ok.mp done
  obtain ⟨new, written, done⟩ := bind_eq_ok.mp done
  cases done
  exact .value slot old new rfl writable (typed old new written)

theorem Edit.apply_assigned {edit : Edit} {frame edited : Frame}
    (done : edit.apply fromChars frame = .ok edited) : Assigned edit.slot frame edited := by
  cases edit with
  | setInteger slot cell =>
      exact assigned_of_bind (fun _ _ written => writeInteger_type written) done
  | setIntegerText slot text =>
      obtain ⟨source, _, done⟩ := bind_eq_ok.mp done
      exact assigned_of_bind (fun _ _ written => writeInteger_type written) done
  | setNumber slot number =>
      exact assigned_of_bind (fun _ _ written => writeNumber_type written) done
  | setNumberText slot text =>
      simp only [Edit.apply, Frame.setNumberText] at done
      split at done
      · cases done
      · split at done
        · cases done
        · exact assigned_of_bind (fun _ _ written => writeNumber_type written) done
  | setNull slot =>
      obtain ⟨old, writable, done⟩ := bind_eq_ok.mp done
      split at done
      · cases done
      · cases done
        exact .value slot old _ rfl writable rfl
  | copy destination source =>
      obtain ⟨copied, _, done⟩ := bind_eq_ok.mp done
      obtain ⟨old, writable, done⟩ := bind_eq_ok.mp done
      split at done
      · cases done
      · rename_i same
        cases done
        exact .value destination old copied rfl writable (by tauto)
  | retire =>
      cases done
      exact .retire rfl

/-- What edits leave as it was: the types, and after the call the arguments. -/
structure Shaped (start snapshot : Frame) : Prop where
  phase : snapshot.phase = start.phase
  result : snapshot.result.type = start.result.type
  arguments : snapshot.arguments.map KeelHookValue.type = start.arguments.map KeelHookValue.type
  post : start.phase ≠ phasePre → snapshot.arguments = start.arguments

theorem Shaped.refl (frame : Frame) : Shaped frame frame := ⟨rfl, rfl, rfl, fun _ => rfl⟩

theorem Shaped.trans {first second third : Frame} (left : Shaped first second)
    (right : Shaped second third) : Shaped first third where
  phase := right.phase.trans left.phase
  result := right.result.trans left.result
  arguments := right.arguments.trans left.arguments
  post := fun after => (right.post (left.phase ▸ after)).trans (left.post after)

theorem argument_of_value {frame : Frame} {index : Nat} {value : KeelHookValue}
    (read : frame.value (index + 1) = .ok value) : frame.arguments[index]? = some value := by
  simp only [Frame.value] at read
  split at read
  · rename_i found inside
    cases read
    exact inside
  · cases read

theorem set_map_type {arguments : List KeelHookValue} {index : Nat} {old new : KeelHookValue}
    (inside : arguments[index]? = some old) (typed : new.type = old.type) :
    (arguments.set index new).map KeelHookValue.type = arguments.map KeelHookValue.type := by
  obtain ⟨bound, rfl⟩ := List.getElem?_eq_some_iff.mp inside
  apply List.ext_getElem
  · simp
  · intro i left right
    simp only [List.getElem_map, List.getElem_set]
    split
    · rename_i here
      subst here
      exact typed
    · rfl

theorem Assigned.shaped {slot : Option Nat} {frame edited : Frame}
    (assigned : Assigned slot frame edited) : Shaped frame edited := by
  cases assigned with
  | retire none => exact ⟨rfl, rfl, rfl, fun _ => rfl⟩
  | value i old new here writable typed =>
      obtain ⟨read, allowed⟩ := frame.value_of_writable writable
      cases i with
      | zero =>
          cases read
          exact ⟨rfl, typed, rfl, fun _ => rfl⟩
      | succ index =>
          have before : frame.phase = phasePre := allowed.resolve_left (by omega)
          exact ⟨rfl, rfl, set_map_type (argument_of_value read) typed,
            fun after => absurd before after⟩

theorem Assigned.other {slot : Option Nat} {frame edited : Frame}
    (assigned : Assigned slot frame edited) {i : Nat} (apart : slot ≠ some i) :
    edited.value i = frame.value i := by
  cases assigned with
  | retire none => rfl
  | value j old new here writable typed =>
      have different : j ≠ i := fun same => apart (here.trans (congrArg some same))
      cases j with
      | zero =>
          cases i with
          | zero => exact absurd rfl different
          | succ index => rfl
      | succ index =>
          cases i with
          | zero => rfl
          | succ other =>
              have distinct : index ≠ other := by omega
              simp [Frame.value, Frame.assign, List.getElem?_set_ne distinct]

/-- Any number of accepted edits. -/
theorem applyAll_assigned {edits : List Edit} : ∀ {frame snapshot : Frame},
    applyAll fromChars edits frame = .ok snapshot →
    Shaped frame snapshot ∧
      ∀ i, (∀ edit ∈ edits, edit.slot ≠ some i) → snapshot.value i = frame.value i := by
  induction edits with
  | nil =>
      intro frame snapshot done
      cases done
      exact ⟨Shaped.refl frame, fun _ _ => rfl⟩
  | cons edit rest ih =>
      intro frame snapshot done
      obtain ⟨middle, first, done⟩ := bind_eq_ok.mp done
      have assigned := edit.apply_assigned fromChars first
      obtain ⟨shaped, others⟩ := ih done
      refine ⟨assigned.shaped.trans shaped, ?_⟩
      intro i apart
      obtain ⟨here, later⟩ := List.forall_mem_cons.mp apart
      rw [others i later, assigned.other here]

theorem applyAll_concat {edits : List Edit} {edit : Edit} {frame snapshot edited : Frame}
    (done : applyAll fromChars edits frame = .ok snapshot)
    (last : edit.apply fromChars snapshot = .ok edited) :
    applyAll fromChars (edits ++ [edit]) frame = .ok edited := by
  rw [applyAll, List.foldlM_append]
  refine bind_eq_ok.mpr ⟨snapshot, done, bind_eq_ok.mpr ⟨edited, last, rfl⟩⟩

end Edits

/-! ## The buffer rule -/

structure BufferSpec where
  argument : Nat
  capacity : Nat
  lengthArgument : Nat
deriving DecidableEq

/-- The buffers of a direct call that is under way. -/
structure BufferScope where
  target : Nat
  arguments : List KeelHookValue
  bounds : List BufferSpec
deriving DecidableEq

/-- The pointer in a numbered argument. -/
def pointerAt (arguments : List KeelHookValue) (argument : Nat) : Option Int :=
  (arguments[argument - 1]?).map KeelHookValue.pointer

/-- The length does not fit the buffer. -/
def overlong (bound : BufferSpec) (value : KeelHookValue) : Bool :=
  (value.type == .int32 && (value.load .int32 < 0 || (bound.capacity : Int) < value.load .int32)) ||
    (value.type == .uint32 && (bound.capacity : Int) < value.load .uint32)

/-- The loop over the slots: no other argument may have the buffer's pointer. -/
def checkAliases (after : Frame) (pointer : Option Int) (argument : Nat) : Except String Unit :=
  (List.range after.arguments.length).forM fun index => do
    let value ← after.value (index + 1)
    if value.type = .pointer ∧ some value.pointer = pointer ∧ index + 1 ≠ argument then
      throw "Hook cannot alias owned SDKCall buffer pointers into other arguments."

/-- The rest of the loop over the bounds. -/
def checkBound (before : KeelHookFrame) (after : Frame) (pointer : Option Int)
    (bound : BufferSpec) : Except String Unit := do
  if pointerAt before.arguments bound.argument = pointer then
    if some (← after.value bound.argument).pointer ≠ pointer then
      throw "Hook cannot replace an owned SDKCall buffer pointer."
    else if bound.lengthArgument ≠ 0 then
      if overlong bound (← after.value bound.lengthArgument) then
        throw "Hook length exceeds the owned SDKCall buffer allocation."

/-- `CheckBufferEdits` -/
def checkBufferEdits (scopes : List BufferScope) (before : KeelHookFrame) (after : Frame) :
    Except String Unit :=
  if before.phase ≠ phasePre then return ()
  else
    scopes.forM fun scope =>
      if scope.target ≠ before.target then return ()
      else
        scope.bounds.forM fun bound => do
          let pointer := pointerAt scope.arguments bound.argument
          checkAliases after pointer bound.argument
          checkBound before after pointer bound

/-- The buffers of direct calls stay with their arguments: no other argument of the
edited frame has a buffer's pointer, and where the native call has it the edited frame
has it too, with a length that fits. -/
def BufferRule (scopes : List BufferScope) (before : KeelHookFrame) (after : Frame) : Prop :=
  before.phase = phasePre → ∀ scope ∈ scopes, scope.target = before.target →
    ∀ bound ∈ scope.bounds,
      (∀ index value, after.arguments[index]? = some value → value.type = .pointer →
        index + 1 ≠ bound.argument →
        some value.pointer ≠ pointerAt scope.arguments bound.argument) ∧
      (pointerAt before.arguments bound.argument = pointerAt scope.arguments bound.argument →
        (∃ value, after.value bound.argument = .ok value ∧
          some value.pointer = pointerAt scope.arguments bound.argument) ∧
        (bound.lengthArgument ≠ 0 → ∃ value, after.value bound.lengthArgument = .ok value ∧
          overlong bound value = false))

theorem forM_ok {α : Type} (f : α → Except String Unit) (list : List α) :
    list.forM f = .ok () ↔ ∀ x ∈ list, f x = .ok () := by
  induction list with
  | nil => exact ⟨fun _ _ member => (List.not_mem_nil member).elim, fun _ => rfl⟩
  | cons head tail ih =>
      rw [List.forall_mem_cons, ← ih]
      show (f head >>= fun _ => tail.forM f) = .ok () ↔ _
      rw [bind_eq_ok]
      constructor
      · intro done
        obtain ⟨_, first, rest⟩ := done
        exact ⟨first, rest⟩
      · intro both
        exact ⟨(), both.1, both.2⟩

theorem value_of_argument {frame : Frame} {index : Nat} {value : KeelHookValue}
    (inside : frame.arguments[index]? = some value) : frame.value (index + 1) = .ok value := by
  rw [Frame.value, inside]

theorem checkAliases_ok {after : Frame} {pointer : Option Int} {argument : Nat} :
    checkAliases after pointer argument = .ok () ↔
      ∀ index value, after.arguments[index]? = some value → value.type = .pointer →
        index + 1 ≠ argument → some value.pointer ≠ pointer := by
  rw [checkAliases, forM_ok]
  constructor
  · intro checked index value inside typed apart aliased
    have bound := (List.getElem?_eq_some_iff.mp inside).1
    have here := checked index (List.mem_range.mpr bound)
    rw [value_of_argument inside] at here
    have found : value.type = .pointer ∧ some value.pointer = pointer ∧ index + 1 ≠ argument :=
      ⟨typed, aliased, apart⟩
    simp only [bind, Except.bind, if_pos found] at here
    cases here
  · intro apart index member
    have bound := List.mem_range.mp member
    have inside : after.arguments[index]? = some after.arguments[index] :=
      List.getElem?_eq_getElem bound
    have free := apart index _ inside
    rw [value_of_argument inside]
    simp only [bind, Except.bind]
    rw [if_neg]
    · rfl
    · intro aliased
      exact free aliased.1 aliased.2.2 aliased.2.1

theorem checkBound_ok {before : KeelHookFrame} {after : Frame} {pointer : Option Int}
    {bound : BufferSpec} :
    checkBound before after pointer bound = .ok () ↔
      (pointerAt before.arguments bound.argument = pointer →
        (∃ value, after.value bound.argument = .ok value ∧ some value.pointer = pointer) ∧
        (bound.lengthArgument ≠ 0 → ∃ value, after.value bound.lengthArgument = .ok value ∧
          overlong bound value = false)) := by
  rw [checkBound]
  by_cases held : pointerAt before.arguments bound.argument = pointer
  · rw [if_pos held]
    cases read : after.value bound.argument with
    | error message =>
        simp [held, bind, Except.bind]
    | ok value =>
        by_cases kept : some value.pointer = pointer
        · by_cases measured : bound.lengthArgument = 0
          · simp [held, kept, measured, bind, Except.bind, pure, Except.pure]
          · cases length : after.value bound.lengthArgument with
            | error message => simp [held, kept, measured, bind, Except.bind]
            | ok size =>
                cases long : overlong bound size <;>
                  simp [held, kept, measured, long, bind, Except.bind, pure, Except.pure, throw,
                    throwThe, MonadExceptOf.throw]
        · simp [held, kept, bind, Except.bind, throw, throwThe, MonadExceptOf.throw]
  · simp [held, pure, Except.pure]

/-- `CheckBufferEdits` passes just the frames that keep the buffer rule. -/
theorem checkBufferEdits_ok {scopes : List BufferScope} {before : KeelHookFrame} {after : Frame} :
    checkBufferEdits scopes before after = .ok () ↔ BufferRule scopes before after := by
  by_cases early : before.phase = phasePre
  · rw [checkBufferEdits, if_neg (not_not.mpr early), forM_ok, BufferRule]
    simp only [early, forall_true_left]
    refine forall_congr' fun scope => forall_congr' fun _ => ?_
    by_cases here : scope.target = before.target
    · rw [if_neg (not_not.mpr here), forM_ok]
      simp only [here, forall_true_left]
      refine forall_congr' fun bound => forall_congr' fun _ => ?_
      rw [← checkAliases_ok, ← checkBound_ok, bind_eq_ok]
      constructor
      · intro both
        obtain ⟨_, first, second⟩ := both
        exact ⟨first, second⟩
      · intro both
        exact ⟨(), both.1, both.2⟩
    · rw [if_pos here]
      exact ⟨fun _ same => absurd same here, fun _ => rfl⟩
  · rw [checkBufferEdits, if_pos early]
    exact ⟨fun _ same => absurd same early, fun _ => rfl⟩

/-! ## Dispatches -/

structure Registration where
  owner : Nat
  target : Nat
  definition : Prototype
  active : Nat := 0
  closing : Bool := false
  enabled : Bool := true

/-- How the callback of a dispatch came out. -/
inductive Outcome where
  /-- An exception came out of it. -/
  | threw
  /-- Eight windows were open. -/
  | full
  /-- The frame numbers were used up. -/
  | exhausted
  /-- The answer of `InvokeCallback` and the script's. -/
  | answered (result : KeelResult) (action : Int)

/-- Not an action, or not one of the phase. -/
def invalidAction (phase : Nat) (action : Int) : Prop :=
  action < 0 ∨ Frame.actionSupersede < action ∨
    (phase = phasePost ∧ action = Frame.actionSupersede)

instance (phase : Nat) (action : Int) : Decidable (invalidAction phase action) :=
  inferInstanceAs (Decidable (_ ∨ _))

/-- What the callback makes of the answer of `InvokeCallback`. -/
def scriptAction (phase : Nat) (result : KeelResult) (action : Int) : Int :=
  if result = .busy then -1
  else if result ≠ .ok then -2
  else if invalidAction phase action then -2
  else action

/-- What the registration's callback returns, unless it throws. -/
def Outcome.action (phase : Nat) : Outcome → Option Int
  | .threw => none
  | .full => some (-1)
  | .exhausted => some (-2)
  | .answered result action => some (scriptAction phase result action)

/-- What a dispatch finds. -/
structure Entry where
  thread : KeelResult
  registration : Option Registration
  depth : Nat
  frame : KeelHookFrame

/-- A dispatch whose callback is running. -/
structure Activation where
  registration : Nat
  key : Nat
  id : Nat
  owner : Nat
  snapshot : Frame
  entry : Entry
  edits : List Edit

/-- A dispatch that has ended; it has no outcome when its callback was not started. -/
structure Record where
  key : Nat
  entry : Entry
  edits : List Edit
  scopes : List BufferScope
  outcome : Option Outcome
  answer : Int
  after : KeelHookFrame

structure State where
  /-- The native frames. -/
  frames : Nat → KeelHookFrame
  registrations : Nat → Option Registration := fun _ => none
  depth : Nat := 0
  nextFrame : Nat := 1
  /-- `active_buffers_` -/
  buffers : List BufferScope := []
  /-- The dispatches under way, the innermost first; each has its window in `frames_`. -/
  stack : List Activation := []
  log : List Record := []

/-- `Dispatch` from the callback's return on: the action it answers and the native frame. -/
def settle (buffers : List BufferScope) (native : KeelHookFrame) (snapshot : Frame) :
    Option Int → Int × KeelHookFrame
  | none => (Frame.actionContinue, native)
  | some action =>
      if invalidAction snapshot.phase action then (Frame.actionContinue, native)
      else
        match checkBufferEdits buffers native snapshot with
        | .error _ => (Frame.actionContinue, native)
        | .ok () => (action, snapshot.commit native action)

/-- The callback asks for its hook to be closed. -/
def closes (snapshot : Frame) : Option Int → Bool
  | none => false
  | some action => action == -2 || snapshot.retire

namespace State

def editRegistration (r : Nat) (f : Registration → Registration) (s : State) : State :=
  { s with registrations := Function.update s.registrations r ((s.registrations r).map f) }

/-- `Service::Close` -/
def close (r : Nat) (s : State) : State :=
  s.editRegistration r fun registration => { registration with closing := true, enabled := false }

/-- The end of a dispatch, whose `Active` guard goes with it. -/
def finish (a : Activation) (outcome : Outcome) (s : State) : State :=
  let action := outcome.action a.snapshot.phase
  let s := if closes a.snapshot action then s.close a.registration else s
  let settled := settle s.buffers (s.frames a.key) a.snapshot action
  { s.editRegistration a.registration fun registration =>
      { registration with active := registration.active - 1 } with
    frames := Function.update s.frames a.key settled.2
    depth := s.depth - 1
    log := { key := a.key, entry := a.entry, edits := a.edits, scopes := s.buffers,
             outcome := some outcome, answer := settled.1, after := settled.2 } :: s.log }

/-- A dispatch that does not start its callback. -/
def skip (key : Nat) (entry : Entry) (s : State) : State :=
  { s with
    log := { key, entry, edits := [], scopes := s.buffers, outcome := none,
             answer := Frame.actionContinue, after := entry.frame } :: s.log }

/-- The callback of a dispatch, `DHooks::Dispatch`, up to the script. -/
def start (a : Activation) (s : State) : State :=
  let s : State :=
    { s.editRegistration a.registration fun registration =>
        { registration with active := registration.active + 1 } with
      depth := s.depth + 1 }
  if s.stack.length = 8 then s.finish a .full
  else if s.nextFrame = 2 ^ 31 - 1 then s.finish a .exhausted
  else { s with stack := a :: s.stack, nextFrame := s.nextFrame + 1 }

/-- What `Dispatch` finds. -/
def entry (r key : Nat) (thread : KeelResult) (s : State) : Entry :=
  { thread, registration := s.registrations r, depth := s.depth, frame := s.frames key }

/-- `Dispatch` up to the script. -/
def dispatch (r key : Nat) (thread : KeelResult) (s : State) : State :=
  let entry := s.entry r key thread
  match s.registrations r with
  | none => s.skip key entry
  | some registration =>
      if thread ≠ .ok then s.skip key entry
      else if registration.closing = true ∨ registration.enabled = false ∨ 8 ≤ s.depth ∨
          (s.frames key).target ≠ registration.target then
        s.skip key entry
      else
        match Frame.ofNative (s.frames key) registration.definition with
        | .error _ => s.skip key entry
        | .ok snapshot =>
            s.start { registration := r, key, id := s.nextFrame, owner := registration.owner,
                      snapshot, entry, edits := [] }

end State

section Runs
variable (fromChars : Text → Option Float)

/-- An edit through the window; one that is refused changes nothing. -/
def Activation.edit (edit : Edit) (a : Activation) : Activation :=
  match edit.apply fromChars a.snapshot with
  | .ok snapshot => { a with snapshot, edits := a.edits ++ [edit] }
  | .error _ => a

inductive Event where
  /-- The host makes a native frame, or changes one that no dispatch has. -/
  | native (key : Nat) (frame : KeelHookFrame)
  | attach (r : Nat) (owner target : Nat) (definition : Prototype)
  | close (r : Nat)
  | enable (r : Nat) (enabled : Bool)
  /-- Direct calls begin and end. -/
  | buffers (scopes : List BufferScope)
  | dispatch (r key : Nat) (thread : KeelResult)
  /-- A script of the owner edits the window; the numbers of windows are distinct. -/
  | edit (owner id : Nat) (edit : Edit)
  | threw
  | answered (result : KeelResult) (action : Int)

/-- The native frame is in a dispatch. -/
def State.busy (key : Nat) (s : State) : Bool := s.stack.any fun a => a.key == key

def State.answer (outcome : Outcome) (s : State) : Option State :=
  match s.stack with
  | [] => none
  | a :: rest => some (({ s with stack := rest } : State).finish a outcome)

def step (s : State) : Event → Option State
  | .native key frame =>
      if s.busy key then none else some { s with frames := Function.update s.frames key frame }
  | .attach r owner target definition =>
      match s.registrations r with
      | some _ => none
      | none =>
          some { s with
            registrations :=
              Function.update s.registrations r (some { owner, target, definition }) }
  | .close r => some (s.close r)
  | .enable r enabled =>
      some (s.editRegistration r fun registration =>
        if registration.closing then registration else { registration with enabled })
  | .buffers scopes => some { s with buffers := scopes }
  | .dispatch r key thread => if s.busy key then none else some (s.dispatch r key thread)
  | .edit owner id edit =>
      some { s with
        stack := s.stack.map fun a =>
          if a.id = id ∧ a.owner = owner then a.edit fromChars edit else a }
  | .threw => s.answer .threw
  | .answered result action => s.answer (.answered result action)

/-! ## What a dispatch leaves -/

/-- The dispatch passes the checks before the callback; its snapshot is `start`. -/
def Entry.Started (entry : Entry) (start : Frame) : Prop :=
  ∃ registration, entry.registration = some registration ∧ entry.thread = .ok ∧
    registration.closing = false ∧ registration.enabled = true ∧ entry.depth < 8 ∧
    entry.frame.target = registration.target ∧
    Frame.ofNative entry.frame registration.definition = .ok start

/-- The callback answered a valid action, and its edits keep the buffer rule. -/
def Record.Accepted (d : Record) (snapshot : Frame) (action : Int) : Prop :=
  ∃ start outcome, d.entry.Started start ∧ applyAll fromChars d.edits start = .ok snapshot ∧
    d.outcome = some outcome ∧ outcome.action snapshot.phase = some action ∧
    ¬ invalidAction snapshot.phase action ∧ BufferRule d.scopes d.entry.frame snapshot

/-- All accepted edits and the action, or nothing. -/
structure Transactional (d : Record) : Prop where
  committed : ∀ snapshot action, d.Accepted fromChars snapshot action →
    d.after = snapshot.commit d.entry.frame action ∧ d.answer = action
  refused : (¬ ∃ snapshot action, d.Accepted fromChars snapshot action) →
    d.after = d.entry.frame ∧ d.answer = Frame.actionContinue

/-- A dispatch under way: its native frame is as it was found, and its snapshot has the
edits made so far. -/
structure Opened (s : State) (a : Activation) : Prop where
  native : s.frames a.key = a.entry.frame
  snapshot : ∃ start, a.entry.Started start ∧ applyAll fromChars a.edits start = .ok a.snapshot

structure Inv (s : State) : Prop where
  distinct : (s.stack.map Activation.key).Nodup
  opened : ∀ a ∈ s.stack, Opened fromChars s a
  logged : ∀ d ∈ s.log, Transactional fromChars d

variable {fromChars}

theorem Record.Accepted.unique {d : Record} {snapshot other : Frame} {action action' : Int}
    (left : d.Accepted fromChars snapshot action) (right : d.Accepted fromChars other action') :
    snapshot = other ∧ action = action' := by
  obtain ⟨start, outcome, started, edited, answered, acts, _⟩ := left
  obtain ⟨start', outcome', started', edited', answered', acts', _⟩ := right
  obtain ⟨registration, found, _, _, _, _, _, matched⟩ := started
  obtain ⟨registration', found', _, _, _, _, _, matched'⟩ := started'
  cases found.symm.trans found'
  cases matched.symm.trans matched'
  cases edited.symm.trans edited'
  cases answered.symm.trans answered'
  cases acts.symm.trans acts'
  exact ⟨rfl, rfl⟩

/-- What follows the callback is all or nothing. -/
theorem settle_cases (buffers : List BufferScope) (native : KeelHookFrame) (snapshot : Frame)
    (action : Option Int) :
    (∃ act, action = some act ∧ ¬ invalidAction snapshot.phase act ∧
      BufferRule buffers native snapshot ∧
      settle buffers native snapshot action = (act, snapshot.commit native act)) ∨
    ((∀ act, action = some act → ¬ invalidAction snapshot.phase act →
      ¬ BufferRule buffers native snapshot) ∧
      settle buffers native snapshot action = (Frame.actionContinue, native)) := by
  cases action with
  | none =>
      refine .inr ⟨?_, rfl⟩
      intro act missing
      cases missing
  | some action =>
      by_cases invalid : invalidAction snapshot.phase action
      · refine .inr ⟨?_, by rw [settle, if_pos invalid]⟩
        intro act same valid
        cases same
        exact absurd invalid valid
      · cases checked : checkBufferEdits buffers native snapshot with
        | error message =>
            refine .inr ⟨?_, by rw [settle, if_neg invalid, checked]⟩
            intro act same valid rule
            rw [checkBufferEdits_ok.mpr rule] at checked
            cases checked
        | ok done =>
            exact .inl ⟨action, rfl, invalid, checkBufferEdits_ok.mp checked,
              by rw [settle, if_neg invalid, checked]⟩

/-- The record of a dispatch that ends. -/
def ended (s : State) (a : Activation) (outcome : Outcome) : Record :=
  let settled := settle s.buffers (s.frames a.key) a.snapshot (outcome.action a.snapshot.phase)
  { key := a.key, entry := a.entry, edits := a.edits, scopes := s.buffers,
    outcome := some outcome, answer := settled.1, after := settled.2 }

@[simp] theorem State.finish_log (a : Activation) (outcome : Outcome) (s : State) :
    (s.finish a outcome).log = ended s a outcome :: s.log := by
  unfold State.finish ended
  dsimp only
  cases closes a.snapshot (outcome.action a.snapshot.phase) <;> rfl

@[simp] theorem State.finish_stack (a : Activation) (outcome : Outcome) (s : State) :
    (s.finish a outcome).stack = s.stack := by
  unfold State.finish
  dsimp only
  cases closes a.snapshot (outcome.action a.snapshot.phase) <;> rfl

@[simp] theorem State.finish_frames (a : Activation) (outcome : Outcome) (s : State) :
    (s.finish a outcome).frames = Function.update s.frames a.key (ended s a outcome).after := by
  unfold State.finish ended
  dsimp only
  cases closes a.snapshot (outcome.action a.snapshot.phase) <;> rfl

/-- The end of a dispatch that is still as `Opened` says is transactional. -/
theorem ended_transactional {s : State} {a : Activation} (opened : Opened fromChars s a)
    (outcome : Outcome) : Transactional fromChars (ended s a outcome) := by
  obtain ⟨native, start, started, edited⟩ := opened
  have settled := settle_cases s.buffers a.entry.frame a.snapshot
    (outcome.action a.snapshot.phase)
  rcases settled with ⟨act, acts, valid, rule, result⟩ | ⟨refused, result⟩
  · have accepted : (ended s a outcome).Accepted fromChars a.snapshot act :=
      ⟨start, outcome, started, edited, rfl, acts, valid, rule⟩
    constructor
    · intro snapshot action other
      obtain ⟨rfl, rfl⟩ := accepted.unique other
      simp only [ended, native, result, and_self]
    · intro never
      exact absurd ⟨_, _, accepted⟩ never
  · constructor
    · intro snapshot action accepted
      obtain ⟨start', outcome', started', edited', answered, acts, valid, rule⟩ := accepted
      cases answered
      obtain ⟨registration, found, _, _, _, _, _, matched⟩ := started
      obtain ⟨registration', found', _, _, _, _, _, matched'⟩ := started'
      cases found.symm.trans found'
      cases matched.symm.trans matched'
      cases edited.symm.trans edited'
      exact absurd rule (refused action acts valid)
    · intro _
      simp only [ended, native, result, and_self]

theorem Opened.congr {s t : State} {a : Activation} (opened : Opened fromChars s a)
    (same : t.frames a.key = s.frames a.key) : Opened fromChars t a :=
  ⟨same.trans opened.native, opened.snapshot⟩

/-- A record of a dispatch whose callback was not started. -/
theorem skipped_transactional {d : Record} (never : d.outcome = none)
    (same : d.after = d.entry.frame) (answer : d.answer = Frame.actionContinue) :
    Transactional fromChars d := by
  constructor
  · intro snapshot action accepted
    obtain ⟨_, outcome, _, _, answered, _⟩ := accepted
    rw [never] at answered
    cases answered
  · exact fun _ => ⟨same, answer⟩

theorem Inv.skip {s : State} (inv : Inv fromChars s) (key : Nat) (entry : Entry) :
    Inv fromChars (s.skip key entry) where
  distinct := inv.distinct
  opened := fun a member => (inv.opened a member).congr rfl
  logged := List.forall_mem_cons.mpr ⟨skipped_transactional rfl rfl rfl, inv.logged⟩

/-- The end of a dispatch keeps the invariant, also for those that wait below it. -/
theorem Inv.finish {s : State} (inv : Inv fromChars s) {a : Activation}
    (opened : Opened fromChars s a) (apart : a.key ∉ s.stack.map Activation.key)
    (outcome : Outcome) : Inv fromChars (s.finish a outcome) where
  distinct := by
    rw [State.finish_stack]
    exact inv.distinct
  opened := by
    rw [State.finish_stack]
    intro b member
    have different : b.key ≠ a.key := fun same =>
      apart (same ▸ List.mem_map_of_mem member)
    refine (inv.opened b member).congr ?_
    rw [State.finish_frames, Function.update_of_ne different]
  logged := by
    rw [State.finish_log]
    exact List.forall_mem_cons.mpr ⟨ended_transactional opened outcome, inv.logged⟩

theorem not_busy {s : State} {key : Nat} (free : ¬ s.busy key = true) :
    key ∉ s.stack.map Activation.key := by
  intro member
  obtain ⟨a, inside, same⟩ := List.mem_map.mp member
  exact free (List.any_eq_true.mpr ⟨a, inside, by simpa using same⟩)

/-- A dispatch skips its callback, or its checks have passed. -/
theorem State.dispatch_cases (s : State) (r key : Nat) (thread : KeelResult) :
    s.dispatch r key thread = s.skip key (s.entry r key thread) ∨
    ∃ a : Activation, a.key = key ∧ a.edits = [] ∧ a.entry = s.entry r key thread ∧
      a.entry.Started a.snapshot ∧ s.dispatch r key thread = s.start a := by
  unfold State.dispatch
  dsimp only
  cases found : s.registrations r with
  | none => exact .inl rfl
  | some registration =>
      dsimp only
      by_cases on_thread : thread = .ok
      · rw [if_neg (not_not.mpr on_thread)]
        split
        · exact .inl rfl
        · rename_i guard
          simp only [not_or, Bool.not_eq_true, Bool.not_eq_false, not_le, not_not] at guard
          cases matched : Frame.ofNative (s.frames key) registration.definition with
          | error message => exact .inl rfl
          | ok snapshot =>
              have started : (s.entry r key thread).Started snapshot :=
                ⟨registration, found, on_thread, guard.1, guard.2.1, guard.2.2.1, guard.2.2.2,
                  matched⟩
              exact .inr ⟨_, rfl, rfl, rfl, started, rfl⟩
      · rw [if_pos on_thread]
        exact .inl rfl

theorem Inv.start {s : State} (inv : Inv fromChars s) {a : Activation}
    (opened : Opened fromChars s a) (apart : a.key ∉ s.stack.map Activation.key) :
    Inv fromChars (s.start a) := by
  unfold State.start
  dsimp only
  have entered : Inv fromChars { s.editRegistration a.registration fun registration =>
      { registration with active := registration.active + 1 } with depth := s.depth + 1 } :=
    ⟨inv.distinct, fun b member => (inv.opened b member).congr rfl, inv.logged⟩
  split
  · exact entered.finish (opened.congr rfl) apart .full
  · split
    · exact entered.finish (opened.congr rfl) apart .exhausted
    · refine ⟨List.nodup_cons.mpr ⟨apart, inv.distinct⟩, ?_, inv.logged⟩
      refine List.forall_mem_cons.mpr ⟨opened.congr rfl, ?_⟩
      exact fun b member => (inv.opened b member).congr rfl

theorem Inv.dispatch {s : State} (inv : Inv fromChars s) {r key : Nat} {thread : KeelResult}
    (free : ¬ s.busy key = true) : Inv fromChars (s.dispatch r key thread) := by
  rcases s.dispatch_cases r key thread with same | ⟨a, rfl, fresh, found, started, same⟩
  · rw [same]
    exact inv.skip key _
  · rw [same]
    have edited : applyAll fromChars a.edits a.snapshot = .ok a.snapshot := by
      rw [fresh]
      rfl
    have native : s.frames a.key = a.entry.frame := by
      rw [found]
      rfl
    exact inv.start ⟨native, a.snapshot, started, edited⟩ (not_busy free)

/-- An edit through a window keeps what is known of the dispatch. -/
theorem Opened.edit {s : State} {a : Activation} (opened : Opened fromChars s a) (edit : Edit) :
    Opened fromChars s (a.edit fromChars edit) := by
  unfold Activation.edit
  split
  · rename_i snapshot done
    obtain ⟨native, start, started, edited⟩ := opened
    exact ⟨native, start, started, applyAll_concat fromChars edited done⟩
  · exact opened

@[simp] theorem Activation.edit_key (edit : Edit) (a : Activation) :
    (a.edit fromChars edit).key = a.key := by
  unfold Activation.edit
  split <;> rfl

theorem Inv.answer {s s' : State} (inv : Inv fromChars s) {outcome : Outcome}
    (done : s.answer outcome = some s') : Inv fromChars s' := by
  unfold State.answer at done
  split at done
  · cases done
  · rename_i a rest stack
    cases done
    have distinct := inv.distinct
    rw [stack, List.map_cons, List.nodup_cons] at distinct
    have opened := inv.opened
    rw [stack] at opened
    obtain ⟨top, below⟩ := List.forall_mem_cons.mp opened
    have popped : Inv fromChars { s with stack := rest } :=
      ⟨distinct.2, fun b member => (below b member).congr rfl, inv.logged⟩
    exact popped.finish (top.congr rfl) distinct.1 outcome

/-- Every step keeps the invariant. -/
theorem Inv.step {s s' : State} (inv : Inv fromChars s) {event : Event}
    (stepped : step fromChars s event = some s') : Inv fromChars s' := by
  cases event with
  | native key frame =>
      simp only [HookDispatch.step] at stepped
      split at stepped
      · cases stepped
      · rename_i free
        cases stepped
        refine ⟨inv.distinct, ?_, inv.logged⟩
        intro a member
        have different : a.key ≠ key := fun same =>
          not_busy free (same ▸ List.mem_map_of_mem member)
        exact (inv.opened a member).congr (Function.update_of_ne different _ _)
  | attach r owner target definition =>
      simp only [HookDispatch.step] at stepped
      split at stepped
      · cases stepped
      · cases stepped
        exact ⟨inv.distinct, fun a member => (inv.opened a member).congr rfl, inv.logged⟩
  | close r =>
      cases stepped
      exact ⟨inv.distinct, fun a member => (inv.opened a member).congr rfl, inv.logged⟩
  | enable r enabled =>
      cases stepped
      exact ⟨inv.distinct, fun a member => (inv.opened a member).congr rfl, inv.logged⟩
  | buffers scopes =>
      cases stepped
      exact ⟨inv.distinct, fun a member => (inv.opened a member).congr rfl, inv.logged⟩
  | dispatch r key thread =>
      simp only [HookDispatch.step] at stepped
      split at stepped
      · cases stepped
      · rename_i free
        cases stepped
        exact inv.dispatch free
  | edit owner id edit =>
      cases stepped
      refine ⟨?_, ?_, inv.logged⟩
      · have keys : (s.stack.map fun a => if a.id = id ∧ a.owner = owner then
            a.edit fromChars edit else a).map Activation.key = s.stack.map Activation.key := by
          rw [List.map_map]
          refine List.map_congr_left fun a _ => ?_
          by_cases here : a.id = id ∧ a.owner = owner
          · simp [here]
          · simp [here]
        simp only [keys]
        exact inv.distinct
      · intro b member
        obtain ⟨a, inside, rfl⟩ := List.mem_map.mp member
        have opened := inv.opened a inside
        split
        · exact (opened.edit edit).congr rfl
        · exact opened.congr rfl
  | threw => exact inv.answer stepped
  | answered result action => exact inv.answer stepped

theorem inv_initial (frames : Nat → KeelHookFrame) : Inv fromChars { frames } :=
  ⟨List.nodup_nil, fun _ member => absurd member List.not_mem_nil,
    fun _ member => absurd member List.not_mem_nil⟩

theorem inv_run {frames : Nat → KeelHookFrame} {history : List Event} {s : State}
    (ran : Transition.run (step fromChars) { frames } history = some s) : Inv fromChars s :=
  Transition.history_induction (P := fun _ s => Inv fromChars s) (inv_initial frames)
    (fun _ _ _ _ inv stepped => inv.step stepped) history s ran

/-! ## The dispatches of a run -/

/-- The native frame agrees with the definition, and the snapshot with the frame. -/
theorem ofNative_ok {frame : KeelHookFrame} {definition : Prototype} {start : Frame}
    (matched : Frame.ofNative frame definition = .ok start) :
    start.phase = frame.phase ∧ start.arguments = frame.arguments ∧
      start.result = frame.result ∧ (frame.phase = phasePre ∨ frame.phase = phasePost) := by
  unfold Frame.ofNative at matched
  split at matched
  · cases matched
  · rename_i envelope
    simp only [Bool.or_eq_true, Bool.and_eq_true, bne_iff_ne, not_or, not_and, not_not] at envelope
    split at matched
    · cases matched
    · cases matched
      exact ⟨rfl, rfl, rfl, by tauto⟩

variable (fromChars) in
/-- The cases in which a dispatch leaves its native frame alone. -/
inductive Refused (d : Record) : Prop where
  | threw (outcome : d.outcome = some .threw)
  | failed (result : KeelResult) (action : Int)
      (outcome : d.outcome = some (.answered result action)) (failure : result ≠ .ok)
  | unavailable (outcome : d.outcome = some .full ∨ d.outcome = some .exhausted)
  | action (action : Int) (outcome : d.outcome = some (.answered .ok action))
      (invalid : invalidAction d.entry.frame.phase action)
  | mismatch (registration : Registration) (found : d.entry.registration = some registration)
      (message : String)
      (matched : Frame.ofNative d.entry.frame registration.definition = .error message)
  | buffers (start snapshot : Frame) (started : d.entry.Started start)
      (edited : applyAll fromChars d.edits start = .ok snapshot)
      (broken : ¬ BufferRule d.scopes d.entry.frame snapshot)
  | closing (registration : Registration) (found : d.entry.registration = some registration)
      (closed : registration.closing = true ∨ registration.enabled = false)
  | nested (deep : 8 ≤ d.entry.depth)
  | thread (other : d.entry.thread ≠ .ok)

/-- What an accepted dispatch wrote, in terms of the frame it found. -/
theorem Record.Accepted.shape {d : Record} {snapshot : Frame} {action : Int}
    (accepted : d.Accepted fromChars snapshot action) :
    snapshot.phase = d.entry.frame.phase ∧
      (d.entry.frame.phase = phasePre ∨ d.entry.frame.phase = phasePost) ∧
      snapshot.result.type = d.entry.frame.result.type ∧
      snapshot.arguments.map KeelHookValue.type =
        d.entry.frame.arguments.map KeelHookValue.type ∧
      (∀ index, (∀ edit ∈ d.edits, edit.slot ≠ some (index + 1)) →
        snapshot.arguments[index]? = d.entry.frame.arguments[index]?) ∧
      ((∀ edit ∈ d.edits, edit.slot ≠ some 0) → snapshot.result = d.entry.frame.result) := by
  obtain ⟨start, outcome, started, edited, _⟩ := accepted
  obtain ⟨registration, _, _, _, _, _, _, matched⟩ := started
  obtain ⟨phase, arguments, result, phases⟩ := ofNative_ok matched
  obtain ⟨shaped, others⟩ := applyAll_assigned fromChars edited
  refine ⟨shaped.phase.trans phase, phases, result ▸ shaped.result, arguments ▸ shaped.arguments,
    ?_, ?_⟩
  · intro index apart
    have same := others (index + 1) apart
    rw [← arguments]
    cases before : start.arguments[index]? with
    | none =>
        rw [Frame.value, Frame.value, before] at same
        cases after : snapshot.arguments[index]? with
        | none => rfl
        | some value =>
            rw [after] at same
            cases same
    | some value =>
        rw [value_of_argument before] at same
        exact argument_of_value same
  · intro apart
    have same := others 0 apart
    simp only [Frame.value, Except.ok.injEq] at same
    exact same.trans result

theorem Refused.not_accepted {d : Record} (refused : Refused fromChars d) :
    ¬ ∃ snapshot action, d.Accepted fromChars snapshot action := by
  intro both
  obtain ⟨snapshot, action, accepted⟩ := both
  have phase := accepted.shape.1
  obtain ⟨start, outcome, started, edited, answered, acts, valid, rule⟩ := accepted
  have started_here := started
  obtain ⟨registration, found, on_thread, opened, enabled, shallow, _, matched⟩ := started
  cases refused with
  | threw same =>
      cases answered.symm.trans same
      cases acts
  | failed result given same failure =>
      cases answered.symm.trans same
      simp only [Outcome.action, scriptAction, if_pos failure, Option.some.injEq] at acts
      apply valid
      left
      split at acts <;> omega
  | unavailable either =>
      apply valid
      left
      rcases either with same | same <;> cases answered.symm.trans same <;>
        simp only [Outcome.action, Option.some.injEq] at acts <;> omega
  | action given same invalid =>
      cases answered.symm.trans same
      rw [← phase] at invalid
      simp only [Outcome.action, scriptAction, if_pos invalid, reduceCtorEq, if_false,
        ne_eq, not_true_eq_false, Option.some.injEq] at acts
      apply valid
      left
      omega
  | mismatch other same message mismatched =>
      cases found.symm.trans same
      rw [matched] at mismatched
      cases mismatched
  | buffers other edited_to started' edited' broken =>
      obtain ⟨registration', found', _, _, _, _, _, matched'⟩ := started'
      cases found.symm.trans found'
      cases matched.symm.trans matched'
      cases edited.symm.trans edited'
      exact broken rule
  | closing other same closed =>
      cases found.symm.trans same
      rcases closed with closed | disabled
      · rw [opened] at closed
        cases closed
      · rw [enabled] at disabled
        cases disabled
  | nested deep => omega
  | thread other => exact other on_thread

theorem commit_arguments (snapshot : Frame) (frame : KeelHookFrame) (action : Int) :
    (snapshot.commit frame action).arguments =
      if snapshot.phase = phasePre then snapshot.arguments else frame.arguments := by
  unfold Frame.commit
  split <;> split <;> rfl

theorem commit_result (snapshot : Frame) (frame : KeelHookFrame) (action : Int) :
    (snapshot.commit frame action).result =
      if action ≠ Frame.actionContinue then snapshot.result else frame.result := by
  unfold Frame.commit
  split <;> split <;> rfl

variable (fromChars) in
/-- What a dispatch may have done to its native frame. -/
structure Sound (d : Record) : Prop where
  whole : d.after = d.entry.frame ∨ ∃ snapshot action, d.Accepted fromChars snapshot action ∧
    d.after = snapshot.commit d.entry.frame action ∧ d.answer = action
  refused : Refused fromChars d → d.after = d.entry.frame
  post : d.entry.frame.phase = phasePost → d.after.arguments = d.entry.frame.arguments
  kept : d.answer = Frame.actionContinue → d.after.result = d.entry.frame.result
  argument_types : d.after.arguments.map KeelHookValue.type =
    d.entry.frame.arguments.map KeelHookValue.type
  result_type : d.after.result.type = d.entry.frame.result.type
  untouched : ∀ index, (∀ edit ∈ d.edits, edit.slot ≠ some (index + 1)) →
    d.after.arguments[index]? = d.entry.frame.arguments[index]?
  untouched_result : (∀ edit ∈ d.edits, edit.slot ≠ some 0) →
    d.after.result = d.entry.frame.result

theorem Transactional.sound {d : Record} (transactional : Transactional fromChars d) :
    Sound fromChars d := by
  by_cases accepted : ∃ snapshot action, d.Accepted fromChars snapshot action
  · obtain ⟨snapshot, action, accepted⟩ := accepted
    obtain ⟨after, answer⟩ := transactional.committed snapshot action accepted
    obtain ⟨phase, phases, result, arguments, others, zero⟩ := accepted.shape
    have written : d.after.arguments =
        if snapshot.phase = phasePre then snapshot.arguments else d.entry.frame.arguments := by
      rw [after, commit_arguments]
    have selected : d.after.result =
        if action ≠ Frame.actionContinue then snapshot.result else d.entry.frame.result := by
      rw [after, commit_result]
    refine ⟨.inr ⟨snapshot, action, accepted, after, answer⟩, ?_, ?_, ?_, ?_, ?_, ?_, ?_⟩
    · intro refused
      exact absurd ⟨snapshot, action, accepted⟩ refused.not_accepted
    · intro post
      rw [written, if_neg]
      rw [phase, post]
      decide
    · intro kept
      rw [selected, if_neg (not_not.mpr (answer.symm.trans kept))]
    · rw [written]
      split
      · exact arguments
      · rfl
    · rw [selected]
      split
      · exact result
      · rfl
    · intro index apart
      rw [written]
      split
      · exact others index apart
      · rfl
    · intro apart
      rw [selected]
      split
      · exact zero apart
      · rfl
  · obtain ⟨after, answer⟩ := transactional.refused accepted
    refine ⟨.inl after, fun _ => after, ?_, ?_, ?_, ?_, ?_, ?_⟩ <;> rw [after] <;> intros <;> rfl

/-- A dispatch that changed the frame of this key has ended in the step. -/
def Wrote (key : Nat) (s s' : State) : Prop :=
  ∃ d, s'.log = d :: s.log ∧ d.key = key ∧ d.entry.frame = s.frames key ∧ d.after = s'.frames key

theorem finish_wrote {s : State} {a : Activation} {outcome : Outcome} {key : Nat}
    (native : s.frames a.key = a.entry.frame)
    (changed : (s.finish a outcome).frames key ≠ s.frames key) :
    Wrote key s (s.finish a outcome) := by
  rw [State.finish_frames] at changed
  by_cases same : key = a.key
  · subst same
    refine ⟨ended s a outcome, State.finish_log a outcome s, rfl, native.symm, ?_⟩
    rw [State.finish_frames, Function.update_self]
  · exact absurd (Function.update_of_ne same _ _) changed

theorem start_wrote {s : State} {a : Activation} {key : Nat}
    (native : s.frames a.key = a.entry.frame)
    (changed : (s.start a).frames key ≠ s.frames key) : Wrote key s (s.start a) := by
  unfold State.start at changed ⊢
  dsimp only at changed ⊢
  split at changed
  · rename_i full
    rw [if_pos full]
    exact finish_wrote (s := { s.editRegistration _ _ with depth := _ }) native changed
  · rename_i room
    rw [if_neg room]
    split at changed
    · rename_i spent
      rw [if_pos spent]
      exact finish_wrote (s := { s.editRegistration _ _ with depth := _ }) native changed
    · exact absurd rfl changed

theorem answer_wrote {s s' : State} (inv : Inv fromChars s) {outcome : Outcome} {key : Nat}
    (done : s.answer outcome = some s') (changed : s'.frames key ≠ s.frames key) :
    Wrote key s s' := by
  unfold State.answer at done
  split at done
  · cases done
  · rename_i a rest stack
    cases done
    have opened := inv.opened a (stack ▸ List.mem_cons_self)
    exact finish_wrote (s := { s with stack := rest }) opened.native changed

/-- Only a dispatch or the host changes a native frame. -/
theorem frames_step {s s' : State} (inv : Inv fromChars s) {event : Event} {key : Nat}
    (stepped : step fromChars s event = some s') (changed : s'.frames key ≠ s.frames key) :
    (∃ frame, event = .native key frame) ∨ Wrote key s s' := by
  cases event with
  | native other frame =>
      simp only [HookDispatch.step] at stepped
      split at stepped
      · cases stepped
      · cases stepped
        by_cases same : key = other
        · exact .inl ⟨frame, by rw [same]⟩
        · exact absurd (Function.update_of_ne same _ _) changed
  | attach r owner target definition =>
      simp only [HookDispatch.step] at stepped
      split at stepped
      · cases stepped
      · cases stepped
        exact absurd rfl changed
  | close r =>
      cases stepped
      exact absurd rfl changed
  | enable r enabled =>
      cases stepped
      exact absurd rfl changed
  | buffers scopes =>
      cases stepped
      exact absurd rfl changed
  | dispatch r other thread =>
      simp only [HookDispatch.step] at stepped
      split at stepped
      · cases stepped
      · cases stepped
        rcases s.dispatch_cases r other thread with same | ⟨a, rfl, _, found, _, same⟩
        · rw [same] at changed
          exact absurd rfl changed
        · rw [same] at changed ⊢
          have native : s.frames a.key = a.entry.frame := by
            rw [found]
            rfl
          exact .inr (start_wrote native changed)
  | edit owner id edit =>
      cases stepped
      exact absurd rfl changed
  | threw => exact .inr (answer_wrote inv stepped changed)
  | answered result action => exact .inr (answer_wrote inv stepped changed)

/-- After every run, each dispatch that has ended changed its native frame by all the
accepted edits of its callback or not at all, and in the next step too only the host and
the dispatches that end change a native frame. -/
theorem dispatch_transactional {frames : Nat → KeelHookFrame} {history : List Event} {s : State}
    (ran : Transition.run (step fromChars) { frames } history = some s) :
    (∀ d ∈ s.log, Sound fromChars d) ∧
      ∀ event s' key, step fromChars s event = some s' → s'.frames key ≠ s.frames key →
        (∃ frame, event = .native key frame) ∨ Wrote key s s' := by
  have inv := inv_run ran
  constructor
  · intro d member
    exact (inv.logged d member).sound
  · intro event s' key stepped changed
    exact frames_step inv stepped changed

end Runs

/-! ## A run with a nested call -/

def word (n : UInt8) : KeelHookValue :=
  { type := .int32, reserved := 0, scalar := [n, 0, 0, 0, 0, 0, 0, 0], size := rfl }

/-- A call before its original, of a target with one argument. -/
def callFrame : KeelHookFrame :=
  { sized := true, target := 9, phase := phasePre, flags := 0, addressed := true,
    arguments := [word 7], result := word 0 }

/-- The script edits its window, and the native call it makes meanwhile is faulted. -/
def nestedRun : List Event :=
  [.attach 1 5 9 { result := .int32, arguments := [.int32] }, .dispatch 1 0 .ok,
    .edit 5 1 (.setInteger 1 30), .dispatch 1 1 .ok, .edit 5 2 (.setInteger 1 40),
    .answered .engineFailure 0, .edit 5 1 (.setInteger 0 80), .answered .ok 1]

set_option maxRecDepth 10000 in
theorem dispatch_transactional_nested :
    ∃ s, Transition.run (step fun _ => none) { frames := fun _ => callFrame } nestedRun = some s ∧
      s.log.length = 2 ∧ (s.frames 0).arguments = [word 30] ∧ (s.frames 0).result = word 80 ∧
      s.frames 1 = callFrame ∧ ∀ d ∈ s.log, Sound (fun _ => none) d := by
  obtain ⟨s, ran⟩ : ∃ s, Transition.run (step fun _ => none) { frames := fun _ => callFrame }
      nestedRun = some s := ⟨_, rfl⟩
  refine ⟨s, ran, ?_, ?_, ?_, ?_, (dispatch_transactional ran).1⟩ <;>
    cases Option.some.inj ran <;> rfl

end Source2Root.HookDispatch
