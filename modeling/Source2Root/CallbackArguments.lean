import Mathlib
import Source2Root.ByteMemory
import Source2Root.Foundation.Runs
import Source2Root.Integers

/-!
# Arguments of persistent callbacks

`PawnRuntime::CallbackArguments` and `Execute` of `runtime.cpp`, under
`Foundation::InvokeCallback`: the descriptors of an extension are checked and copied,
pushed one by one, and written back one by one after a run without error.  The memory of
the extension is bytes, the output cell is among them; floats are their bits.  The virtual
machine is a parameter: what it answers to each push, and what a run of the function
leaves in the arguments and makes of the world.
-/

set_option autoImplicit false

namespace Reentrant

variable {S R X : Type} {α β : Type}

/-- A program may end so: with some answers, and some doings of foreign code. -/
inductive Tree.Ends : Tree S R X α → Except X α → S → Prop where
  | done {outcome : Except X α} {s : S} : Ends (.done outcome s) outcome s
  | choose {k : R → Tree S R X α} {outcome : Except X α} {s : S} (r : R)
      (ends : Ends (k r) outcome s) : Ends (.choose k) outcome s
  | enter {k : R → S → Tree S R X α} {outcome : Except X α} {start s : S} (r : R) (s' : S)
      (ends : Ends (k r s') outcome s) : Ends (.enter start k) outcome s

theorem Tree.Ends.bind {t : Tree S R X α} {f : Except X α → S → Tree S R X β}
    {outcome : Except X α} {outcome' : Except X β} {s s' : S} (first : t.Ends outcome s)
    (rest : (f outcome s).Ends outcome' s') : (t.bind f).Ends outcome' s' := by
  induction first with
  | done => exact rest
  | choose r _ ih => exact .choose r (ih rest)
  | enter r s'' _ ih => exact .enter r s'' (ih rest)

theorem ends_bind {m : Code S R X α} {f : α → Code S R X β} {value : α}
    {outcome : Except X β} {s s' s'' : S} (first : (m s).Ends (.ok value) s')
    (rest : (f value s').Ends outcome s'') : ((m >>= f) s).Ends outcome s'' :=
  first.bind rest

end Reentrant

namespace Source2Root.CallbackArguments

open ByteMemory Integers
open Foundation (PluginHandle Token Function callbackMaxDepth)

abbrev Address := Nat

/-- The bits of a cell. -/
abbrev Cell := UInt32

def Cell.bytes (cell : Cell) : List UInt8 := layout 4 cell.toNat

/-- The cell as a signed number. -/
def Cell.value (cell : Cell) : Int := IntType.int32.ofWord cell.toNat

def readCell (memory : Memory) (address : Address) : Cell :=
  UInt32.ofNat (word (ByteMemory.read memory address 4))

/-! ## Descriptors -/

/-- `SR_CALLBACK_INT32` and the types after it. -/
def callbackInt32 : UInt32 := 1
def callbackFloat32 : UInt32 := 2
def callbackString : UInt32 := 3
def callbackInt32Ref : UInt32 := 4
def callbackFloat32Ref : UInt32 := 5
def callbackInt32Array : UInt32 := 6
def callbackFloat32Array : UInt32 := 7

/-- `SR_CALLBACK_COPYBACK` -/
def callbackCopyback : UInt32 := 1

/-- `SR_CALLBACK_MAX_ARGUMENTS` and the other limits. -/
def maxArguments : UInt32 := 16
def maxArray : UInt32 := 1024
def maxPayload : UInt64 := 16384
def bufferLimit : Nat := 4096

/-- `sizeof(SrCallbackArgument)` -/
def argumentSize : Nat := 24

/-- `SrCallbackArgument`; the union is its eight bytes, the lowest first. -/
structure Argument where
  size : UInt32
  type : UInt32
  count : UInt32
  flags : UInt32
  value : Nat
deriving DecidableEq, Repr

namespace Argument

variable (a : Argument)

/-- The bits of `value.integer` and of `value.real`. -/
def integer : Cell := UInt32.ofNat a.value

/-- `value.string`, `value.integers` and `value.reals`. -/
def pointer : Address := a.value

def array : Bool := a.type == callbackInt32Array || a.type == callbackFloat32Array

def reference : Bool := a.type == callbackInt32Ref || a.type == callbackFloat32Ref

/-- The arguments that come with a buffer of cells. -/
def buffer : Bool := a.array || a.reference

def copyback : Bool := a.flags &&& callbackCopyback != 0

/-- The buffers that `Commit` writes. -/
def copiesBack : Bool := a.reference || a.copyback

def read (memory : Memory) (address : Address) : Argument where
  size := readCell memory address
  type := readCell memory (address + 4)
  count := readCell memory (address + 8)
  flags := readCell memory (address + 12)
  value := word (ByteMemory.read memory (address + 16) 8)

def malformed : Bool :=
  a.size != UInt32.ofNat argumentSize || a.type < callbackInt32 || callbackFloat32Array < a.type ||
    (if a.array then a.flags &&& ~~~callbackCopyback != 0 else a.flags != 0) ||
    (if a.array then a.count == 0 || maxArray < a.count
      else if a.reference then a.count != 1
      else a.count != 0)

theorem buffer_of_string {a : Argument} (string : a.type = callbackString) :
    ¬ a.buffer = true := by
  rw [buffer, array, reference, string]
  decide

end Argument

/-! ## The copies -/

structure Value where
  argument : Argument
  cells : List Cell := []
  text : List UInt8 := []
  sized : cells.length = if argument.buffer then argument.count.toNat else 0

/-- The length of a string, no further than the limit. -/
def stringLength (memory : Memory) : Address → Nat → Nat
  | _, 0 => 0
  | address, room + 1 =>
      if memory address = 0 then 0 else stringLength memory (address + 1) room + 1

def readCells (memory : Memory) (address : Address) (count : Nat) : List Cell :=
  (List.range count).map fun j => readCell memory (address + 4 * j)

/-- One argument: its copy and the payload so far, a `size_t`. -/
def copy (memory : Memory) (payload : UInt64) (argument : Argument) :
    Except String (Value × UInt64) :=
  if argument.malformed then .error "Invalid callback argument descriptor."
  else if string : argument.type = callbackString then
    if argument.pointer = 0 then .error "Missing callback string."
    else
      let length := stringLength memory argument.pointer bufferLimit
      if length = bufferLimit then .error "Callback string exceeds limit."
      else
        let payload := payload + (UInt64.ofNat length + 1)
        if maxPayload < payload then .error "Callback payload exceeds limit."
        else
          .ok ({ argument
                 text := ByteMemory.read memory argument.pointer length
                 sized := by rw [if_neg (argument.buffer_of_string string)]; rfl }, payload)
  else if buffer : argument.buffer then
    if argument.pointer = 0 then .error "Missing callback buffer."
    else
      let payload := payload + argument.count.toUInt64 * 4
      if maxPayload < payload then .error "Callback payload exceeds limit."
      else
        .ok ({ argument
               cells := readCells memory argument.pointer argument.count.toNat
               sized := by rw [if_pos buffer, readCells, List.length_map, List.length_range] },
            payload)
  else .ok ({ argument, sized := by rw [if_neg buffer]; rfl }, payload)

def copies (memory : Memory) (payload : UInt64) :
    List Argument → Except String (List Value)
  | [] => .ok []
  | argument :: rest => do
      let (value, payload) ← copy memory payload argument
      let values ← copies memory payload rest
      return value :: values

/-- The descriptors behind a pointer. -/
def argumentsAt (memory : Memory) (arguments : Address) (count : Nat) : List Argument :=
  (List.range count).map fun i => Argument.read memory (arguments + argumentSize * i)

/-- The constructor `CallbackArguments`. -/
def callbackArguments (memory : Memory) (arguments : Address) (count : UInt32) :
    Except String (List Value) :=
  if maxArguments < count ∨ (count ≠ 0 ∧ arguments = 0) then
    .error "Invalid callback arguments."
  else copies memory 0 (argumentsAt memory arguments count.toNat)

/-! ## The virtual machine -/

inductive Pushed where
  | cell (cell : Cell)
  | float (bits : Cell)
  | string (text : List UInt8)
  | reference (cells : List Cell)
  | array (cells : List Cell) (copyback : Bool)
deriving DecidableEq

/-- What a call of the virtual machine ends with. -/
inductive Status where
  | none
  | error (code : Nat)
  | threw
deriving DecidableEq, Repr

structure World where
  foundation : Foundation.State
  memory : Memory

/-- A run of a script function.  `world` is what the natives that it called left, and
`left` the contents of its arguments, cell by cell. -/
structure Run where
  world : World
  status : Status
  result : Cell
  left : Nat → Nat → Cell

structure Machine where
  push : List Pushed → Pushed → Status
  execute : Function → List Pushed → World → Run

def Value.pushed (value : Value) : Pushed :=
  if value.argument.type = callbackInt32 then .cell value.argument.integer
  else if value.argument.type = callbackFloat32 then .float value.argument.integer
  else if value.argument.type = callbackString then .string value.text
  else if value.argument.reference then .reference value.cells
  else .array value.cells value.argument.copyback

/-- `Push`: all arguments went through, one was refused, or a call threw. -/
def push (vm : Machine) (pushed : List Pushed) : List Value → Status
  | [] => .none
  | value :: rest =>
      match vm.push pushed value.pushed with
      | .none => push vm (pushed ++ [value.pushed]) rest
      | status => status

/-- The virtual machine writes what is left of an argument into its copy. -/
def Value.returned (left : Nat → Cell) (value : Value) : Value :=
  if value.argument.copiesBack then
    { value with
      cells := (List.range value.cells.length).map left
      sized := by rw [List.length_map, List.length_range, value.sized] }
  else value

/-- What `Execute` comes to; `run` is the run of the function, where it came to one. -/
structure Executed where
  success : Bool
  values : List Value
  result : Cell := 0
  world : World
  run : Option Run := none

/-- The return of the function, or its throw. -/
def ended (values : List Value) (run : Run) : Executed :=
  let values := values.mapIdx fun i value => value.returned (run.left i)
  match run.status with
  | .none => { success := true, values, result := run.result, world := run.world, run := some run }
  | .error _ =>
      { success := false, values, result := run.result, world := run.world, run := some run }
  | .threw => { success := false, values, world := run.world, run := some run }

/-- `Execute` of the arguments. -/
def execute (vm : Machine) (function : Option Function) (values : List Value) (w : World) :
    Executed :=
  match function with
  | none => { success := false, values, world := w }
  | some function =>
      match push vm [] values with
      | .none => ended values (vm.execute function (values.map Value.pushed) w)
      | _ => { success := false, values, world := w }

def storeCells (memory : Memory) (address : Address) : List Cell → Memory
  | [] => memory
  | cell :: rest => storeCells (write memory address cell.bytes) (address + 4) rest

/-- `Commit` -/
def commit (memory : Memory) : List Value → Memory
  | [] => memory
  | value :: rest =>
      if !value.argument.reference && !value.argument.copyback then commit memory rest
      else commit (storeCells memory value.argument.pointer value.cells) rest

/-- `PawnRuntime::Invoke` -/
def invoke (vm : Machine) (function : Option Function) (values : List Value) (w : World) :
    Executed :=
  let executed := execute vm function values w
  if executed.success then
    { executed with
      world := { executed.world with memory := commit executed.world.memory executed.values } }
  else executed

/-! ## The call -/

structure Answer where
  result : KeelResult
  world : World
  run : Option Run := none

/-- `if (output) *output = cell` -/
def World.output (w : World) (output : Address) (cell : Cell) : World :=
  if output = 0 then w else { w with memory := write w.memory output cell.bytes }

theorem World.output_memory {w : World} {output : Address} (given : output ≠ 0) {cell : Cell} :
    (w.output output cell).memory = write w.memory output cell.bytes := by
  rw [World.output, if_neg given]

/-- `CancelCallback` -/
def cancelCallback (owner : PluginHandle) (token : Token) (s : Foundation.State) :
    Foundation.State :=
  match s.callbacks[token]? with
  | none => s
  | some callback => if callback.provider = owner then s.cancel token callback else s

/-- Up to the call. -/
def enter (a : Foundation.Addr) (owner : PluginHandle) (token : Token) (s : Foundation.State) :
    Foundation.State :=
  let s := s.note (.run token owner a false)
  { s with callbackDepth := s.callbackDepth + 1 }.enter a (.invoked token)

/-- From the return of the call on. -/
def leave (a : Foundation.Addr) (owner : PluginHandle) (token : Token) (success : Bool)
    (s : Foundation.State) : Foundation.State :=
  let s := if success then s else (cancelCallback owner token s).fault a
  let s := s.leave a
  { s with callbackDepth := s.callbackDepth - 1 }

def World.leave (w : World) (a : Foundation.Addr) (owner : PluginHandle) (token : Token)
    (success : Bool) : World :=
  { w with foundation := CallbackArguments.leave a owner token success w.foundation }

def invokeCallback (vm : Machine) (owner : PluginHandle) (token : Token) (arguments : Address)
    (count : UInt32) (output : Address) (w : World) : Answer :=
  let w := w.output output 0
  if owner = 0 ∨ token = 0 ∨ output = 0 then { result := .invalidArgument, world := w }
  else
    match w.foundation.callbacks[token]? with
    | none => { result := .notFound, world := w }
    | some callback =>
        if callback.provider ≠ owner ∨ !callback.persistent then
          { result := .invalidArgument, world := w }
        else
          let a := callback.script
          if !w.foundation.callable a then
            { result := .notFound
              world := { w with foundation := cancelCallback owner token w.foundation } }
          else if w.foundation.managing || w.foundation.state a != .running ||
              callbackMaxDepth ≤ w.foundation.callbackDepth then
            { result := .busy, world := w }
          else
            match callbackArguments w.memory arguments count with
            | .error _ => { result := .invalidArgument, world := w }
            | .ok values =>
                let invoked := invoke vm (some callback.function) values
                  { w with foundation := enter a owner token w.foundation }
                let world := invoked.world.leave a owner token invoked.success
                if !invoked.success then
                  { result := .engineFailure, world, run := invoked.run }
                else
                  { result := .ok, world := world.output output invoked.result, run := invoked.run }

/-! ## What is accepted -/

/-- A descriptor that says what it may say. -/
structure Described (a : Argument) : Prop where
  size : a.size = UInt32.ofNat argumentSize
  known : callbackInt32 ≤ a.type ∧ a.type ≤ callbackFloat32Array
  flags : if a.array then a.flags &&& ~~~callbackCopyback = 0 else a.flags = 0
  count : if a.array then a.count ≠ 0 ∧ a.count ≤ maxArray
    else if a.reference then a.count = 1
    else a.count = 0

/-- A good descriptor with its buffer behind it. -/
structure WellFormed (memory : Memory) (a : Argument) : Prop where
  described : Described a
  present : a.type = callbackString ∨ a.buffer = true → a.pointer ≠ 0
  terminated : a.type = callbackString → ∃ n < bufferLimit, memory (a.pointer + n) = 0

/-- The bytes an argument adds to the payload, a string with its terminator. -/
def Argument.payload (memory : Memory) (a : Argument) : Nat :=
  if a.type = callbackString then stringLength memory a.pointer bufferLimit + 1
  else if a.buffer then 4 * a.count.toNat
  else 0

/-- The payload is the exact sum. -/
structure Acceptable (memory : Memory) (arguments : Address) (count : UInt32) : Prop where
  few : count ≤ maxArguments
  present : count ≠ 0 → arguments ≠ 0
  wellFormed : ∀ a ∈ argumentsAt memory arguments count.toNat, WellFormed memory a
  small : ((argumentsAt memory arguments count.toNat).map (Argument.payload memory)).sum ≤
    maxPayload.toNat

theorem Argument.malformed_iff {a : Argument} : a.malformed = false ↔ Described a := by
  have size : (a.size != UInt32.ofNat argumentSize) = false ↔
      a.size = UInt32.ofNat argumentSize := by simp
  have flags : (if a.array then a.flags &&& ~~~callbackCopyback != 0 else a.flags != 0) = false ↔
      if a.array then a.flags &&& ~~~callbackCopyback = 0 else a.flags = 0 := by
    split <;> simp
  have count : (if a.array then a.count == 0 || decide (maxArray < a.count)
      else if a.reference then a.count != 1 else a.count != 0) = false ↔
      if a.array then a.count ≠ 0 ∧ a.count ≤ maxArray
      else if a.reference then a.count = 1 else a.count = 0 := by
    split
    · simp
    · split <;> simp
  simp only [malformed, Bool.or_eq_false_iff, size, flags, count, decide_eq_false_iff_not,
    UInt32.not_lt]
  constructor
  · intro fine
    exact ⟨fine.1.1.1.1, ⟨fine.1.1.1.2, fine.1.1.2⟩, fine.1.2, fine.2⟩
  · intro fine
    exact ⟨⟨⟨⟨fine.size, fine.known.1⟩, fine.known.2⟩, fine.flags⟩, fine.count⟩

theorem Described.count_le {a : Argument} (described : Described a) (buffer : a.buffer = true) :
    a.count.toNat ≤ 1024 := by
  have count := described.count
  by_cases array : a.array = true
  · rw [if_pos array] at count
    exact UInt32.le_iff_toNat_le.mp count.2
  · have reference : a.reference = true := by simpa [Argument.buffer, array] using buffer
    rw [if_neg array, if_pos reference] at count
    rw [count]
    decide

/-! ### Strings -/

theorem stringLength_le (memory : Memory) (room : Nat) :
    ∀ address, stringLength memory address room ≤ room := by
  induction room with
  | zero => intro address; rfl
  | succ room ih =>
      intro address
      rw [stringLength]
      split
      · exact Nat.zero_le _
      · exact Nat.succ_le_succ (ih _)

/-- The length is the place of the first zero byte. -/
theorem stringLength_exact (memory : Memory) (room : Nat) : ∀ address,
    (∀ n < stringLength memory address room, memory (address + n) ≠ 0) ∧
      (stringLength memory address room < room →
        memory (address + stringLength memory address room) = 0) := by
  induction room with
  | zero =>
      intro address
      exact ⟨fun n below => absurd below (Nat.not_lt_zero n), fun below =>
        absurd below (Nat.not_lt_zero _)⟩
  | succ room ih =>
      intro address
      rw [stringLength]
      by_cases zero : memory address = 0
      · rw [if_pos zero]
        exact ⟨fun n below => absurd below (Nat.not_lt_zero n), fun _ => zero⟩
      · rw [if_neg zero]
        have shift : ∀ n : Nat, address + (n + 1) = address + 1 + n :=
          fun n => (Nat.succ_add_eq_add_succ address n).symm
        constructor
        · intro n below
          cases n with
          | zero => exact zero
          | succ n => rw [shift]; exact (ih (address + 1)).1 n (Nat.lt_of_succ_lt_succ below)
        · intro below
          rw [shift]
          exact (ih (address + 1)).2 (Nat.lt_of_succ_lt_succ below)

theorem stringLength_lt_iff {memory : Memory} {address : Address} {room : Nat} :
    stringLength memory address room < room ↔ ∃ n < room, memory (address + n) = 0 := by
  constructor
  · intro below
    exact ⟨_, below, (stringLength_exact memory room address).2 below⟩
  · intro terminated
    obtain ⟨n, below, zero⟩ := terminated
    by_contra full
    have whole := Nat.le_antisymm (stringLength_le memory room address) (Nat.not_lt.mp full)
    exact (stringLength_exact memory room address).1 n (by omega) zero

/-! ### Payloads -/

/-- The check after an addition, which does not wrap. -/
theorem exceeds_iff {payload more : UInt64} {n : Nat} (small : payload.toNat ≤ maxPayload.toNat)
    (is : more.toNat = n) (little : n ≤ maxPayload.toNat) :
    (payload + more).toNat = payload.toNat + n ∧
      (maxPayload < payload + more ↔ ¬ payload.toNat + n ≤ maxPayload.toNat) := by
  have limit : maxPayload.toNat = 16384 := rfl
  have added : (payload + more).toNat = payload.toNat + n := by
    rw [UInt64.toNat_add, is, Nat.mod_eq_of_lt]
    omega
  exact ⟨added, by rw [UInt64.lt_iff_toNat_lt, added, Nat.not_le]⟩

theorem room_ok {α : Type} {value : α} {text : String} {payload more : UInt64} {fits : Prop}
    (exceeds : maxPayload < payload + more ↔ ¬ fits) :
    (∃ copied, (if maxPayload < payload + more then Except.error text
      else Except.ok (value, payload + more)) = Except.ok copied) ↔ fits := by
  by_cases full : maxPayload < payload + more
  · have beyond := exceeds.mp full
    rw [if_pos full]
    simp [beyond]
  · have within := not_not.mp (exceeds.not.mp full)
    rw [if_neg full]
    simp [within]

theorem string_payload {length : Nat} (short : length ≤ bufferLimit) :
    (UInt64.ofNat length + 1).toNat = length + 1 := by
  have limit : bufferLimit = 4096 := rfl
  have plain : (UInt64.ofNat length).toNat = length := UInt64.toNat_ofNat_of_lt' (by
    show length < 2 ^ 64
    omega)
  rw [UInt64.toNat_add, plain, Nat.mod_eq_of_lt]
  · rfl
  · show length + 1 < 2 ^ 64
    omega

theorem buffer_payload {count : UInt32} (few : count.toNat ≤ 1024) :
    (count.toUInt64 * 4).toNat = 4 * count.toNat := by
  have plain : count.toUInt64.toNat = count.toNat := UInt32.toNat_toUInt64 count
  have four : (4 : UInt64).toNat = 4 := rfl
  rw [UInt64.toNat_mul, plain, four, Nat.mod_eq_of_lt] <;> omega

/-- What the copy of an argument holds. -/
structure Copied (memory : Memory) (a : Argument) (value : Value) : Prop where
  argument : value.argument = a
  text : a.type = callbackString →
    value.text = ByteMemory.read memory a.pointer (stringLength memory a.pointer bufferLimit)
  cells : a.buffer = true → value.cells = readCells memory a.pointer a.count.toNat

/-- The step of the check: the argument is good and its payload, exactly added, fits. -/
theorem copy_ok {memory : Memory} {payload : UInt64} {a : Argument}
    (small : payload.toNat ≤ maxPayload.toNat) :
    (∃ copied, copy memory payload a = .ok copied) ↔
      WellFormed memory a ∧ payload.toNat + a.payload memory ≤ maxPayload.toNat := by
  unfold copy
  by_cases bad : a.malformed = true
  · rw [if_pos bad]
    have undescribed : ¬ WellFormed memory a := fun fine => by
      rw [Argument.malformed_iff.mpr fine.described] at bad
      exact Bool.false_ne_true bad
    simp [undescribed]
  have described := Argument.malformed_iff.mp (Bool.not_eq_true _ ▸ bad)
  rw [if_neg bad]
  by_cases string : a.type = callbackString
  · rw [dif_pos string]
    by_cases missing : a.pointer = 0
    · rw [if_pos missing]
      have absent : ¬ WellFormed memory a := fun fine => fine.present (Or.inl string) missing
      simp [absent]
    rw [if_neg missing]
    dsimp only
    by_cases long : stringLength memory a.pointer bufferLimit = bufferLimit
    · rw [if_pos long]
      have endless : ¬ WellFormed memory a := fun fine => by
        have short := stringLength_lt_iff.mpr (fine.terminated string)
        omega
      simp [endless]
    have short := stringLength_le memory bufferLimit a.pointer
    have fine : WellFormed memory a :=
      ⟨described, fun _ => missing, fun _ => stringLength_lt_iff.mp (by omega)⟩
    have little : stringLength memory a.pointer bufferLimit + 1 ≤ maxPayload.toNat :=
      (Nat.succ_le_succ short).trans (by decide)
    rw [if_neg long, Argument.payload, if_pos string, and_iff_right fine]
    exact room_ok (exceeds_iff small (string_payload short) little).2
  rw [dif_neg string]
  by_cases buffer : a.buffer = true
  · rw [dif_pos buffer]
    by_cases missing : a.pointer = 0
    · rw [if_pos missing]
      have absent : ¬ WellFormed memory a := fun fine => fine.present (Or.inr buffer) missing
      simp [absent]
    have few := described.count_le buffer
    have fine : WellFormed memory a :=
      ⟨described, fun _ => missing, fun is => absurd is string⟩
    have little : 4 * a.count.toNat ≤ maxPayload.toNat :=
      (Nat.mul_le_mul_left 4 few).trans (by decide)
    rw [if_neg missing, Argument.payload, if_neg string, if_pos buffer, and_iff_right fine]
    exact room_ok (exceeds_iff small (buffer_payload few) little).2
  · have fine : WellFormed memory a :=
      ⟨described, fun needs => (needs.elim string buffer).elim, fun is => absurd is string⟩
    rw [dif_neg buffer, Argument.payload, if_neg string, if_neg buffer]
    simp [fine, small]

theorem copy_does {memory : Memory} {payload payload' : UInt64} {a : Argument} {value : Value}
    (small : payload.toNat ≤ maxPayload.toNat)
    (does : copy memory payload a = .ok (value, payload')) :
    Copied memory a value ∧ payload'.toNat = payload.toNat + a.payload memory := by
  have fine := ((copy_ok small).mp ⟨_, does⟩).1
  unfold copy at does
  rw [if_neg (by rw [Argument.malformed_iff.mpr fine.described]; decide)] at does
  by_cases string : a.type = callbackString
  · have short := stringLength_le memory bufferLimit a.pointer
    have little : stringLength memory a.pointer bufferLimit + 1 ≤ maxPayload.toNat :=
      (Nat.succ_le_succ short).trans (by decide)
    rw [dif_pos string, if_neg (fine.present (Or.inl string))] at does
    dsimp only at does
    split at does
    · cases does
    · split at does
      · cases does
      · cases does
        rw [(exceeds_iff small (string_payload short) little).1, Argument.payload, if_pos string]
        exact ⟨⟨rfl, fun _ => rfl, fun is => absurd is (Argument.buffer_of_string string)⟩, rfl⟩
  rw [dif_neg string] at does
  by_cases buffer : a.buffer = true
  · have few := fine.described.count_le buffer
    have little : 4 * a.count.toNat ≤ maxPayload.toNat :=
      (Nat.mul_le_mul_left 4 few).trans (by decide)
    rw [dif_pos buffer, if_neg (fine.present (Or.inr buffer))] at does
    dsimp only at does
    split at does
    · cases does
    · cases does
      rw [(exceeds_iff small (buffer_payload few) little).1, Argument.payload, if_neg string,
        if_pos buffer]
      exact ⟨⟨rfl, fun is => absurd is string, fun _ => rfl⟩, rfl⟩
  · rw [dif_neg buffer] at does
    cases does
    rw [Argument.payload, if_neg string, if_neg buffer]
    exact ⟨⟨rfl, fun is => absurd is string, fun is => absurd is buffer⟩, rfl⟩

theorem copies_cons {memory : Memory} {payload : UInt64} {a : Argument} {rest : List Argument}
    {values : List Value} :
    copies memory payload (a :: rest) = .ok values ↔
      ∃ value payload' more, copy memory payload a = .ok (value, payload') ∧
        copies memory payload' rest = .ok more ∧ values = value :: more := by
  cases first : copy memory payload a with
  | error text => simp [copies, first, bind, Except.bind]
  | ok copied =>
      obtain ⟨value, payload'⟩ := copied
      cases others : copies memory payload' rest with
      | error text => simp [copies, first, others, bind, Except.bind]
      | ok more => simp [copies, first, others, bind, Except.bind, pure, Except.pure, eq_comm]

/-- All arguments are checked, and their payload is counted over all of them. -/
theorem copies_ok {memory : Memory} {arguments : List Argument} : ∀ {payload : UInt64},
    payload.toNat ≤ maxPayload.toNat →
      ((∃ values, copies memory payload arguments = .ok values) ↔
        (∀ a ∈ arguments, WellFormed memory a) ∧
          payload.toNat + (arguments.map (Argument.payload memory)).sum ≤ maxPayload.toNat) := by
  induction arguments with
  | nil => intro payload small; simp [copies, small]
  | cons a rest ih =>
      intro payload small
      rw [List.forall_mem_cons, List.map_cons, List.sum_cons]
      constructor
      · intro accepted
        obtain ⟨values, does⟩ := accepted
        obtain ⟨value, payload', more, first, others, -⟩ := copies_cons.mp does
        have step := (copy_ok small).mp ⟨_, first⟩
        have total := (copy_does small first).2
        have tail := (ih (total ▸ step.2)).mp ⟨more, others⟩
        exact ⟨⟨step.1, tail.1⟩, by rw [← Nat.add_assoc, ← total]; exact tail.2⟩
      · intro fine
        obtain ⟨⟨good, others⟩, fits⟩ := fine
        obtain ⟨copied, first⟩ := (copy_ok small).mpr ⟨good, by omega⟩
        have total := (copy_does small first).2
        obtain ⟨more, tail⟩ := (ih (by rw [total]; omega)).mpr
          ⟨others, by rw [total, Nat.add_assoc]; exact fits⟩
        exact ⟨_, copies_cons.mpr ⟨_, _, more, first, tail, rfl⟩⟩

theorem copies_copied {memory : Memory} {arguments : List Argument} :
    ∀ {payload : UInt64} {values : List Value}, payload.toNat ≤ maxPayload.toNat →
      copies memory payload arguments = .ok values →
        List.Forall₂ (Copied memory) arguments values := by
  induction arguments with
  | nil => intro payload values small does; cases does; exact .nil
  | cons a rest ih =>
      intro payload values small does
      obtain ⟨value, payload', more, first, others, rfl⟩ := copies_cons.mp does
      have step := (copy_ok small).mp ⟨_, first⟩
      have copied := copy_does small first
      exact .cons copied.1 (ih (copied.2 ▸ step.2) others)

/-- The constructor accepts exactly these arguments. -/
theorem callbackArguments_ok {memory : Memory} {arguments : Address} {count : UInt32} :
    (∃ values, callbackArguments memory arguments count = .ok values) ↔
      Acceptable memory arguments count := by
  unfold callbackArguments
  by_cases bad : maxArguments < count ∨ (count ≠ 0 ∧ arguments = 0)
  · rw [if_pos bad]
    have refused : ¬ Acceptable memory arguments count := fun fine =>
      bad.elim (UInt32.not_lt.mpr fine.few) fun missing => fine.present missing.1 missing.2
    simp [refused]
  · rw [if_neg bad, copies_ok (Nat.zero_le _)]
    rw [not_or, UInt32.not_lt, not_and] at bad
    rw [show (0 : UInt64).toNat = 0 from rfl, Nat.zero_add]
    constructor
    · intro fine
      exact ⟨bad.1, bad.2, fine.1, fine.2⟩
    · intro fine
      exact ⟨fine.wellFormed, fine.small⟩

theorem callbackArguments_copied {memory : Memory} {arguments : Address} {count : UInt32}
    {values : List Value} (does : callbackArguments memory arguments count = .ok values) :
    List.Forall₂ (Copied memory) (argumentsAt memory arguments count.toNat) values := by
  unfold callbackArguments at does
  split at does
  · cases does
  · exact copies_copied (Nat.zero_le _) does

/-! ## What is written back -/

/-- The bytes of the cells that a run left. -/
def contents (left : Nat → Cell) (count : Nat) : List UInt8 :=
  ((List.range count).map left).flatMap Cell.bytes

/-- The place lies in the buffer of the argument. -/
def Argument.Covers (a : Argument) (place : Address) : Prop :=
  Within a.pointer (4 * a.count.toNat) place

def Argument.patch (left : Nat → Cell) (a : Argument) : Patch where
  address := a.pointer
  bytes := if a.copiesBack then contents left a.count.toNat else []

def Value.patch (value : Value) : Patch where
  address := value.argument.pointer
  bytes := if value.argument.copiesBack then value.cells.flatMap Cell.bytes else []

@[simp] theorem Cell.bytes_length (cell : Cell) : cell.bytes.length = 4 := layout_length 4 _

@[simp] theorem contents_length (left : Nat → Cell) (count : Nat) :
    (contents left count).length = 4 * count := by
  rw [contents, List.length_flatMap, List.map_map]
  simp [Function.comp_def, Nat.mul_comm]

theorem storeCells_eq {cells : List Cell} : ∀ {memory : Memory} {address : Address},
    storeCells memory address cells = write memory address (cells.flatMap Cell.bytes) := by
  induction cells with
  | nil => intro memory address; rfl
  | cons cell rest ih =>
      intro memory address
      rw [storeCells, ih, List.flatMap_cons, write_append, Cell.bytes_length]

theorem commit_eq {values : List Value} : ∀ {memory : Memory},
    commit memory values = ByteMemory.patch memory (values.map Value.patch) := by
  induction values with
  | nil => intro memory; rfl
  | cons value rest ih =>
      intro memory
      rw [commit, List.map_cons, ByteMemory.patch, List.foldl_cons]
      by_cases back : value.argument.copiesBack = true
      · have writes : (!value.argument.reference && !value.argument.copyback) ≠ true := by
          rw [← Bool.not_or, ← Argument.copiesBack, back]
          decide
        rw [if_neg writes, ih, storeCells_eq, Value.patch, if_pos back]
        rfl
      · have skips : (!value.argument.reference && !value.argument.copyback) = true := by
          rw [← Bool.not_or, ← Argument.copiesBack, Bool.eq_false_of_not_eq_true back]
          rfl
        rw [if_pos skips, ih, Value.patch, if_neg back]
        rfl

/-- Only buffers are written back. -/
theorem Described.buffer {a : Argument} (described : Described a) (back : a.copiesBack = true) :
    a.buffer = true := by
  have flags := described.flags
  by_cases array : a.array = true
  · rw [Argument.buffer, array, Bool.true_or]
  · rw [if_neg array] at flags
    have plain : a.copyback = false := by
      rw [Argument.copyback, flags]
      decide
    rw [Argument.copiesBack, plain, Bool.or_false] at back
    rw [Argument.buffer, back, Bool.or_true]

@[simp] theorem Value.returned_argument (left : Nat → Cell) (value : Value) :
    (value.returned left).argument = value.argument := by
  rw [Value.returned]
  split <;> rfl

theorem Copied.patch {memory : Memory} {a : Argument} {value : Value}
    (copied : Copied memory a value) (described : Described a) (left : Nat → Cell) :
    (value.returned left).patch = a.patch left := by
  rw [Value.patch, Argument.patch, Value.returned_argument, copied.argument]
  by_cases back : a.copiesBack = true
  · have sized := value.sized
    rw [copied.argument, if_pos (described.buffer back)] at sized
    rw [if_pos back, if_pos back, Value.returned, if_pos (by rw [copied.argument, back])]
    simp only [contents, sized]
  · rw [if_neg back, if_neg back]

/-- `Commit` after a run writes what the run left, argument by argument. -/
theorem commit_returned {before memory : Memory} {arguments : List Argument}
    {values : List Value} (left : Nat → Nat → Cell)
    (copied : List.Forall₂ (Copied before) arguments values)
    (fine : ∀ a ∈ arguments, WellFormed before a) :
    commit memory (values.mapIdx fun i value => value.returned (left i)) =
      ByteMemory.patch memory (arguments.mapIdx fun i a => a.patch (left i)) := by
  rw [commit_eq]
  congr 1
  have same := copied.length_eq
  refine List.ext_getElem (by simp [same]) fun i below below' => ?_
  have there : i < arguments.length := by simpa using below'
  have pair := copied.get there (same ▸ there)
  have described := (fine _ (List.getElem_mem there)).described
  simpa using pair.patch described (left i)

/-! ## All or nothing -/

/-- The memory without what the call itself writes after its start: what the natives of
the run left, or what was there. -/
def Answer.ground (answer : Answer) (memory : Memory) : Memory :=
  match answer.run with
  | none => memory
  | some run => run.world.memory

/-- Every buffer that is copied back holds what the run left in its argument, but for the
bytes that it shares with a later one or with the output cell; no other byte is written. -/
structure CopiedBack (arguments : List Argument) (output : Address) (run : Run)
    (memory : Memory) : Prop where
  buffers : ∀ i (there : i < arguments.length), arguments[i].copiesBack = true →
    ∀ n (inside : n < (contents (run.left i) arguments[i].count.toNat).length),
      (∀ later ∈ arguments.drop (i + 1), later.copiesBack = true →
        ¬ later.Covers (arguments[i].pointer + n)) →
      ¬ Within output 4 (arguments[i].pointer + n) →
        memory (arguments[i].pointer + n) =
          (contents (run.left i) arguments[i].count.toNat)[n]
  others : ∀ place, (∀ a ∈ arguments, a.copiesBack = true → ¬ a.Covers place) →
    ¬ Within output 4 place → memory place = run.world.memory place
  result : readCell memory output = run.result

/-- A buffer apart from the later ones and from the output cell is exact. -/
theorem CopiedBack.whole {arguments : List Argument} {output : Address} {run : Run}
    {memory : Memory} (back : CopiedBack arguments output run memory) {i : Nat}
    (there : i < arguments.length) (copies : arguments[i].copiesBack = true)
    (apart : ∀ place, arguments[i].Covers place → ¬ Within output 4 place ∧
      ∀ later ∈ arguments.drop (i + 1), later.copiesBack = true → ¬ later.Covers place) :
    ByteMemory.read memory arguments[i].pointer (4 * arguments[i].count.toNat) =
      contents (run.left i) arguments[i].count.toNat := by
  have exact_at : ∀ n (inside : n < (contents (run.left i) arguments[i].count.toNat).length),
      memory (arguments[i].pointer + n) =
        (contents (run.left i) arguments[i].count.toNat)[n] := by
    intro n inside
    have covered : arguments[i].Covers (arguments[i].pointer + n) := by
      rw [contents_length] at inside
      exact ⟨Nat.le_add_right _ _, Nat.add_lt_add_left inside _⟩
    exact back.buffers i there copies n inside (apart _ covered).2 (apart _ covered).1
  have bytes := ByteMemory.read_of_getElem exact_at
  rwa [contents_length] at bytes

theorem readCell_write {memory : Memory} {address : Address} {cell : Cell} :
    readCell (write memory address cell.bytes) address = cell := by
  have whole : ByteMemory.read (write memory address cell.bytes) address cell.bytes.length =
      cell.bytes := ByteMemory.read_write
  rw [Cell.bytes_length] at whole
  rw [readCell, whole, Cell.bytes, word_layout, Nat.mod_eq_of_lt (by exact cell.toNat_lt),
    UInt32.ofNat_toNat]

theorem Argument.patch_covers {a : Argument} {left : Nat → Cell} {place : Address} :
    (a.patch left).Covers place ↔ a.copiesBack = true ∧ a.Covers place := by
  rw [Patch.Covers, Argument.patch, Argument.Covers]
  by_cases back : a.copiesBack = true
  · rw [if_pos back, contents_length, and_iff_right back]
  · rw [if_neg back]
    constructor
    · intro inside
      exact absurd inside.2 (by rw [List.length_nil]; exact Nat.not_lt.mpr inside.1)
    · intro covers
      exact absurd covers.1 back

theorem mem_drop_patches {arguments : List Argument} {left : Nat → Nat → Cell} {k : Nat}
    {q : Patch} (listed : q ∈ (arguments.mapIdx fun i a => a.patch (left i)).drop k) :
    ∃ i, ∃ a ∈ arguments.drop k, q = a.patch (left i) := by
  obtain ⟨j, below, is⟩ := List.mem_iff_getElem.mp listed
  rw [List.length_drop, List.length_mapIdx] at below
  rw [List.getElem_drop, List.getElem_mapIdx] at is
  refine ⟨k + j, arguments[k + j], List.mem_iff_getElem.mpr ⟨j, ?_, List.getElem_drop⟩, is.symm⟩
  rw [List.length_drop]
  exact below

theorem commit_copiedBack {before : Memory} {arguments : List Argument} {values : List Value}
    (run : Run) (copied : List.Forall₂ (Copied before) arguments values)
    (fine : ∀ a ∈ arguments, WellFormed before a) (output : Address) :
    CopiedBack arguments output run
      (write (commit run.world.memory (values.mapIdx fun i value => value.returned (run.left i)))
        output run.result.bytes) := by
  rw [commit_returned run.left copied fine]
  refine ⟨?_, ?_, readCell_write⟩
  · intro i there copies n inside later outside
    have patched : (arguments.mapIdx fun i a => a.patch (run.left i))[i]? =
        some (arguments[i].patch (run.left i)) := by
      rw [List.getElem?_mapIdx, List.getElem?_eq_getElem there]
      rfl
    have bytes : (arguments[i].patch (run.left i)).bytes =
        contents (run.left i) arguments[i].count.toNat := if_pos copies
    have uncovered : ∀ q ∈ (arguments.mapIdx fun i a => a.patch (run.left i)).drop (i + 1),
        ¬ q.Covers ((arguments[i].patch (run.left i)).address + n) := by
      intro q listed covers
      obtain ⟨j, a, after, rfl⟩ := mem_drop_patches listed
      obtain ⟨back, covered⟩ := Argument.patch_covers.mp covers
      exact later a after back covered
    rw [write_outside (by rw [Cell.bytes_length]; exact outside)]
    have within : n < (arguments[i].patch (run.left i)).bytes.length := by
      rw [bytes]
      exact inside
    refine (patch_inside patched within uncovered).trans ?_
    simp only [bytes]
  · intro place uncovered outside
    rw [write_outside (by rw [Cell.bytes_length]; exact outside)]
    refine patch_outside fun q listed covers => ?_
    obtain ⟨j, a, among, rfl⟩ := mem_drop_patches (k := 0) listed
    obtain ⟨back, covered⟩ := Argument.patch_covers.mp covers
    exact uncovered a among back covered

/-- The arguments and the result of a run without error. -/
def Run.executed (run : Run) (values : List Value) (world : World) : Executed where
  success := true
  values := values.mapIdx fun i value => value.returned (run.left i)
  result := run.result
  world := world
  run := some run

theorem ended_cases (values : List Value) (run : Run) :
    (run.status = .none ∧ ended values run = run.executed values run.world) ∨
      (ended values run).success = false := by
  unfold ended
  cases run.status with
  | none => exact Or.inl ⟨rfl, rfl⟩
  | error code => exact Or.inr rfl
  | threw => exact Or.inr rfl

@[simp] theorem ended_run (values : List Value) (run : Run) :
    (ended values run).run = some run := by
  unfold ended
  cases run.status <;> rfl

@[simp] theorem ended_world (values : List Value) (run : Run) :
    (ended values run).world = run.world := by
  unfold ended
  cases run.status <;> rfl

/-- A call comes to a run of the function, or to nothing at all. -/
theorem execute_cases (vm : Machine) (function : Option Function) (values : List Value)
    (w : World) :
    (∃ run, execute vm function values w = ended values run) ∨
      execute vm function values w = { success := false, values, world := w } := by
  unfold execute
  cases function with
  | none => exact Or.inr rfl
  | some function =>
      dsimp only
      cases push vm [] values with
      | none => exact Or.inl ⟨_, rfl⟩
      | error code => exact Or.inr rfl
      | threw => exact Or.inr rfl

/-- The world after a successful run, with its arguments written back. -/
def Run.committed (run : Run) (values : List Value) : World :=
  let returned := values.mapIdx fun i value => value.returned (run.left i)
  { run.world with memory := commit run.world.memory returned }

theorem Run.committed_memory {run : Run} {values : List Value} :
    (run.committed values).memory = commit run.world.memory
      (values.mapIdx fun i value => value.returned (run.left i)) := rfl

theorem invoke_cases (vm : Machine) (function : Option Function) (values : List Value)
    (w : World) :
    (∃ run : Run, run.status = .none ∧
      invoke vm function values w = run.executed values (run.committed values)) ∨
    ((invoke vm function values w).success = false ∧ (invoke vm function values w).world =
      match (invoke vm function values w).run with
      | none => w
      | some run => run.world) := by
  unfold invoke
  dsimp only
  cases execute_cases vm function values w with
  | inl ran =>
      obtain ⟨run, ran⟩ := ran
      rw [ran]
      cases ended_cases values run with
      | inl fine =>
          rw [fine.2]
          exact Or.inl ⟨run, fine.1, rfl⟩
      | inr failed =>
          rw [if_neg (by rw [failed]; decide), failed, ended_world, ended_run]
          exact Or.inr ⟨rfl, rfl⟩
  | inr still =>
      rw [still]
      exact Or.inr ⟨rfl, rfl⟩

/-- What an extension may rely on when it invokes a callback. -/
structure AllOrNothing (w : World) (arguments : Address) (count : UInt32) (output : Address)
    (answer : Answer) : Prop where
  written : answer.result = .ok → ∃ run, answer.run = some run ∧ run.status = .none ∧
    Acceptable (w.output output 0).memory arguments count ∧
    CopiedBack (argumentsAt (w.output output 0).memory arguments count.toNat) output run
      answer.world.memory
  unwritten : answer.result ≠ .ok →
    answer.world.memory = answer.ground (w.output output 0).memory

theorem AllOrNothing.of_still {w : World} {arguments : Address} {count : UInt32}
    {output : Address} {answer : Answer} (failed : answer.result ≠ .ok)
    (unrun : answer.run = none) (same : answer.world.memory = (w.output output 0).memory) :
    AllOrNothing w arguments count output answer where
  written := fun ok => absurd ok failed
  unwritten := fun _ => by rw [same, Answer.ground, unrun]

/-- What the call makes of its prepared arguments. -/
theorem AllOrNothing.of_invoked {w start : World} {arguments : Address} {count : UInt32}
    {output : Address} {vm : Machine} {function : Function} {values : List Value}
    (finish : World → World) (finishes : ∀ w, (finish w).memory = w.memory)
    (given : output ≠ 0) (same : start.memory = (w.output output 0).memory)
    (prepared : callbackArguments (w.output output 0).memory arguments count = .ok values) :
    AllOrNothing w arguments count output
      (if !(invoke vm (some function) values start).success then
        { result := .engineFailure
          world := finish (invoke vm (some function) values start).world
          run := (invoke vm (some function) values start).run }
      else
        { result := .ok
          world := (finish (invoke vm (some function) values start).world).output output
            (invoke vm (some function) values start).result
          run := (invoke vm (some function) values start).run }) := by
  have copied := callbackArguments_copied prepared
  have fine := callbackArguments_ok.mp ⟨values, prepared⟩
  have outcome := invoke_cases vm (some function) values start
  generalize invoke vm (some function) values start = invoked at outcome ⊢
  cases outcome with
  | inl ran =>
      obtain ⟨run, status, rfl⟩ := ran
      have back := commit_copiedBack run copied fine.wellFormed output
      rw [← Run.committed_memory, ← finishes (run.committed values),
        ← World.output_memory given] at back
      exact ⟨fun _ => ⟨run, rfl, status, fine, back⟩, fun failed => absurd rfl failed⟩
  | inr failed =>
      rw [if_pos (by rw [failed.1]; rfl)]
      refine ⟨fun ok => (by cases ok), fun _ => ?_⟩
      show (finish invoked.world).memory = _
      rw [finishes, failed.2, Answer.ground]
      cases invoked.run with
      | none => exact same
      | some run => rfl

theorem invokeCallback_written (vm : Machine) (owner : PluginHandle) (token : Token)
    (arguments : Address) (count : UInt32) (output : Address) (w : World) :
    AllOrNothing w arguments count output
      (invokeCallback vm owner token arguments count output w) := by
  unfold invokeCallback
  dsimp only
  split
  · exact .of_still (by simp) rfl rfl
  rename_i given
  simp only [not_or] at given
  cases found : (w.output output 0).foundation.callbacks[token]? with
  | none => exact .of_still (by simp) rfl rfl
  | some callback =>
      dsimp only
      split
      · exact .of_still (by simp) rfl rfl
      split
      · exact .of_still (by simp) rfl rfl
      split
      · exact .of_still (by simp) rfl rfl
      cases prepared : callbackArguments (w.output output 0).memory arguments count with
      | error text => exact .of_still (by simp) rfl rfl
      | ok values =>
          dsimp only
          exact .of_invoked (fun w => w.leave callback.script owner token _) (fun _ => rfl)
            given.2.2 rfl prepared

/-! ## Rejected arguments -/

/-- The token is a persistent callback of the extension, in a running script. -/
def Ready (w : World) (owner : PluginHandle) (token : Token) : Prop :=
  ∃ callback, w.foundation.callbacks[token]? = some callback ∧ callback.provider = owner ∧
    callback.persistent = true ∧ w.foundation.state callback.script = .running

/-- No management is under way, and the calls are not nested too deep. -/
def Free (w : World) : Prop :=
  w.foundation.managing = false ∧ w.foundation.callbackDepth < callbackMaxDepth

@[simp] theorem World.output_foundation (w : World) (output : Address) (cell : Cell) :
    (w.output output cell).foundation = w.foundation := by
  rw [World.output]
  split <;> rfl

/-- Up to the check of the arguments nothing happens. -/
theorem invokeCallback_ready {w : World} {owner : PluginHandle} {token : Token}
    (ready : Ready w owner token) (vm : Machine) (arguments : Address) (count : UInt32)
    (output : Address) :
    (∃ result, result ≠ .ok ∧
      invokeCallback vm owner token arguments count output w =
        { result, world := w.output output 0 } ∧
      (owner ≠ 0 → token ≠ 0 → output ≠ 0 → Free w → result = .invalidArgument ∧
        ¬ Acceptable (w.output output 0).memory arguments count)) ∨
    (invokeCallback vm owner token arguments count output w).result ≠ .invalidArgument ∧
      Acceptable (w.output output 0).memory arguments count := by
  obtain ⟨callback, found, mine, persistent, running⟩ := ready
  unfold invokeCallback
  dsimp only
  by_cases given : owner = 0 ∨ token = 0 ∨ output = 0
  · rw [if_pos given]
    refine Or.inl ⟨.invalidArgument, by simp, rfl, fun some_owner some_token some_output _ => ?_⟩
    exact absurd given (by simp [some_owner, some_token, some_output])
  rw [if_neg given, World.output_foundation, found]
  dsimp only
  have callable : w.foundation.callable callback.script = true := by
    simp [Foundation.State.callable, running]
  rw [if_neg (by simp [mine, persistent]), if_neg (by simp [callable]), running]
  by_cases busy : (w.foundation.managing || Foundation.PluginState.running != .running ||
      decide (callbackMaxDepth ≤ w.foundation.callbackDepth)) = true
  · rw [if_pos busy]
    refine Or.inl ⟨.busy, by simp, rfl, fun _ _ _ free => ?_⟩
    exact absurd busy (by simp [free.1, free.2])
  rw [if_neg busy]
  cases prepared : callbackArguments (w.output output 0).memory arguments count with
  | error text =>
      refine Or.inl ⟨.invalidArgument, by simp, rfl, fun _ _ _ _ => ⟨rfl, fun fine => ?_⟩⟩
      obtain ⟨values, accepted⟩ := callbackArguments_ok.mpr fine
      rw [prepared] at accepted
      cases accepted
  | ok values =>
      refine Or.inr ⟨?_, callbackArguments_ok.mp ⟨values, prepared⟩⟩
      dsimp only
      split <;> simp

/-- The output cell is zero, and nothing else changed. -/
structure Cleared (before : World) (output : Address) (after : World) : Prop where
  zero : output ≠ 0 → readCell after.memory output = 0
  memory : ∀ place, output = 0 ∨ ¬ Within output 4 place →
    after.memory place = before.memory place
  foundation : after.foundation = before.foundation

theorem World.cleared (w : World) (output : Address) : Cleared w output (w.output output 0) where
  zero := fun given => by rw [World.output_memory given, readCell_write]
  memory := by
    intro place outside
    by_cases given : output = 0
    · rw [World.output, if_pos given]
    · rw [World.output_memory given, write_outside]
      rw [Cell.bytes_length]
      exact outside.resolve_left given
  foundation := World.output_foundation w output 0

theorem invokeCallback_allOrNothing (vm : Machine) (owner : PluginHandle) (token : Token)
    (arguments : Address) (count : UInt32) (output : Address) (w : World) :
    Cleared w output (w.output output 0) ∧
    AllOrNothing w arguments count output
      (invokeCallback vm owner token arguments count output w) ∧
    (Ready w owner token → ¬ Acceptable (w.output output 0).memory arguments count →
      ∃ result, result ≠ .ok ∧ invokeCallback vm owner token arguments count output w =
        { result, world := w.output output 0 }) ∧
    (Ready w owner token → Free w → owner ≠ 0 → token ≠ 0 → output ≠ 0 →
      ((invokeCallback vm owner token arguments count output w).result = .invalidArgument ↔
        ¬ Acceptable (w.output output 0).memory arguments count)) := by
  refine ⟨w.cleared output, invokeCallback_written vm owner token arguments count output w,
    fun ready bad => ?_, fun ready free some_owner some_token some_output => ?_⟩
  · cases invokeCallback_ready ready vm arguments count output with
    | inl turned =>
        obtain ⟨result, failed, answer, -⟩ := turned
        exact ⟨result, failed, answer⟩
    | inr taken => exact absurd taken.2 bad
  · cases invokeCallback_ready ready vm arguments count output with
    | inl turned =>
        obtain ⟨result, -, answer, why⟩ := turned
        have known := why some_owner some_token some_output free
        rw [answer]
        exact iff_of_true known.1 known.2
    | inr taken => exact iff_of_false taken.1 (not_not.mpr taken.2)

/-! ## The call among all runs -/

open Reentrant in
theorem cancelCallback_ends (owner : PluginHandle) (token : Token) (s : Foundation.State)
    (given : ¬ (owner = 0 ∨ token = 0)) :
    ∃ result, (Foundation.cancelCallback owner token s).Ends (.ok result)
      (cancelCallback owner token s) := by
  unfold Foundation.cancelCallback cancelCallback
  rw [if_neg given]
  cases found : s.callbacks[token]? with
  | none => exact ⟨.notFound, ends_bind .done (by rw [found]; exact .done)⟩
  | some callback =>
      by_cases mine : callback.provider = owner
      · refine ⟨.ok, ends_bind .done ?_⟩
        rw [found]
        dsimp only
        rw [if_neg (not_not.mpr mine), if_pos mine]
        exact ends_bind .done .done
      · refine ⟨.invalidArgument, ends_bind .done ?_⟩
        rw [found]
        dsimp only
        rw [if_pos mine, if_neg mine]
        exact .done

/-- The result, and the output cell of a successful call. -/
def Answer.outcome (answer : Answer) (output : Address) : KeelResult × Int :=
  (answer.result,
    if answer.result = .ok then (readCell answer.world.memory output).value else 0)

open Reentrant in
/-- Beside its memory, the call is one of the manager's own runs. -/
theorem invokeCallback_ends (vm : Machine) (owner : PluginHandle) (token : Token)
    (arguments : Address) (count : UInt32) {output : Address} (given : output ≠ 0) (w : World) :
    (Foundation.invokeCallback owner token
        (callbackArguments (w.output output 0).memory arguments count).isOk w.foundation).Ends
      (.ok ((invokeCallback vm owner token arguments count output w).outcome output))
      (invokeCallback vm owner token arguments count output w).world.foundation := by
  unfold Foundation.invokeCallback invokeCallback
  dsimp only
  by_cases nobody : owner = 0 ∨ token = 0
  · have none_given : owner = 0 ∨ token = 0 ∨ output = 0 := nobody.imp_right Or.inl
    rw [if_pos nobody, if_pos none_given, World.output_foundation]
    exact .done
  have all_given : ¬ (owner = 0 ∨ token = 0 ∨ output = 0) := by
    simpa [given, not_or] using nobody
  rw [if_neg nobody, if_neg all_given, World.output_foundation]
  cases found : w.foundation.callbacks[token]? with
  | none =>
      refine ends_bind .done ?_
      rw [found, World.output_foundation]
      exact .done
  | some callback =>
      dsimp only
      by_cases foreign : callback.provider ≠ owner ∨ (!callback.persistent) = true
      · refine ends_bind .done ?_
        rw [found]
        dsimp only
        rw [if_pos foreign, if_pos foreign, World.output_foundation]
        exact .done
      by_cases gone : (!w.foundation.callable callback.script) = true
      · obtain ⟨result, cancelled⟩ := cancelCallback_ends owner token w.foundation nobody
        refine ends_bind .done ?_
        rw [found]
        dsimp only
        rw [if_neg foreign, if_neg foreign, if_pos gone, if_pos gone]
        exact ends_bind cancelled .done
      by_cases busy : (w.foundation.managing || w.foundation.state callback.script != .running ||
          decide (callbackMaxDepth ≤ w.foundation.callbackDepth)) = true
      · refine ends_bind .done ?_
        rw [found]
        dsimp only
        rw [if_neg foreign, if_neg foreign, if_neg gone, if_neg gone, if_pos busy, if_pos busy,
          World.output_foundation]
        exact .done
      cases prepared : callbackArguments (w.output output 0).memory arguments count with
      | error text =>
          refine ends_bind .done ?_
          rw [found]
          dsimp only
          rw [if_neg foreign, if_neg foreign, if_neg gone, if_neg gone, if_neg busy, if_neg busy,
            World.output_foundation]
          exact .done
      | ok values =>
          dsimp only
          generalize invoke vm (some callback.function) values _ = invoked
          refine ends_bind .done ?_
          rw [found]
          dsimp only
          rw [if_neg foreign, if_neg foreign, if_neg gone, if_neg gone, if_neg busy, if_neg busy,
            if_neg (by simp [Except.isOk, Except.toBool])]
          -- the script runs; its natives leave the world that the run found
          refine ends_bind .done (ends_bind .done (ends_bind .done ?_))
          refine ends_bind (.enter { flag := invoked.success, cell := invoked.result.value }
            invoked.world.foundation .done) ?_
          by_cases success : invoked.success = true
          · simp only [Answer.outcome, success, Bool.not_true, Bool.false_eq_true, if_false,
              if_true, World.output_foundation, World.output_memory given, readCell_write]
            exact ends_bind .done (ends_bind .done .done)
          · obtain ⟨result, cancelled⟩ := cancelCallback_ends owner token
              invoked.world.foundation nobody
            simp only [success, Bool.not_false, if_true, Bool.false_eq_true, if_false]
            refine ends_bind cancelled (ends_bind .done (ends_bind .done (ends_bind .done ?_)))
            exact .done

/-! ### Two references to one cell -/

/-- Two references to the cell at 200. -/
def aliasedMemory : Memory :=
  let descriptor := Cell.bytes 24 ++ Cell.bytes callbackInt32Ref ++ Cell.bytes 1 ++ Cell.bytes 0 ++
    layout 8 200
  write (fun _ => 0) 100 (descriptor ++ descriptor)

def aliasedWorld : World where
  foundation :=
    { Foundation.State.boot 0 ['!'] ['/'] with
      callbacks := (∅ : Std.ExtTreeMap Token Foundation.ExtensionCallback).insert 1
        { script := 1, provider := 1, function := 1, persistent := true }
      state := fun _ => .running }
  memory := aliasedMemory

/-- The function leaves one in its first argument and two in its second. -/
def aliasedMachine : Machine where
  push := fun _ _ => .none
  execute := fun _ _ world =>
    { world, status := .none, result := 7, left := fun i _ => UInt32.ofNat (i + 1) }

def aliasedAnswer : Answer := invokeCallback aliasedMachine 1 1 100 2 300 aliasedWorld

theorem aliasedWorld_ready : Ready aliasedWorld 1 1 :=
  ⟨_, Std.ExtTreeMap.getElem?_insert_self, rfl, rfl, rfl⟩

theorem aliased_ok : aliasedAnswer.result = .ok := by decide +kernel

/-- What the first argument is left with is not what its buffer holds. -/
theorem aliased_buffer_overwritten :
    ¬ ∀ (vm : Machine) (owner : PluginHandle) (token : Token) (arguments : Address)
        (count : UInt32) (output : Address) (w : World), Ready w owner token →
      (invokeCallback vm owner token arguments count output w).result = .ok →
        ∃ run, (invokeCallback vm owner token arguments count output w).run = some run ∧
          ∀ i a, (argumentsAt (w.output output 0).memory arguments count.toNat)[i]? = some a →
            a.copiesBack = true →
              ByteMemory.read (invokeCallback vm owner token arguments count output w).world.memory
                a.pointer (4 * a.count.toNat) = contents (run.left i) a.count.toNat := by
  intro claimed
  obtain ⟨run, ran, every⟩ :=
    claimed aliasedMachine 1 1 100 2 300 aliasedWorld aliasedWorld_ready aliased_ok
  have left : run.left 0 0 = 1 := by
    have first : aliasedAnswer.run.map (fun run => run.left 0 0) = some 1 := by decide +kernel
    rw [aliasedAnswer, ran] at first
    exact Option.some.inj first
  have descriptor : (argumentsAt (aliasedWorld.output 300 0).memory 100 2)[0]? =
      some ⟨24, callbackInt32Ref, 1, 0, 200⟩ := by decide +kernel
  have held : ByteMemory.read aliasedAnswer.world.memory 200 4 = Cell.bytes 2 := by decide +kernel
  have same := held.symm.trans (every 0 _ descriptor (by decide))
  have one : contents (run.left 0) 1 = Cell.bytes 1 := by
    simp [contents, left]
  exact absurd (same.trans one) (by decide)

end Source2Root.CallbackArguments
