import Source2Root.Foundation.Extensions

/-!
# What the engine reports

Commands, events, ticks and buttons.
-/

set_option autoImplicit false

namespace Source2Root.Foundation

open Reentrant

/-! ## Commands -/

inductive Origin where
  | serverConsole
  | clientConsole
  | publicChat
  | silentChat
deriving DecidableEq, Repr

/-- `Gagged`. -/
def State.gagged (s : State) (player : Player) : Bool :=
  s.scripts.any fun a =>
    match (s.gagsOf a)[player.slot]? with
    | some gag => gag.sameConnection player
    | none => false

/-- Whether the quotes of a text are open at its end. -/
def openQuote : List Char → Bool → Bool → Bool
  | [], quoted, _ => quoted
  | c :: rest, quoted, escaped =>
      openQuote rest (if c == '"' && !escaped then !quoted else quoted) (c == '\\' && !escaped)

def malformed (text : List Char) : Bool :=
  1024 < text.length || text.any (fun c => control c || c == ';') || openQuote text false false

/-- The name after the trigger, up to the first blank of the text. -/
def commandName (text : List Char) (prefixLength : Nat) : List Char :=
  match text.findIdx? (· == ' ') with
  | some split =>
      if prefixLength ≤ split then (text.drop prefixLength).take (split - prefixLength)
      else text.drop prefixLength
  | none => text.drop prefixLength

/-- What follows the first blank of the text. -/
def commandArguments (text : List Char) : List Char :=
  match text.findIdx? (· == ' ') with
  | some split => text.drop (split + 1)
  | none => []

/-- The first running owner gets the command. -/
def runCommand (server : Bool) (caller : Player) (name : String) (arguments : List Char) :
    List Addr → M Unit
  | [] => pure ()
  | a :: rest => do
      let s ← get
      if s.state a ≠ .running then runCommand server caller name arguments rest
      else
        let command ← expect .command (s.commandsOf a)[name]?
        if !server && !s.permissions.allows caller command.permission then
          let _ ← host
        else
          try
            let handle ← (if server then pure 0 else playerHandle a caller : M HandleId)
            let _ ← invoke a (.command name handle arguments)
          catch _ => pure ()

/-- The host's answer to the lookup of the caller, if it is asked. -/
def lookupCaller (origin : Origin) (slot : Int) : M Reply :=
  if origin == .serverConsole || slot < 0 then pure {} else reply

/-- `Dispatch` with the answer to the lookup of the caller. -/
def dispatchFor (origin : Origin) (slot : Int) (text : List Char) (r : Reply) : M Bool := do
  let chat := origin == .publicChat || origin == .silentChat
  let server := origin == .serverConsole
  let caller := r.player
  let validCaller := if server then slot == -1 else 0 ≤ slot && r.result == .ok
  if chat && !validCaller then return true
  let s ← get
  let gagged := chat && s.gagged caller
  if text.isEmpty then return gagged
  let publicMatch := chat && !s.publicTrigger.isEmpty && s.publicTrigger.isPrefixOf text
  let silentMatch := chat && !s.silentTrigger.isEmpty && s.silentTrigger.isPrefixOf text
  if chat && !publicMatch && !silentMatch then return gagged
  let silent := silentMatch &&
    (!publicMatch || s.publicTrigger.length < s.silentTrigger.length)
  let prefixLength :=
    if chat then (if silent then s.silentTrigger.length else s.publicTrigger.length) else 0
  let word := commandName text prefixLength
  let name := String.ofList (if chat then 's' :: 'r' :: '_' :: word else word)
  if !validCaller then return gagged || silent || !chat
  reconcilePlayers
  match (← get).commands[name]? with
  | none =>
      if silent then
        let _ ← host
      return gagged || silent
  | some owners =>
      if malformed text then
        let _ ← host
        return gagged || silent || !chat
      runCommand server caller name (commandArguments text) (owners.sort (· ≤ ·))
      return gagged || silent || !chat

def dispatch (origin : Origin) (slot : Int) (text : List Char) : M Bool := do
  dispatchFor origin slot text (← lookupCaller origin slot)

/-! ## Events -/

/-- The listeners of an event when it arrives, by plugin and owner number. -/
def State.listeners (s : State) (name : String) : List (String × Nat) :=
  match s.events[name]? with
  | some owners => (owners.sort (· ≤ ·)).map fun a => ((s.manifest a).id, s.owner a)
  | none => []

/-- The body of the loop of `Event`. -/
def deliverEvent (name : String) (listener : String × Nat) : M Unit := do
  let s ← get
  let slot ← expect .listenerSlot s.slots[listener.1]?
  let a := slot.current
  if s.owner a = listener.2 ∧ s.state a = .running then
    let _ ← expect .handler (s.eventsOf a)[name]?
    let _ ← invoke a (.event name)

def event (name : String) : M Unit := do
  ((← get).listeners name).forM (deliverEvent name)

/-! ## Ticks -/

/-- `RunPendingMap`: whether the tick is used up. -/
def runPendingMap : M Bool := do
  let s ← get
  match s.pendingMap with
  | none => return false
  | some request =>
      if !s.idle then return false
      let stillAsks :=
        match s.slots[request.plugin]? with
        | some slot => s.owner slot.current == request.owner && s.state slot.current == .running
        | none => false
      if !stillAsks then
        modify (·.cancelMap 0)
        return false
      modify (·.takeMap request)
      let _ ← Code.enter
      return true

/-- The clock moves on; the time counts for the scripts that are running. -/
def State.advance (s : State) (now : Int) : State :=
  let later := max s.now now
  { s with
    now := later
    ran := fun a => if s.state a = .running then s.ran a + (later - s.now) else s.ran a
    journal := s.journal ++ [.ticked] }

/-- A timer is up and its target, if it has one, is there; `none` when a lookup
failed for the moment. -/
def timerTarget (a : Addr) (timer : Timer) : M (Option Bool) := do
  if timer.target = 0 then return some true
  match ← resolvePlayer a timer.target with
  | .ok _ => return some true
  | .error .notFound => return some false
  | .error _ => return none

/-- A timer fires: it is gone before its function is called. -/
def fireTimer (a : Addr) (id : HandleId) (timer : Timer) : M Unit := do
  modify fun s => s.note (.fired timer.serial a (s.ran a))
  removeHandle id ((← get).owner a) TimerType
  let _ ← invoke a (.timer timer.serial)

/-- The loop over the timers of one script. -/
def tickTimers (a : Addr) : List HandleId → M Unit
  | [] => pure ()
  | id :: rest => do
      let s ← get
      let owner := s.owner a
      if !s.handles.contains id owner TimerType then tickTimers a rest
      else
        let timer ← expect .timer (s.timer id owner)
        if s.now < timer.due then tickTimers a rest
        else
          match ← timerTarget a timer with
          | none => tickTimers a rest
          | some false =>
              removeHandle id owner TimerType
              tickTimers a rest
          | some true =>
              fireTimer a id timer
              if (← get).state a = .running then tickTimers a rest

/-- The body of the loop over the slots in `Tick`. -/
def tickScript (id : String) : M Unit := do
  let s ← get
  match s.slots[id]? with
  | none => pure ()
  | some slot =>
      let a := slot.current
      if s.state a = .running then tickTimers a (s.handles.owned (s.owner a) TimerType)

/-- The slots are visited by their identifiers.  A slot that joins while a timer
runs has no timer that is due. -/
def tickScripts : M Unit := do
  (← get).slots.keys.forM tickScript

/-- Once a second the voice service looks for new players. -/
def tickVoice : M Unit := do
  let s ← get
  if s.nextVoice ≤ s.now then
    modify fun s => { s with nextVoice := s.now + milliseconds 1000 }
    let _ ← voiceCall Voice.refresh

def tick (now : Int) : M Unit := do
  if !(← get).idle then return
  modify (·.advance now)
  if ← runPendingMap then return
  reconcilePlayers
  tickVoice
  tickNativeMenus
  tickScripts
  tickDisplays
  pollMenuInput

/-- `NativeResumed`. -/
def nativeResumed : M Unit := do
  reconcilePlayers
  let _ ← voiceCall Voice.resume

/-- `FilterVoice`, and the players who come and go meanwhile. -/
def filterVoice (label : Voice.Label) : M Unit :=
  modify fun s =>
    let sys := (Voice.step { world := s.world, service := s.voice } label).2
    { s with world := sys.world, voice := sys.service }

end Source2Root.Foundation
