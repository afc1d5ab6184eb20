import Source2Root.Foundation.Lifecycle

/-!
# Players who leave

What the manager forgets when a connection ends or the map changes, and how it
finds out by itself.  Nothing here hands control to scripts or extensions.
-/

set_option autoImplicit false

namespace Source2Root.Foundation

open Reentrant

/-- An operation of the voice service that cannot fail. -/
def State.voiceDisconnected (s : State) (slot : Int) (generation : Nat) : State :=
  (s.runVoice (do Voice.disconnected slot generation; return {}) []).2

/-- The loops over the timers of a script that remove some of them. -/
def removeTimers (owner : Nat) (gone : Timer → Bool) : List HandleId → M Unit
  | [] => pure ()
  | id :: rest => do
      let timer ← expect .timer ((← get).timer id owner)
      if gone timer then removeHandle id owner TimerType
      removeTimers owner gone rest

/-- The timers of a script that aim at one of its player handles go. -/
def removeTimersAt (owner : Nat) (target : HandleId) : List HandleId → M Unit :=
  removeTimers owner fun timer => timer.target == target

/-- The handles of a script for a connection that is over, with their timers. -/
def forgetPlayer (owner : Nat) (slot : Int) (generation : Nat) : List HandleId → M Unit
  | [] => pure ()
  | id :: rest => do
      let player ← expect .player ((← get).player id owner)
      if player.slot = slot ∧ player.connection = generation then
        removeTimersAt owner id ((← get).handles.owned owner TimerType)
        removeHandle id owner PlayerType
      forgetPlayer owner slot generation rest

/-- The body of the loop over the scripts in `Disconnected`. -/
def forgetConnection (slot : Int) (generation : Nat) (a : Addr) : M Unit := do
  let s ← get
  match (s.gagsOf a)[slot]? with
  | some gag =>
      if gag.connection = generation then
        modify fun s =>
          { s with gagsOf := Function.update s.gagsOf a ((s.gagsOf a).erase slot) }
  | none => pure ()
  forgetPlayer (s.owner a) slot generation (s.handles.owned (s.owner a) PlayerType)

def disconnectedNative (slot : Int) (generation : Nat) : M Unit := do
  match (← get).nativeDisplays[slot]? with
  | some d =>
      if d.player.connection = generation then
        let _ ← abandonNative slot d
  | none => pure ()

def disconnectedDisplay (slot : Int) (generation : Nat) : M Unit := do
  match (← get).displays[slot]? with
  | some d => if d.player.connection = generation then retireDisplay slot d
  | none => pure ()

/-- `Disconnected`. -/
def disconnected (slot : Int) (generation : Nat) : M Unit := do
  modify (·.voiceDisconnected slot generation)
  disconnectedNative slot generation
  disconnectedDisplay slot generation
  (← get).scripts.forM (forgetConnection slot generation)

/-! ## Reconciling -/

/-- The connections asked about so far, and those that are over. -/
abbrev Observed := List (Int × Nat) × List (Int × Nat)

/-- The body of the innermost loop of `ReconcilePlayers`. -/
def observe (owner : Nat) (seen : Observed) (id : HandleId) : M Observed := do
  let expected ← expect .player ((← get).player id owner)
  let connection := (expected.slot, expected.connection)
  if seen.1.contains connection then return seen
  let r ← reply
  if r.result = .notFound ∨ (r.result = .ok ∧ !r.player.sameConnection expected) then
    return (connection :: seen.1, connection :: seen.2)
  return (connection :: seen.1, seen.2)

def observeScript (seen : Observed) (a : Addr) : M Observed := do
  let s ← get
  (s.handles.owned (s.owner a) PlayerType).foldlM (observe (s.owner a)) seen

/-- `ReconcilePlayers`; the connections that are over come in their order. -/
def reconcilePlayers : M Unit := do
  let seen ← (← get).scripts.foldlM observeScript ([], [])
  let stale := seen.2.mergeSort fun x y => x.1 < y.1 || (x.1 == y.1 && x.2 ≤ y.2)
  stale.forM fun (slot, generation) => disconnected slot generation

/-! ## A new map -/

def removeMapTimers (owner : Nat) : List HandleId → M Unit :=
  removeTimers owner fun timer => !timer.acrossMaps

/-- The body of the loop over the scripts in `MapChanged`. -/
def leaveMap (a : Addr) : M Unit := do
  let s ← get
  removeMapTimers (s.owner a) (s.handles.owned (s.owner a) TimerType)
  retireHandles (s.owner a) PlayerType
  retireHandles (s.owner a) MenuType
  modify fun s => { s with gagsOf := Function.update s.gagsOf a ∅ }

/-- The body of the loop over the menus of extensions in `MapChanged`. -/
def abandonAt (slot : Int) : M Unit := do
  match (← get).nativeDisplays[slot]? with
  | some d => let _ ← abandonNative slot d
  | none => pure ()

def mapChanged : M Unit := do
  modify fun s => (s.cancelMap 0).note .newMap
  let _ ← voiceCall (Voice.release 0)
  (← get).nativeDisplays.keys.forM abandonAt
  modify fun s => { s with displays := ∅ }
  (← get).scripts.forM leaveMap

/-! ## Handles for several players -/

/-- How many of the players the script has no handle for. -/
def missingPlayers (owner : Nat) (owned : List HandleId) : List Player → M Nat
  | [] => return 0
  | player :: rest => do
      let found ← findPlayer owner player owned
      let missing ← missingPlayers owner owned rest
      return missing + if found.isSome then 0 else 1

/-- The loop of `MakePlayerHandles`: the handles, and those among them that are
new; a failure takes the new ones back. -/
def addPlayers (a : Addr) (owned : List HandleId) : List Player → List HandleId →
    List HandleId → M (List HandleId)
  | [], _, output => return output
  | player :: rest, created, output => do
      let handle ←
        try playerHandle a player
        catch x =>
          let owner := (← get).owner a
          created.forM fun id => removeHandle id owner PlayerType
          throw x
      addPlayers a owned rest (if handle ∈ owned then created else created ++ [handle])
        (output ++ [handle])

/-- `MakePlayerHandles`; a text is the script's error when it returns false. -/
def makePlayerHandles (a : Addr) (players : List Player) (capacity : Int) :
    M (Except String (List HandleId)) := do
  if players.length > capacity % 2 ^ 64 then return .error "Player output array is too small."
  reconcilePlayers
  let s ← get
  let owned := s.handles.owned (s.owner a) PlayerType
  let missing ← missingPlayers (s.owner a) owned players
  if (s.handles.owned (s.owner a) 0).length + (s.commandsOf a).size + (s.eventsOf a).size +
      missing > 128 then return .error "Plugin resource limit (128) reached."
  return .ok (← addPlayers a owned players [] [])

end Source2Root.Foundation
