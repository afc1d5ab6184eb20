import Source2Root.Identity

/-!
# The voice service

`sr::Voice`: which sender a receiver hears when scripts mute players.  The
service talks to the engine through the host; what the host answers, and which
players leave or join while it answers, is a list of replies the environment
chose beforehand.  The engine's own listening values and the values requested
from outside the service are kept beside the service, so that the two can be
compared.
-/

set_option autoImplicit false

namespace Source2Root.Voice

/-- The order of `std::pair<int, int>`. -/
abbrev keyOrder : Int × Int → Int × Int → Ordering :=
  compareLex (compareOn Prod.fst) (compareOn Prod.snd)

instance : Std.TransCmp keyOrder := inferInstanceAs (Std.TransCmp (compareLex _ _))

instance : Std.LawfulEqCmp keyOrder where
  compare_self := by simp [keyOrder, compareLex, compareOn]
  eq_of_compare := by
    intro a b same
    simp only [keyOrder, compareLex, compareOn, Ordering.then_eq_eq] at same
    exact Prod.ext (Std.LawfulEqOrd.eq_of_compare same.1) (Std.LawfulEqOrd.eq_of_compare same.2)

structure Pair where
  receiver : Player
  sender : Player
  requested : Bool := false
  restoreOwner : Nat := 0
deriving DecidableEq, Repr

def Pair.same (pair other : Pair) : Bool :=
  pair.receiver.sameConnection other.receiver && pair.sender.sameConnection other.sender

def Pair.key (pair : Pair) : Int × Int := (pair.receiver.slot, pair.sender.slot)

abbrev Owners := Std.ExtTreeMap Nat (Std.ExtTreeMap Int Player)

/-- The fields of `Voice`; `parked` is `suspended_`. -/
structure Service where
  owners : Owners := ∅
  parked : Owners := ∅
  suspended : Bool := false
  pairs : Std.ExtTreeMap (Int × Int) Pair keyOrder := ∅
  writing : Bool := false

/-! ## The engine -/

/-- The players on the server and what each receiver hears.  `requested` is the
last value asked for from outside the service; `used` remembers every
connection there has been. -/
structure World where
  players : Std.ExtTreeMap Int Player := ∅
  used : List (Int × Nat) := []
  listening : Int → Int → Bool := fun _ _ => true
  requested : Int → Int → Bool := fun _ _ => true

/-- Somebody leaves a slot, or a new connection takes it and finds whatever
listening values the engine gives it. -/
inductive Move where
  | leave (slot : Int)
  | join (player : Player) (listening : Int → Int → Bool)

def World.move (w : World) : Move → World
  | .leave slot => { w with players := w.players.erase slot }
  | .join player listening =>
      if player.connection = 0 ∨ (player.slot, player.connection) ∈ w.used then w
      else
        let touches (receiver sender : Int) : Bool :=
          receiver == player.slot || sender == player.slot
        { players := w.players.insert player.slot player
          used := (player.slot, player.connection) :: w.used
          listening := fun receiver sender =>
            if touches receiver sender then listening receiver sender
            else w.listening receiver sender
          requested := fun receiver sender =>
            if touches receiver sender then listening receiver sender
            else w.requested receiver sender }

/-- A failure other than "not found", which the host answers truthfully. -/
inductive Fault where
  | invalidArgument
  | unsupported
  | busy
  | notReady
  | incompatible
  | engineFailure
deriving DecidableEq, Repr

def Fault.result : Fault → KeelResult
  | .invalidArgument => .invalidArgument
  | .unsupported => .unsupported
  | .busy => .busy
  | .notReady => .notReady
  | .incompatible => .incompatible
  | .engineFailure => .engineFailure

/-- One host call: what happens before it returns, and whether it fails. -/
structure Reply where
  moves : List Move := []
  fault : Option Fault := none

/-- A call of the host's `SetListening`, whatever comes of it. -/
structure Call where
  receiver : Player
  sender : Player
  listening : Bool
deriving DecidableEq, Repr

/-- `calls` remembers every call the service has made, the last first. -/
structure Sys where
  world : World := {}
  replies : List Reply := []
  service : Service := {}
  calls : List Call := []

abbrev M := StateM Sys

/-! ## Host calls -/

def turn : M (Option Fault) := fun s =>
  match s.replies with
  | [] => (none, s)
  | reply :: rest =>
      (reply.fault, { s with replies := rest, world := reply.moves.foldl World.move s.world })

def World.lookup (w : World) (slot : Int) : Except KeelResult Player :=
  match w.players[slot]? with
  | some player => .ok player
  | none => .error .notFound

/-- The player is still on the slot with the same connection. -/
def World.has (w : World) (player : Player) : Bool :=
  match w.players[player.slot]? with
  | some current => player.sameConnection current
  | none => false

def lookup (slot : Int) : M (Except KeelResult Player) := do
  match ← turn with
  | some fault => return .error fault.result
  | none => return (← get).world.lookup slot

def nextPlayer (after : Int) : M (Except KeelResult Player) := do
  match ← turn with
  | some fault => return .error fault.result
  | none =>
      match (← get).world.players.toList.find? (fun entry => after < entry.1) with
      | some (_, player) => return .ok player
      | none => return .error .notFound

def getListening (receiver sender : Player) : M (Except KeelResult Bool) := do
  match ← turn with
  | some fault => return .error fault.result
  | none =>
      let world := (← get).world
      if world.has receiver && world.has sender then
        return .ok (world.listening receiver.slot sender.slot)
      else return .error .notFound

def World.hear (w : World) (receiver sender : Int) (value : Bool) : World :=
  { w with listening := fun r s => if r = receiver ∧ s = sender then value else w.listening r s }

def World.request (w : World) (receiver sender : Int) (value : Bool) : World :=
  { w with requested := fun r s => if r = receiver ∧ s = sender then value else w.requested r s }

/-! ## The service -/

def current (player : Player) : M KeelResult := do
  match ← lookup player.slot with
  | .error result => return result
  | .ok found => return if player.sameConnection found then .ok else .notFound

def currentPair (pair : Pair) : M KeelResult := do
  let receiver ← current pair.receiver
  let sender ← current pair.sender
  if receiver = .notFound ∨ sender = .notFound then return .notFound
  return if receiver ≠ .ok then receiver else sender

def Service.muted (v : Service) (player : Player) : Bool :=
  v.owners.toList.any fun (_, players) =>
    match players[player.slot]? with
    | some found => found.sameConnection player
    | none => false

/-- The entry under the key, when it is for exactly these two connections. -/
def Service.found (v : Service) (key : Int × Int) (pair : Pair) : Option Pair :=
  v.pairs[key]?.filter (·.same pair)

/-- A request for two connections that are there: the value that reaches the
engine, and the request remembered when it may have to be restored. -/
def Service.observe (v : Service) (key : Int × Int) (pair : Pair) : Bool × Service :=
  let muted := v.muted pair.sender
  let pending := v.found key pair
  if !muted && pending.isNone then (pair.requested, v)
  else
    let pair := { pair with restoreOwner := (pending.map Pair.restoreOwner).getD 0 }
    (if muted then false else pair.requested, { v with pairs := v.pairs.insert key pair })

/-- The engine is about to change what the receiver hears: `listening` is the
request and, in the answer, the value that reaches the engine. -/
def filter (receiver sender : Int) (listening : Bool) : M (KeelResult × Bool) := do
  if (← get).service.writing then return (.ok, listening)
  match ← lookup receiver with
  | .error result => return (result, listening)
  | .ok hearer =>
      match ← lookup sender with
      | .error result => return (result, listening)
      | .ok speaker =>
          let (value, service) := (← get).service.observe (receiver, sender)
            { receiver := hearer, sender := speaker, requested := listening }
          modify fun s => { s with service }
          return (.ok, value)

/-- The host's write; the engine hands the service its own write before it
takes effect. -/
def setListening (receiver sender : Player) (listening : Bool) : M KeelResult := do
  modify fun s => { s with calls := { receiver, sender, listening } :: s.calls }
  match ← turn with
  | some fault => return fault.result
  | none =>
      let world := (← get).world
      if world.has receiver && world.has sender then
        let (result, value) ← filter receiver.slot sender.slot listening
        if result ≠ .ok then return .engineFailure
        modify fun s => { s with world := s.world.hear receiver.slot sender.slot value }
        return .ok
      else return .notFound

def write (pair : Pair) (listening : Bool) : M KeelResult := do
  let found ← currentPair pair
  if found ≠ .ok then return found
  let previous := (← get).service.writing
  modify fun s => { s with service.writing := true }
  let result ← setListening pair.receiver pair.sender listening
  modify fun s => { s with service.writing := previous }
  return result

/-- Whether an operation has succeeded so far, and its error text. -/
structure Outcome where
  success : Bool := true
  error : ErrorText := []
deriving DecidableEq, Repr

def Outcome.fail (out : Outcome) (operation : String) (result : KeelResult) : Outcome :=
  { success := false, error := failure out.error operation result }

def unavailable : Outcome := { success := false, error := "Player is no longer available." }

/-- The end of the loop body of `Apply`: a muted sender is not heard. -/
def restrict (sender : Player) (pair : Pair) (out : Outcome) : M Outcome := do
  if !(← get).service.muted sender then return out
  let result ← write pair false
  if result ≠ .ok ∧ result ≠ .notFound then return out.fail "Voice restriction failed" result
  return out

/-- The body of the loop over receivers in `Apply`. -/
def applyTo (sender receiver : Player) (out : Outcome) : M Outcome := do
  let pair : Pair := { receiver, sender }
  match ← currentPair pair with
  | .notFound => return out
  | .ok =>
      match (← get).service.found pair.key pair with
      | some existing => restrict sender existing out
      | none =>
          match ← getListening receiver sender with
          | .error result => return out.fail "Voice state lookup failed" result
          | .ok requested =>
              let pair := { pair with requested }
              match ← currentPair pair with
              | .notFound => return out
              | .ok =>
                  modify fun s =>
                    { s with service.pairs := s.service.pairs.insert pair.key pair }
                  restrict sender pair out
              | result => return out.fail "Voice connection lookup failed" result
  | result => return out.fail "Voice connection lookup failed" result

/-- `Apply` visits at most 128 receivers in the order of their slots. -/
def applyFrom (sender : Player) : Nat → Int → Outcome → M Outcome
  | remaining, after, out => do
      match ← nextPlayer after with
      | .error .notFound => return out
      | .error result => return out.fail "Voice receiver lookup failed" result
      | .ok receiver =>
          if receiver.slot ≤ after then
            return out.fail "Voice receiver list is invalid" .invalidArgument
          match remaining with
          | 0 => return out.fail "Voice receiver list is invalid" .invalidArgument
          | remaining + 1 => applyFrom sender remaining receiver.slot (← applyTo sender receiver out)

def apply (sender : Player) (error : ErrorText) : M Outcome :=
  applyFrom sender 128 (-1) { error }

def removed (owner : Nat) (sender : Player) : M Unit := do
  if (← get).service.muted sender then return
  modify fun s => { s with
    service.pairs := s.service.pairs.map fun _ pair =>
      if pair.sender.sameConnection sender then { pair with restoreOwner := owner } else pair }

/-- The write of `Restore`: the engine gets the remembered value. -/
def putBack (pair : Pair) : M KeelResult := do
  let found ← currentPair pair
  if found = .ok then write pair pair.requested else return found

/-- The entry goes unless another request came in meanwhile. -/
def Service.settle (v : Service) (key : Int × Int) (pair : Pair) : Service :=
  match v.found key pair with
  | some left =>
      if left.requested = pair.requested then { v with pairs := v.pairs.erase key } else v
  | none => v

/-- The body of the loop in `Restore`. -/
def restoreOne (owner : Nat) (sender : Option Player) (out : Outcome)
    (entry : (Int × Int) × Pair) : M Outcome := do
  let (key, pair) := entry
  let service := (← get).service
  if service.muted pair.sender || (owner ≠ 0 && pair.restoreOwner ≠ owner) ||
      sender.any (fun sender => !pair.sender.sameConnection sender) then return out
  if (service.found key pair).isNone then return out
  let result ← putBack pair
  if result = .ok ∨ result = .notFound then
    modify fun s => { s with service := s.service.settle key pair }
    return out
  return out.fail "Voice restoration failed; retry required" result

def restore (owner : Nat) (sender : Option Player) (error : ErrorText) : M Outcome := do
  (← get).service.pairs.toList.foldlM (restoreOne owner sender) { error }

/-- Erases a slot from an owner's players, and the owner with the last one. -/
def forget (owners : Owners) (owner : Nat) (slot : Int) : Owners :=
  owners.alter owner fun players =>
    players.bind fun players =>
      let left := players.erase slot
      if left.isEmpty then none else some left

def set (owner : Nat) (player : Player) (muted : Bool) : M Outcome := do
  match ← current player with
  | .notFound => return unavailable
  | .ok =>
      if muted then
        match ← getListening player player with
        | .error result => return ({} : Outcome).fail "Voice control is unavailable" result
        | .ok _ =>
            match ← current player with
            | .notFound => return unavailable
            | .ok =>
                modify fun s => { s with
                  service.owners := s.service.owners.alter owner fun players =>
                    some ((players.getD ∅).insert player.slot player) }
                let out ← apply player []
                if !out.success then
                  return { out with error := .text "Mute recorded; " :: out.error }
                return out
            | result => return ({} : Outcome).fail "Voice connection lookup failed" result
      else
        modify fun s => { s with service.owners := forget s.service.owners owner player.slot }
        removed owner player
        restore owner (some player) []
  | result => return ({} : Outcome).fail "Voice connection lookup failed" result

/-- `Removed` for every player of the owners that are gone. -/
def removedAll (gone : Owners) : M Unit :=
  gone.toList.forM fun (id, players) => players.toList.forM fun (_, player) => removed id player

/-- What `Release` forgets of the mutes held back by a suspension. -/
def Service.unpark (v : Service) (owner : Nat) : Service :=
  if owner ≠ 0 then { v with parked := v.parked.erase owner }
  else { v with parked := ∅, suspended := false }

def release (owner : Nat) : M Outcome := do
  modify fun s => { s with service := s.service.unpark owner }
  let s ← get
  modify fun s => { s with
    service.owners := s.service.owners.filter fun id _ => ¬ (owner = 0 ∨ id = owner) }
  removedAll (s.service.owners.filter fun id _ => owner = 0 ∨ id = owner)
  restore owner none []

/-- The body of the first loop of `Refresh`: an owner's player who has left is
forgotten, one who is there is a sender to enforce. -/
def sweep (owner : Nat) (acc : Std.ExtTreeMap Int Player × Outcome) (entry : Int × Player) :
    M (Std.ExtTreeMap Int Player × Outcome) := do
  let (senders, out) := acc
  match ← current entry.2 with
  | .notFound =>
      modify fun s => { s with service.owners := forget s.service.owners owner entry.1 }
      return acc
  | .ok => return (senders.insert entry.1 entry.2, out)
  | result => return (senders, out.fail "Voice connection lookup failed" result)

def sweepAll (owners : Owners) : M (Std.ExtTreeMap Int Player × Outcome) :=
  owners.toList.foldlM (fun acc (owner, players) => players.toList.foldlM (sweep owner) acc) (∅, {})

/-- The body of the last loop of `Refresh`. -/
def enforce (out : Outcome) (entry : Int × Player) : M Outcome := do
  let applied ← apply entry.2 out.error
  return { applied with success := out.success && applied.success }

def refresh : M Outcome := do
  let s ← get
  let (senders, swept) ← sweepAll s.service.owners
  let restored ← restore 0 none swept.error
  senders.toList.foldlM enforce { restored with success := swept.success && restored.success }

def suspend : M Outcome := do
  let s ← get
  if s.service.suspended then restore 0 none []
  else
    modify fun s => { s with service.owners := ∅ }
    let out ← restore 0 none []
    if out.success then
      modify fun t => { t with service.parked := s.service.owners, service.suspended := true }
      return out
    else
      modify fun t => { t with service.owners := s.service.owners }
      let _ ← refresh
      return out

def resume : M Outcome := do
  modify fun s =>
    if s.service.suspended then
      { s with service.owners := s.service.parked, service.parked := ∅, service.suspended := false }
    else s
  refresh

/-- The owners without the given connection of the slot. -/
def dropConnection (owners : Owners) (slot : Int) (connection : Nat) : Owners :=
  (owners.map fun _ players =>
    players.filter fun at_ player => ¬ (at_ = slot ∧ player.connection = connection)).filter
      fun _ players => !players.isEmpty

def disconnected (slot : Int) (connection : Nat) : M Unit :=
  modify fun s => { s with
    service.parked := dropConnection s.service.parked slot connection
    service.owners := dropConnection s.service.owners slot connection
    service.pairs := s.service.pairs.filter fun _ pair =>
      ¬ ((pair.receiver.slot = slot ∧ pair.receiver.connection = connection) ∨
        (pair.sender.slot = slot ∧ pair.sender.connection = connection)) }

/-! ## Runs -/

/-- What happens next on the game thread, with the host's replies in order. -/
inductive Label where
  | set (owner : Nat) (player : Player) (muted : Bool) (replies : List Reply)
  | release (owner : Nat) (replies : List Reply)
  | refresh (replies : List Reply)
  | suspend (replies : List Reply)
  | resume (replies : List Reply)
  /-- The game asks for a listening value; the players on the two slots do not
  change while the engine asks the service. -/
  | request (receiver sender : Int) (listening : Bool) (faults : List (Option Fault))
  /-- A connection is over, whether its slot has a new one already or not. -/
  | disconnected (slot : Int) (connection : Nat)
  | move (changes : List Move)

/-- The engine's `SetClientListening` called by the game. -/
def request (receiver sender : Int) (listening : Bool) : M KeelResult := do
  let (result, value) ← filter receiver sender listening
  if result = .ok then
    modify fun s => { s with
      world := (s.world.request receiver sender listening).hear receiver sender value }
  return result

/-- The connection is no longer on its slot. -/
def World.depart (w : World) (slot : Int) (connection : Nat) : World :=
  match w.players[slot]? with
  | some player => if player.connection = connection then w.move (.leave slot) else w
  | none => w

def perform : Label → M Outcome
  | .set owner player muted _ => set owner player muted
  | .release owner _ => release owner
  | .refresh _ => refresh
  | .suspend _ => suspend
  | .resume _ => resume
  | .request receiver sender listening _ => do
      let result ← request receiver sender listening
      return { success := result = .ok }
  | .disconnected slot connection => do
      modify fun s => { s with world := s.world.depart slot connection }
      disconnected slot connection
      return {}
  | .move changes => do
      modify fun s => { s with world := changes.foldl World.move s.world }
      return {}

def Label.replies : Label → List Reply
  | .set _ _ _ replies | .release _ replies | .refresh replies | .suspend replies
  | .resume replies => replies
  | .request _ _ _ faults => faults.map fun fault => { fault }
  | .disconnected _ _ | .move _ => []

def step (s : Sys) (label : Label) : Outcome × Sys :=
  perform label { s with replies := label.replies }

def next (s : Sys) (label : Label) : Option Sys := some (step s label).2

end Source2Root.Voice
