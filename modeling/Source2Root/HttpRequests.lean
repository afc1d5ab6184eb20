import Source2Root.Http
import Source2Root.Chronicle
import Source2Root.WorkQueueProtocol

/-!
# The requests of the HTTP extension

`HTTP::Request` and the natives that create, edit, send, cancel and close one, the
worker that transfers it and the completion that delivers its callback.  The queue is
`WorkQueue` with its own steps; what the core and the network answer is in the label of
a step.  A request is named by the order of creation, a job by the order of submission.
-/

set_option autoImplicit false

namespace Source2Root.HttpRequests

open Source2Root.Http

abbrev Token := Nat

/-- `HTTP::State`. -/
inductive Phase where
  | building
  | sent
  | complete
  | canceled
deriving DecidableEq, Repr

/-- The members of `HTTP::Request`; `ticket` is the job of the ticket. -/
structure Object where
  input : Http.Request
  response : Response := {}
  ticket : Option Nat := none
  callback : Token := 0
  state : Phase := .building
  handle : Int := 0
  error : String := ""

/-- What the two functions of a job hold; `result` is the response they share, or the
exception of the work. -/
structure Job where
  request : Nat := 0
  input : Http.Request := { url := [] }
  data : Int := 0
  result : Except String Response := .ok {}

/-- What happened, for the laws of the protocol.  A token is `dropped` by the extension
and `lost` to the core. -/
inductive Happening where
  | captured (token : Token)
  | dropped (token : Token)
  | lost (token : Token)
  | sent (request job : Nat) (input : Http.Request) (data : Int) (token : Token) (handle : Int)
  | transferred (request job : Nat) (input : Http.Request)
  /-- The work has ended, with a response or an exception. -/
  | worked (request job : Nat) (result : Except String Response)
  | completed (request job : Nat) (result : Except String Response)
  | called (request : Nat) (token : Token) (handle data : Int) (error : String)
  /-- The completion found no function to call. -/
  | missed (request : Nat)
  | canceled (request : Nat)
  | closed (request : Nat)
deriving DecidableEq

structure State where
  /-- Constructed by the first `Send`; until then it has no job and is not dispatched. -/
  queue : WorkQueue.State := WorkQueue.init 2 32
  begun : Bool := false
  object : Nat → Object
  created : Nat := 0
  /-- The requests whose resource the script has, each holding one reference. -/
  owned : Finset Nat := ∅
  /-- The request that the completion under way has locked. -/
  locked : Option Nat := none
  /-- `requests_`. -/
  requests : List Nat := []
  job : Nat → Job := fun _ => {}
  /-- The tokens that the core has, and how many it gave out. -/
  live : Finset Token := ∅
  tokens : Token := 0
  journal : List Happening := []

def start : State := { object := fun _ => { input := { url := [] } } }

namespace State

variable (s : State)

def note (e : Happening) : State := { s with journal := s.journal ++ [e] }

def setObject (id : Nat) (f : Object → Object) : State :=
  { s with object := Function.update s.object id (f (s.object id)) }

/-- A reference to the request is left. -/
def alive (id : Nat) : Bool := decide (id ∈ s.owned) || s.locked == some id

/-- `Ticket::Cancel`. -/
def cancelJob (job : Nat) : State :=
  { s with queue := s.queue.setJob job fun j => { j with canceled := true } }

/-- The core lets go of a token, if it has it. -/
def endToken (token : Token) (e : Happening) : State :=
  if token ∈ s.live then { s with live := s.live.erase token, journal := s.journal ++ [e] }
  else s

/-- `CancelCallback`, of a token that the core may have no more. -/
def cancelCallback (token : Token) : State := s.endToken token (.dropped token)

/-- `ticket.reset()`. -/
def resetTicket (id : Nat) : State :=
  match (s.object id).ticket with
  | none => s
  | some job => (s.cancelJob job).setObject id fun o => { o with ticket := none }

/-- `if (callback) CancelCallback(callback)`. -/
def resetCallback (id : Nat) : State :=
  let token := (s.object id).callback
  if token = 0 then s
  else (s.setObject id fun o => { o with callback := 0 }).cancelCallback token

/-- `~Request`. -/
def destroy (id : Nat) : State := (s.resetTicket id).resetCallback id

end State

/-! ## Creation -/

def methodOf : Int → Option Method
  | 0 => some .get
  | 1 => some .head
  | 2 => some .post
  | 3 => some .put
  | 4 => some .patch
  | 5 => some .delete
  | _ => none

/-- A new input, and `Validate`. -/
def newInput (library : Library) (url : Text) (method : Int) : Except String Http.Request := do
  match methodOf method with
  | some method =>
      let input : Http.Request := { url, method }
      input.validate library
      return input
  | none =>
      let _ ← library.parse url
      throw "HTTP method or request limits are invalid."

/-- `HTTP_Create`; `own` is the handle that the core gives the resource, or its error. -/
def create (library : Library) (url : Text) (method : Int) (own : Except String Int) (s : State) :
    Except String Int × State :=
  let s := { s with requests := s.requests.filter s.alive }
  if 64 ≤ s.requests.length then (.error "HTTP provider request limit (64) reached.", s)
  else
    match newInput library url method with
    | .error error => (.error error, s)
    | .ok input =>
        let id := s.created
        let s := { s with
          created := id + 1
          object := Function.update s.object id { input }
          requests := s.requests ++ [id] }
        match own with
        | .error error => (.error error, s)
        | .ok handle =>
            (.ok handle,
              { s.setObject id fun o => { o with handle } with owned := insert id s.owned })

/-! ## Edits -/

/-- `ValidateFilename`. -/
def validateFilename (name : Text) : Except String Unit :=
  if name = [] ∨ name.length > 64 ∨ name.head? = some '.' ∨ "..".toList <:+: name ∨
      name.all (fun c => c.isAlphanum || c == '.' || c == '-' || c == '_') = false then
    .error "HTTP file name must be a simple name of at most 64 characters."
  else .ok ()

/-- The edits a script can make; `path` is where the core keeps the file of that name. -/
inductive Edit where
  | setHeader (name value : Text)
  | setBody (body : Text)
  | appendBytes (bytes : List Int)
  | form (name data : Text)
  | formFile (name filename contentType path : Text)
  | limits (timeout responseLimit redirects : Int)
  | trustFile (filename path : Text)

/-- A cell as an unsigned number. -/
def unsigned (cell : Int) : Nat := (cell % 2 ^ 32).toNat

/-- The header of that name gets the value, or it is a new one. -/
def assignHeader (headers : Headers) (name value : Text) : Headers :=
  match headers with
  | [] => [(name, value)]
  | header :: rest =>
      if header.1 = name then (header.1, value) :: rest
      else header :: assignHeader rest name value

def Edit.apply (e : Edit) (input : Http.Request) : Except String Http.Request := do
  match e with
  | .setHeader name value =>
      validateHeader (name, value)
      return { input with headers := assignHeader input.headers (lower name) value }
  | .setBody body => return { input with body }
  | .appendBytes bytes =>
      if bytes.all (fun byte => decide (0 ≤ byte ∧ byte ≤ 255)) then
        return { input with body := input.body ++ bytes.map fun byte => Char.ofNat byte.toNat }
      else throw "HTTP upload byte is outside 0..255."
  | .form name data => return { input with parts := input.parts ++ [{ name, data }] }
  | .formFile name filename contentType path =>
      validateFilename filename
      return { input with
        parts := input.parts ++ [{ name, filename, contentType, source := path }] }
  | .limits timeout responseLimit redirects =>
      return { input with
        timeout := unsigned timeout
        responseLimit := unsigned responseLimit
        redirects := unsigned redirects }
  | .trustFile filename path =>
      if filename = [] then return { input with caFile := [] }
      else
        validateFilename filename
        return { input with caFile := path }

/-- `HTTP::Edit`: a copy is edited and checked, and takes the place of the input. -/
def edit (library : Library) (id : Nat) (e : Edit) (s : State) : Except String Int × State :=
  if (s.object id).state ≠ .building then
    (.error "HTTP request is immutable after submission.", s)
  else
    let edited := do
      let input ← e.apply (s.object id).input
      input.validate library
      return input
    match edited with
    | .error error => (.error error, s)
    | .ok input => (.ok 1, s.setObject id fun o => { o with input })

/-! ## Sending, cancelling, closing -/

/-- `HTTP_Send`; `captured` is an error when the core gives no token for the callback. -/
def send (id : Nat) (data : Int) (captured : Except String Unit) (s : State) :
    Except String Int × State :=
  if (s.object id).state ≠ .building then
    (.error "HTTP request is immutable after submission.", s)
  else
    let s := { s with begun := true }
    match captured with
    | .error error => (.error error, s)
    | .ok () =>
        let token := s.tokens + 1
        let s := { s with
          tokens := token
          live := insert token s.live
          journal := s.journal ++ [Happening.captured token] }
        let job := s.queue.submitted
        match WorkQueue.submit s.queue job with
        | none => (.error "HTTP worker queue is full.", s.cancelCallback token)
        | some queue =>
            let o := s.object id
            (.ok 1, { s with
              queue
              job := Function.update s.job job { request := id, input := o.input, data }
              object := Function.update s.object id
                { o with
                  ticket := some job
                  callback := token
                  state := .sent
                  input := { url := [] } }
              journal := s.journal ++ [Happening.sent id job o.input data token o.handle] })

/-- `HTTP_Cancel`. -/
def cancel (id : Nat) (s : State) : Int × State :=
  if (s.object id).ticket = none then (0, s)
  else
    let s := (((s.note (.canceled id)).resetTicket id).resetCallback id)
    (1, s.setObject id fun o =>
      { o with state := .canceled, error := "HTTP request canceled.", response := {} })

/-- The resource of the request goes, and the request with its last reference. -/
def close (id : Nat) (s : State) : State :=
  let s := { s with owned := s.owned.erase id }.note (.closed id)
  if s.alive id then s else s.destroy id

/-! ## Reading -/

/-- `HTTP::Response`. -/
def Object.available (o : Object) : Except String Response :=
  if o.state ≠ .complete ∨ o.error ≠ "" then .error "HTTP response is not available."
  else .ok o.response

/-- `HTTP_IsDone`. -/
def Object.done (o : Object) : Bool := o.state = .complete ∨ o.state = .canceled

/-! ## The worker and the completion -/

/-- The work begins, with the input that was copied into it. -/
def work (worker job : Nat) (s : State) : Option State := do
  let queue ← WorkQueue.workStart s.queue worker job
  return { s with queue }.note (.transferred (s.job job).request job (s.job job).input)

/-- What a transfer finds: the files, its checks of the time and the cancellation, and
the answers of the servers.  No exception is without a text. -/
structure Surroundings where
  files : Files
  checks : Nat → Option String
  answers : Nat → Answer
  unread : ∀ path limit, files path limit ≠ .error ""
  unchecked : ∀ at_, checks at_ ≠ some ""
  unanswered : ∀ hop, answers hop ≠ .stopped "" ∧ answers hop ≠ .broken ""

/-- What `Perform` makes of an input. -/
def Surroundings.result (w : Surroundings) (library : Library) (input : Http.Request) :
    Except String Response :=
  (perform library w.files w.checks w.answers input).2

def threw (result : Except String Response) : Bool :=
  match result with
  | .error _ => true
  | .ok _ => false

/-- The work ends with a response or an exception. -/
def worked (library : Library) (worker job : Nat) (w : Surroundings) (s : State) :
    Option State := do
  let result := w.result library (s.job job).input
  let queue ← WorkQueue.workEnd s.queue worker job (threw result)
  return { s with queue, job := Function.update s.job job { s.job job with result } }.note
    (.worked (s.job job).request job result)

/-- The error text of a result, cut. -/
def errorOf : Except String Response → String
  | .error error => String.ofList (error.toList.take 1024)
  | .ok _ => ""

/-- What the core makes of a delivery: the function runs, or it is put off, or the token
is gone and stays so. -/
inductive Reply where
  | runs
  | busy
  | notFound
deriving DecidableEq, Repr

def Object.settle (o : Object) (result : Except String Response) : Object :=
  match result with
  | .error _ => { o with error := errorOf result, state := .complete }
  | .ok response => { o with response, state := .complete }

/-- A sent request becomes complete. -/
def settle (id job : Nat) (result : Except String Response) (s : State) : State :=
  if (s.object id).state = .sent then
    (s.setObject id (·.settle result)).note (.completed id job result)
  else s

/-- What the completion makes of `DeliverCallback`, up to the call of the script's
function. -/
def deliver (id job : Nat) (reply : Reply) (s : State) : Option State := do
  let o := s.object id
  match reply with
  | .busy =>
      if o.callback ∈ s.live then
        return { s with queue := ← WorkQueue.answer s.queue job .retained }
      else none
  | .notFound =>
      let s := (s.endToken o.callback (.lost o.callback)).note (.missed id)
      let s := s.setObject id fun o => { o with ticket := none, callback := 0 }
      return { s with queue := ← WorkQueue.answer s.queue job .consumed }.cancelJob job
  | .runs =>
      if o.callback ∈ s.live then
        let s := s.setObject id fun o => { o with ticket := none, callback := 0 }
        return { s with locked := some id, live := s.live.erase o.callback }.note
          (.called id o.callback o.handle (s.job job).data o.error)
      else none

/-- The completion of a job; an answer without a call ends it. -/
def complete (job : Nat) (reply : Reply) (s : State) : Option State := do
  let queue ← WorkQueue.call s.queue job
  let s := { s with queue }
  let id := (s.job job).request
  if s.alive id then deliver id job reply (settle id job (s.job job).result s)
  else return { s with queue := ← WorkQueue.answer s.queue job .consumed }

/-- The function of the script has returned; the completion lets go of the request. -/
def returned (job : Nat) (s : State) : Option State := do
  let id ← s.locked
  let queue ← WorkQueue.answer s.queue job .consumed
  let s := { s with queue, locked := none }.cancelJob job
  return if s.alive id then s else s.destroy id

/-! ## The protocol -/

/-- The steps of the queue that no function of a job is part of. -/
def plain : WorkQueue.Label → Bool
  | .take .. | .workSkip .. | .publish .. | .dispatch _ | .pop _ | .skip _ | .release _
  | .retain _ | .erase _ | .done => true
  | _ => false

inductive Label where
  | create (url : Text) (method : Int) (own : Except String Int)
  | edit (request : Nat) (e : Edit)
  | send (request : Nat) (data : Int) (captured : Except String Unit)
  | cancel (request : Nat)
  | close (request : Nat)
  /-- The core cancels a token, as it does when the script goes. -/
  | lose (token : Token)
  | queue (label : WorkQueue.Label)
  | work (worker job : Nat)
  | worked (worker job : Nat) (w : Surroundings)
  | complete (job : Nat) (reply : Reply)
  | returned (job : Nat)

/-- A script can name a request while it has the resource. -/
def State.usable (s : State) (id : Nat) : Bool := s.queue.owner.free && decide (id ∈ s.owned)

def next (library : Library) (s : State) : Label → Option State
  | .create url method own =>
      if s.queue.owner.free then some (create library url method own s).2 else none
  | .edit id e => if s.usable id then some (edit library id e s).2 else none
  | .send id data captured => if s.usable id then some (send id data captured s).2 else none
  | .cancel id => if s.usable id then some (cancel id s).2 else none
  | .close id => if s.usable id then some (close id s) else none
  | .lose token =>
      if s.queue.owner.free then some (s.endToken token (.lost token)) else none
  | .queue label =>
      if plain label && s.begun then
        (WorkQueue.next s.queue label).map fun queue => { s with queue }
      else none
  | .work worker job => work worker job s
  | .worked worker job w => worked library worker job w s
  | .complete job reply => complete job reply s
  | .returned job => returned job s

end Source2Root.HttpRequests
