import Source2Root.Json

/-!
# The transfers of an HTTP request

`Client::Perform`: a request, the files it uploads, and one transfer for each
hop of a chain of redirects.  What `libcurl` makes of an address is a
parameter, and so is what a transfer comes to: an error, or an answer of the
server with the address its `Location` leads to.
-/

set_option autoImplicit false

namespace Source2Root.Http

def bodyLimit : Nat := 1024 * 1024

inductive Method where
  | get
  | head
  | post
  | put
  | patch
  | delete
deriving DecidableEq, Repr

structure Part where
  name : Text
  data : Text := []
  filename : Text := []
  contentType : Text := []
  source : Text := []
deriving DecidableEq, Repr

abbrev Headers := List (Text × Text)

structure Request where
  url : Text
  method : Method := .get
  headers : Headers := []
  body : Text := []
  parts : List Part := []
  caFile : Text := []
  timeout : Nat := 10000
  responseLimit : Nat := 256 * 1024
  redirects : Nat := 3
deriving DecidableEq, Repr

structure Response where
  status : Nat := 0
  url : Text := []
  body : Text := []
  headers : Headers := []
deriving DecidableEq, Repr

/-! ## Texts -/

def lowerChar (c : Char) : Char :=
  if 'A' ≤ c ∧ c ≤ 'Z' then Char.ofNat (c.toNat + 32) else c

def lower (text : Text) : Text := text.map lowerChar

/-- A control byte; a tab is none where it may stand. -/
def controls (tab : Bool) (text : Text) : Bool :=
  text.any fun c => (c.toNat < 32 && !(tab && c == '\t')) || c.toNat == 127

def isToken (text : Text) : Bool :=
  text ≠ [] && text.all fun c =>
    c.isAlphanum || "!#$%&'*+-.^_`|~".toList.contains c

/-! ## Addresses -/

/-- What `curl_url_get` finds in an address; a part that is not there is empty. -/
structure Url where
  scheme : Text
  host : Text
  zone : Text
  port : Text
  url : Text
deriving DecidableEq, Repr

/-- `curl_url_set` with `CURLU_DISALLOW_USER`, then the parts without fragment. -/
structure Library where
  url : Text → Option Url

structure Address where
  normalized : Text
  origin : Text
  scheme : Text
deriving DecidableEq, Repr

def Library.parse (library : Library) (text : Text) : Except String Address :=
  if text = [] ∨ text.length > 4095 ∨ controls false text = true ∨ ' ' ∈ text then
    .error "HTTP URL is invalid or too long."
  else
    match library.url text with
    | none => .error "HTTP URL must be absolute and must not contain user credentials."
    | some url =>
        let scheme := lower url.scheme
        let host := lower url.host
        if (scheme ≠ "http".toList ∧ scheme ≠ "https".toList) ∨ host = [] ∨ url.zone ≠ [] then
          .error "Only HTTP/HTTPS URLs without IPv6 zone identifiers are supported."
        else if url.url = [] ∨ url.url.length > 4095 then
          .error "Normalized HTTP URL exceeds its limit."
        else
          .ok { normalized := url.url
                origin := scheme ++ "://".toList ++ host ++ ":".toList ++ url.port
                scheme }

/-! ## What a request may be -/

def framing : List String :=
  ["host", "content-length", "transfer-encoding", "connection", "expect", "trailer", "upgrade",
    "te"]

def validateHeader (header : Text × Text) : Except String Unit :=
  let (name, value) := header
  if name.length > 128 ∨ isToken name = false ∨ value.length > 4095 ∨ controls true value = true then
    .error "HTTP request header is invalid."
  else if String.ofList (lower name) ∈ framing then
    .error "HTTP framing headers are managed by the transfer service."
  else if "proxy-".toList.isPrefixOf (lower name) then
    .error "HTTP proxy headers are not supported."
  else .ok ()

/-- The check of one part, after so many bytes of input; the bytes with it. -/
def validatePart (bytes : Nat) (part : Part) : Except String Nat :=
  if part.name = [] ∨ part.name.length > 128 ∨ controls false part.name = true ∨ '"' ∈ part.name ∨
      part.filename.length > 128 ∨ controls false part.filename = true ∨ part.contentType.length > 128 ∨
      controls false part.contentType = true then
    .error "HTTP multipart field metadata is invalid."
  else if part.source ≠ [] ∧ (part.data ≠ [] ∨ part.filename = []) then
    .error "HTTP file part requires a filename and no inline data."
  else if part.data.length > bodyLimit - bytes then .error "HTTP upload data exceeds 1MiB."
  else .ok (bytes + part.data.length)

/-- `Request::Validate`. -/
def Request.validate (library : Library) (request : Request) : Except String Unit := do
  let _ ← library.parse request.url
  if request.timeout < 100 ∨ request.timeout > 60000 ∨ request.responseLimit = 0 ∨
      request.responseLimit > bodyLimit ∨ request.redirects > 5 then
    .error "HTTP method or request limits are invalid."
  else if request.headers.length > 32 ∨ request.parts.length > 32 ∨
      request.body.length > bodyLimit then
    .error "HTTP request exceeds its size or item limits."
  else if (request.body ≠ [] ∨ request.parts ≠ []) ∧
      (request.method = .get ∨ request.method = .head) then
    .error "HTTP GET/HEAD requests cannot carry a body."
  else if request.parts ≠ [] ∧ (request.body ≠ [] ∨ request.method ≠ .post) then
    .error "HTTP multipart forms require POST without a raw body."
  else
    request.headers.forM validateHeader
    if (request.headers.map fun (name, value) => name.length + value.length + 4).sum > 16384 then
      .error "HTTP request headers exceed 16KiB."
    else
      let _ ← request.parts.foldlM validatePart request.body.length
      .ok ()

/-! ## What a transfer sends -/

inductive Payload where
  | nothing
  | form (parts : List Part)
  | body (bytes : Text)
deriving DecidableEq, Repr

/-- What the client library is told to send, apart from what it adds itself. -/
structure Sent where
  address : Address
  method : Method
  headers : Headers
  payload : Payload
deriving DecidableEq, Repr

def Request.payload (request : Request) : Payload :=
  if request.parts ≠ [] then .form request.parts
  else if request.method ≠ .get ∧ request.method ≠ .head then .body request.body
  else .nothing

def Request.sent (request : Request) (address : Address) : Sent :=
  { address, method := request.method, headers := request.headers, payload := request.payload }

/-! ## The chain -/

/-- What the server and the network make of a hop.  It may be stopped before the
transfer begins, or break while it goes on. -/
inductive Answer where
  | stopped (error : String)
  | broken (error : String)
  | answered (status : Nat) (body : Text) (headers : Headers) (location : Option Text)

def isRedirect (status : Nat) : Bool :=
  status == 301 || status == 302 || status == 303 || status == 307 || status == 308

/-- A redirect that turns the request into a GET. -/
def Request.rewritten (request : Request) (status : Nat) : Request :=
  if (status = 303 ∧ request.method ≠ .head) ∨
      ((status = 301 ∨ status = 302) ∧ request.method = .post) then
    { request with
      method := .get
      body := []
      parts := []
      headers := request.headers.filter fun header =>
        !"content-".toList.isPrefixOf (lower header.1) }
  else request

/-- What `Perform` does with a response: it is the result, or the request goes
on to another address. -/
def Request.redirected (library : Library) (request : Request) (address : Address) (hop : Nat)
    (response : Response) (location : Option Text) :
    Except String (Response ⊕ Request × Address) := do
  if isRedirect response.status = false ∨ request.redirects = 0 then return .inl response
  match location with
  | none => return .inl response
  | some location =>
      if hop ≥ request.redirects then throw "HTTP redirect limit reached."
      let next ← library.parse location
      if address.scheme = "https".toList ∧ next.scheme ≠ "https".toList then
        throw "HTTP redirect cannot downgrade HTTPS."
      let request := request.rewritten response.status
      if next.origin ≠ address.origin then
        if request.method ≠ .get ∧ request.method ≠ .head then
          throw "HTTP upload redirects must remain on the same origin."
        return .inr ({ request with headers := [] }, next)
      return .inr (request, next)

theorem Request.rewritten_redirects (request : Request) (status : Nat) :
    (request.rewritten status).redirects = request.redirects := by
  unfold Request.rewritten
  split <;> rfl

/-- All that a further hop tells about the redirect. -/
structure Follows (request : Request) (address : Address) (hop status : Nat) (request' : Request)
    (address' : Address) : Prop where
  allowed : hop < request.redirects
  secure : address.scheme = "https".toList → address'.scheme = "https".toList
  same : address'.origin = address.origin → request' = request.rewritten status
  other : address'.origin ≠ address.origin →
    ((request.rewritten status).method = .get ∨ (request.rewritten status).method = .head) ∧
      request' = { request.rewritten status with headers := [] }

theorem Request.redirected_follows {library : Library} {request request' : Request}
    {address address' : Address} {hop : Nat} {response : Response} {location : Option Text}
    (on : request.redirected library address hop response location =
      .ok (.inr (request', address'))) :
    Follows request address hop response.status request' address' := by
  unfold Request.redirected at on
  split at on
  · cases on
  · cases location with
    | none => cases on
    | some location =>
        by_cases limit : hop ≥ request.redirects
        · simp only [if_pos limit] at on
          cases on
        simp only [if_neg limit] at on
        obtain ⟨next, parsed, on⟩ := bind_eq_ok.mp on
        by_cases downgrade : address.scheme = "https".toList ∧ next.scheme ≠ "https".toList
        · simp only [if_pos downgrade] at on
          cases on
        simp only [if_neg downgrade] at on
        have secure : address.scheme = "https".toList → next.scheme = "https".toList := by
          intro before
          by_contra after
          exact downgrade ⟨before, after⟩
        by_cases other : next.origin ≠ address.origin
        · simp only [if_pos other] at on
          by_cases upload : (request.rewritten response.status).method ≠ .get ∧
              (request.rewritten response.status).method ≠ .head
          · simp only [if_pos upload] at on
            cases on
          · simp only [if_neg upload] at on
            cases on
            refine ⟨by omega, secure, fun same => absurd same other, fun _ => ⟨?_, rfl⟩⟩
            tauto
        · simp only [if_neg other] at on
          cases on
          exact ⟨by omega, secure, fun _ => rfl, fun away => absurd away other⟩

theorem Follows.redirects {request request' : Request} {address address' : Address}
    {hop status : Nat} (follows : Follows request address hop status request' address') :
    request'.redirects = request.redirects := by
  by_cases same : address'.origin = address.origin
  · rw [follows.same same, Request.rewritten_redirects]
  · rw [(follows.other same).2]
    exact Request.rewritten_redirects request status

/-- The loop of `Perform` from a hop on: what is sent, and how it ends. -/
def hops (library : Library) (answers : Nat → Answer) (request : Request) (address : Address)
    (hop : Nat) : List Sent × Except String Response :=
  match answers hop with
  | .stopped error => ([], .error error)
  | .broken error => ([request.sent address], .error error)
  | .answered status body headers location =>
      let response : Response := { status, url := address.normalized, body, headers }
      match _on : request.redirected library address hop response location with
      | .error error => ([request.sent address], .error error)
      | .ok (.inl response) => ([request.sent address], .ok response)
      | .ok (.inr (request', address')) =>
          let (sent, result) := hops library answers request' address' (hop + 1)
          (request.sent address :: sent, result)
termination_by request.redirects - hop
decreasing_by
  have follows := Request.redirected_follows _on
  have allowed := follows.allowed
  have redirects := follows.redirects
  omega

/-- The files a request names: what reading one of at most so many bytes gives. -/
abbrev Files := Text → Nat → Except String Text

/-- The uploads are read before the first hop; `checks` tells whether a check of
the deadline and of the cancellation fails. -/
def uploads (files : Files) (checks : Nat → Option String) :
    List Part → Nat → Nat → Except String (List Part)
  | [], _, _ => .ok []
  | part :: parts, at_, bytes => do
      match checks at_ with
      | some error => throw error
      | none =>
          let part ← if part.source ≠ [] then do
              let data ← files part.source (bodyLimit - bytes)
              pure { part with data, source := [] }
            else pure part
          if part.data.length > bodyLimit - bytes then throw "HTTP upload data exceeds 1MiB."
          return part :: (← uploads files checks parts (at_ + 1) (bytes + part.data.length))

/-- The certificates to trust besides the usual ones. -/
def trust (files : Files) (caFile : Text) : Except String Text :=
  if caFile = [] then .ok []
  else do
    let certificates ← files caFile bodyLimit
    if certificates = [] then throw "HTTP trust file is empty."
    return certificates

/-- `Perform` up to the first hop: the request with its uploads, and its address. -/
def Request.opened (library : Library) (files : Files) (checks : Nat → Option String)
    (request : Request) : Except String (Request × Address) := do
  request.validate library
  match checks 0 with
  | some error => throw error
  | none =>
      let parts ← uploads files checks request.parts 1 request.body.length
      let _ ← trust files request.caFile
      let address ← library.parse request.url
      return ({ request with parts }, address)

/-- `Perform`: what is sent, and the response or the error. -/
def perform (library : Library) (files : Files) (checks : Nat → Option String)
    (answers : Nat → Answer) (request : Request) : List Sent × Except String Response :=
  match request.opened library files checks with
  | .error error => ([], .error error)
  | .ok (request, address) => hops library answers request address 0

end Source2Root.Http
