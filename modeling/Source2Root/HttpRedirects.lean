import Source2Root.Http

/-!
# What a chain of redirects may carry

However the server answers, the request's own headers stay with the origin they
were meant for, nothing is uploaded elsewhere, and the chain ends.
-/

set_option autoImplicit false

namespace Source2Root.Http

/-- What the loop keeps of a request that began at an origin with some headers. -/
structure Kept (origin : Text) (own : Headers) (request : Request) (address : Address) : Prop where
  own : request.headers ⊆ own
  home : request.headers ≠ [] → address.origin = origin
  bodiless : request.method = .get ∨ request.method = .head → request.body = [] ∧ request.parts = []
  away : address.origin ≠ origin → request.method = .get ∨ request.method = .head

theorem Request.rewritten_headers (request : Request) (status : Nat) :
    (request.rewritten status).headers ⊆ request.headers := by
  unfold Request.rewritten
  split
  · exact List.filter_subset_self _
  · exact List.Subset.refl _

theorem Request.rewritten_bodiless {request : Request} {status : Nat}
    (bodiless : request.method = .get ∨ request.method = .head →
      request.body = [] ∧ request.parts = [])
    (light : (request.rewritten status).method = .get ∨ (request.rewritten status).method = .head) :
    (request.rewritten status).body = [] ∧ (request.rewritten status).parts = [] := by
  unfold Request.rewritten at light ⊢
  split at light
  · rename_i rewrites
    rw [if_pos rewrites]
    exact ⟨rfl, rfl⟩
  · rename_i stays
    rw [if_neg stays]
    exact bodiless light

theorem Request.rewritten_light {request : Request} {status : Nat}
    (light : request.method = .get ∨ request.method = .head) :
    (request.rewritten status).method = .get ∨ (request.rewritten status).method = .head := by
  unfold Request.rewritten
  split
  · exact .inl rfl
  · exact light

theorem Follows.headers {request request' : Request} {address address' : Address}
    {hop status : Nat} (follows : Follows request address hop status request' address') :
    request'.headers ⊆ request.headers := by
  by_cases same : address'.origin = address.origin
  · rw [follows.same same]
    exact Request.rewritten_headers request status
  · rw [(follows.other same).2]
    exact List.nil_subset _

/-- A hop further, the same is kept. -/
theorem Kept.follows {origin : Text} {own : Headers} {request request' : Request}
    {address address' : Address} {hop status : Nat} (kept : Kept origin own request address)
    (follows : Follows request address hop status request' address') :
    Kept origin own request' address' := by
  have headers := Request.rewritten_headers request status
  by_cases same : address'.origin = address.origin
  · have rewritten := follows.same same
    subst rewritten
    refine ⟨List.Subset.trans headers kept.own, ?_, Request.rewritten_bodiless kept.bodiless, ?_⟩
    · intro some_
      rw [same]
      apply kept.home
      intro none_
      rw [none_] at headers
      exact some_ (List.subset_nil.mp headers)
    · intro away
      exact Request.rewritten_light (kept.away (same ▸ away))
  · obtain ⟨light, rewritten⟩ := follows.other same
    subst rewritten
    exact ⟨List.nil_subset _, fun some_ => absurd rfl some_,
      fun _ => Request.rewritten_bodiless kept.bodiless light, fun _ => light⟩

theorem Kept.payload {origin : Text} {own : Headers} {request : Request} {address : Address}
    (kept : Kept origin own request address) (away : address.origin ≠ origin) :
    request.payload = .nothing := by
  have light := kept.away away
  obtain ⟨-, parts⟩ := kept.bodiless light
  unfold Request.payload
  rw [if_neg (by simp [parts]), if_neg (by tauto)]

/-- What holds of the transfers of a chain. -/
structure Safe (origin : Text) (own : Headers) (sent : List Sent) : Prop where
  own : ∀ t ∈ sent, t.headers ⊆ own
  home : ∀ (i : Nat) (t : Sent), sent[i]? = some t → t.headers ≠ [] →
    ∀ (j : Nat) (u : Sent), j ≤ i → sent[j]? = some u → u.address.origin = origin
  secure : ∀ (i : Nat) (t u : Sent), sent[i]? = some t → sent[i + 1]? = some u →
    t.address.scheme = "https".toList → u.address.scheme = "https".toList
  away : ∀ t ∈ sent, t.address.origin ≠ origin →
    (t.method = .get ∨ t.method = .head) ∧ t.payload = .nothing

theorem Safe.single {origin : Text} {own : Headers} {request : Request} {address : Address}
    (kept : Kept origin own request address) : Safe origin own [request.sent address] where
  own := by
    intro t member
    rw [List.mem_singleton.mp member]
    exact kept.own
  home := by
    intro i t at_ some_ j u _ at'
    obtain ⟨rfl, rfl⟩ : i = 0 ∧ t = request.sent address := by
      cases i with
      | zero => exact ⟨rfl, (Option.some.inj at_).symm⟩
      | succ i => cases at_
    obtain rfl : u = request.sent address := by
      cases j with
      | zero => exact (Option.some.inj at').symm
      | succ j => cases at'
    exact kept.home some_
  secure := by
    intro i t u _ at'
    cases at'
  away := by
    intro t member away
    rw [List.mem_singleton.mp member] at away ⊢
    exact ⟨kept.away away, kept.payload away⟩

/-- A transfer before others that only carry some of its headers. -/
theorem Safe.cons {origin : Text} {own : Headers} {request : Request} {address : Address}
    {sent : List Sent} (kept : Kept origin own request address) (safe : Safe origin own sent)
    (fewer : ∀ t ∈ sent, t.headers ⊆ request.headers)
    (secure : ∀ t, sent[0]? = some t → address.scheme = "https".toList →
      t.address.scheme = "https".toList) :
    Safe origin own (request.sent address :: sent) where
  own := by
    intro t member
    rcases List.mem_cons.mp member with rfl | later
    · exact kept.own
    · exact safe.own t later
  home := by
    intro i t at_ some_ j u before at'
    have first : t.headers ≠ [] → address.origin = origin := by
      intro _
      apply kept.home
      intro none_
      cases i with
      | zero =>
          cases Option.some.inj at_
          exact some_ none_
      | succ i =>
          have member : t ∈ sent := List.mem_of_getElem? (i := i) at_
          have subset := fewer t member
          rw [none_] at subset
          exact some_ (List.subset_nil.mp subset)
    cases j with
    | zero =>
        cases Option.some.inj at'
        exact first some_
    | succ j =>
        cases i with
        | zero => omega
        | succ i => exact safe.home i t at_ some_ j u (by omega) at'
  secure := by
    intro i t u at_ at' https
    cases i with
    | zero =>
        cases Option.some.inj at_
        exact secure u at' https
    | succ i => exact safe.secure i t u at_ at' https
  away := by
    intro t member away
    rcases List.mem_cons.mp member with rfl | later
    · exact ⟨kept.away away, kept.payload away⟩
    · exact safe.away t later away

theorem Safe.nil (origin : Text) (own : Headers) : Safe origin own [] where
  own := by simp
  home := by simp
  secure := by simp
  away := by simp

/-- A round that goes on to another address. -/
theorem hops_next {library : Library} {answers : Nat → Answer} {request request' : Request}
    {address address' : Address} {hop status : Nat} {body : Text} {headers : Headers}
    {location : Option Text} (answered : answers hop = .answered status body headers location)
    (follows : request.redirected library address hop
      { status, url := address.normalized, body, headers } location =
        .ok (.inr (request', address'))) :
    (hops library answers request address hop).1 =
      request.sent address :: (hops library answers request' address' (hop + 1)).1 := by
  rw [hops, answered]
  dsimp only
  split
  · rename_i stays
    cases stays.symm.trans follows
  · rename_i stays
    cases stays.symm.trans follows
  · rename_i goes
    cases goes.symm.trans follows
    rfl

/-- One round of the loop: nothing is sent, one transfer is, or others follow it. -/
theorem hops_cases (library : Library) (answers : Nat → Answer) (request : Request)
    (address : Address) (hop : Nat) :
    (hops library answers request address hop).1 = [] ∨
      (hops library answers request address hop).1 = [request.sent address] ∨
      ∃ request' address' status, Follows request address hop status request' address' ∧
        (hops library answers request address hop).1 =
          request.sent address :: (hops library answers request' address' (hop + 1)).1 := by
  rw [hops]
  cases answers hop with
  | stopped error => exact .inl rfl
  | broken error => exact .inr (.inl rfl)
  | answered status body headers location =>
      simp only
      split
      · exact .inr (.inl rfl)
      · exact .inr (.inl rfl)
      · rename_i request' address' on
        exact .inr (.inr ⟨request', address', _, Request.redirected_follows on, rfl⟩)

/-- What the loop sends from a hop on. -/
theorem hops_safe {library : Library} {answers : Nat → Answer} {origin : Text} {own : Headers}
    (request : Request) (address : Address) (hop : Nat) :
    hop ≤ request.redirects → Kept origin own request address →
      Safe origin own (hops library answers request address hop).1 ∧
        (∀ t ∈ (hops library answers request address hop).1, t.headers ⊆ request.headers) ∧
        (∀ t, (hops library answers request address hop).1[0]? = some t →
          t = request.sent address) ∧
        (hops library answers request address hop).1.length + hop ≤ request.redirects + 1 := by
  -- the induction is on the hops that are left
  induction left : request.redirects - hop using Nat.strong_induction_on
    generalizing request address hop with
  | _ n ih =>
      intro early kept
      rcases hops_cases library answers request address hop with
        nothing | alone | ⟨request', address', status, follows, sent⟩
      · rw [nothing]
        exact ⟨Safe.nil origin own, by simp, by simp, by simp; omega⟩
      · rw [alone]
        refine ⟨Safe.single kept, ?_, ?_, by simp; omega⟩
        · intro t member
          rw [List.mem_singleton.mp member]
          exact List.Subset.refl _
        · intro t first
          exact (Option.some.inj first).symm
      · have allowed := follows.allowed
        have redirects := follows.redirects
        obtain ⟨safe, fewer, first, short⟩ :=
          ih (request'.redirects - (hop + 1)) (by omega) request' address' (hop + 1) rfl
            (by omega) (kept.follows follows)
        have fewer' := fun t member => List.Subset.trans (fewer t member) follows.headers
        rw [sent]
        refine ⟨Safe.cons kept safe fewer' ?_, ?_, ?_, ?_⟩
        · intro t next https
          rw [first t next]
          exact follows.secure https
        · intro t member
          rcases List.mem_cons.mp member with rfl | later
          · exact List.Subset.refl _
          · exact fewer' t later
        · intro t next
          exact (Option.some.inj next).symm
        · simp only [List.length_cons]
          omega

/-! ## Before the first hop -/

theorem uploads_nil {files : Files} {checks : Nat → Option String} {parts read : List Part}
    {at_ bytes : Nat} (done : uploads files checks parts at_ bytes = .ok read)
    (nothing : parts = []) : read = [] := by
  subst nothing
  exact (Except.ok.inj done).symm

theorem validate_bodiless {library : Library} {request : Request}
    (valid : request.validate library = .ok ())
    (light : request.method = .get ∨ request.method = .head) :
    request.body = [] ∧ request.parts = [] := by
  unfold Request.validate at valid
  obtain ⟨_, -, valid⟩ := bind_eq_ok.mp valid
  split at valid
  · cases valid
  · split at valid
    · cases valid
    · split at valid
      · cases valid
      · tauto

/-- What the loop begins with is kept from the check of the request. -/
theorem opened_kept {library : Library} {files : Files} {checks : Nat → Option String}
    {request opened : Request} {address : Address}
    (open_ : request.opened library files checks = .ok (opened, address)) :
    library.parse request.url = .ok address ∧ opened.redirects = request.redirects ∧
      Kept address.origin request.headers opened address := by
  unfold Request.opened at open_
  obtain ⟨_, valid, open_⟩ := bind_eq_ok.mp open_
  cases check : checks 0 with
  | some error =>
      rw [check] at open_
      cases open_
  | none =>
      simp only [check] at open_
      obtain ⟨parts, read, open_⟩ := bind_eq_ok.mp open_
      obtain ⟨_, -, open_⟩ := bind_eq_ok.mp open_
      obtain ⟨found, parsed, open_⟩ := bind_eq_ok.mp open_
      cases open_
      refine ⟨parsed, rfl, List.Subset.refl _, fun _ => rfl, ?_, fun away => absurd rfl away⟩
      intro light
      obtain ⟨body, nothing⟩ := validate_bodiless valid light
      exact ⟨body, uploads_nil read nothing⟩

/-- However the server answers: the request's own headers go out only while every
transfer so far went to the origin of the request, no transfer follows one over
`https` without it, nothing but a GET or HEAD without content leaves the origin,
and there are at most as many transfers as redirects and one. -/
theorem redirects_safe (library : Library) (files : Files) (checks : Nat → Option String)
    (answers : Nat → Answer) (request : Request) :
    (perform library files checks answers request).1.length ≤ request.redirects + 1 ∧
      ∀ first, (perform library files checks answers request).1[0]? = some first →
        library.parse request.url = .ok first.address ∧
          Safe first.address.origin request.headers
            (perform library files checks answers request).1 := by
  unfold perform
  cases opens : request.opened library files checks with
  | error error => exact ⟨Nat.zero_le _, fun first nothing => nomatch nothing⟩
  | ok result =>
      obtain ⟨opened, address⟩ := result
      obtain ⟨parsed, redirects, kept⟩ := opened_kept opens
      obtain ⟨safe, -, begins, short⟩ :=
        @hops_safe library answers _ _ opened address 0 (Nat.zero_le _) kept
      show (hops library answers opened address 0).1.length ≤ request.redirects + 1 ∧ _
      refine ⟨by omega, ?_⟩
      intro first at_
      rw [begins first at_]
      exact ⟨parsed, safe⟩

/-- A client that takes the scheme, the host and the rest of an address apart. -/
def plainLibrary : Library where
  url := fun text =>
    if "http://a/".toList.isPrefixOf text then
      some { scheme := "http".toList, host := ['a'], zone := [], port := "80".toList, url := text }
    else if "http://b/".toList.isPrefixOf text then
      some { scheme := "http".toList, host := ['b'], zone := [], port := "80".toList, url := text }
    else none

def wandering : Request := { url := "http://a/".toList, headers := [(['k'], ['v'])] }

def wanderingAnswers : Nat → Answer
  | 0 => .answered 302 [] [] (some "http://b/".toList)
  | 1 => .answered 302 [] [] (some "http://a/2".toList)
  | _ => .answered 200 [] [] none

def wanderingHome : Address where
  normalized := "http://a/".toList
  origin := "http://a:80".toList
  scheme := "http".toList

def wanderingAway : Address where
  normalized := "http://b/".toList
  origin := "http://b:80".toList
  scheme := "http".toList

def wanderingBack : Address := { wanderingHome with normalized := "http://a/2".toList }

set_option maxRecDepth 100000 in
theorem wandering_opened :
    wandering.opened plainLibrary (fun _ _ => .ok []) (fun _ => none) =
      .ok (wandering, wanderingHome) := by
  rfl

def wanderingRun : List Sent × Except String Response :=
  perform plainLibrary (fun _ _ => .ok []) (fun _ => none) wanderingAnswers wandering

/-- The header is not sent elsewhere, and not when the chain is back. -/
theorem wanderingRun_sent : wanderingRun.1 = [wandering.sent wanderingHome,
    { wandering with headers := [] }.sent wanderingAway,
    { wandering with headers := [] }.sent wanderingBack] := by
  have away : wandering.redirected plainLibrary wanderingHome 0
      { status := 302, url := wanderingHome.normalized, body := [], headers := [] }
      (some "http://b/".toList) = .ok (.inr ({ wandering with headers := [] }, wanderingAway)) :=
    rfl
  have back : { wandering with headers := [] }.redirected plainLibrary wanderingAway 1
      { status := 302, url := wanderingAway.normalized, body := [], headers := [] }
      (some "http://a/2".toList) = .ok (.inr ({ wandering with headers := [] }, wanderingBack)) :=
    rfl
  unfold wanderingRun perform
  rw [wandering_opened]
  dsimp only
  rw [hops_next rfl away, hops_next rfl back, hops]
  rfl

/-- A request with a header is sent elsewhere and back again. -/
theorem redirects_safe_wandering : wanderingRun.1.length ≤ 4 ∧
    plainLibrary.parse wandering.url = .ok wanderingHome ∧
      Safe wanderingHome.origin [(['k'], ['v'])] wanderingRun.1 :=
  have safe := redirects_safe plainLibrary (fun _ _ => .ok []) (fun _ => none) wanderingAnswers
    wandering
  ⟨safe.1, safe.2 _ (congrArg (·[0]?) wanderingRun_sent)⟩

end Source2Root.Http
