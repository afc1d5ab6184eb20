import Source2Root.Foundation.Sessions
import Source2Root.Foundation.EventDelivery
import Source2Root.Foundation.Journal

/-!
# Callback tokens

A token stands for one function of a script that an extension may call.  It is captured
once and cancelled once, a retained one is never delivered, and what is delivered or
invoked was still there a moment before.
-/

set_option autoImplicit false

namespace Source2Root.Foundation

open Reentrant Chronicle

/-! ## What the journal says -/

/-- What must have happened to a token, and what not. -/
def TokenRule (before : List Happening) : Happening → Prop
  | .captured token _ _ => ∀ provider a, .captured token provider a ∉ before
  | .retained token provider => (∃ a, .captured token provider a ∈ before) ∧
      .cancelled token ∉ before
  | .cancelled token => (∃ provider a, .captured token provider a ∈ before) ∧
      .cancelled token ∉ before
  | .run token provider a oneShot => .captured token provider a ∈ before ∧
      .cancelled token ∉ before ∧ (oneShot = true ↔ ∀ other, .retained token other ∉ before)
  | .called a (.delivered token) state managing => state = .running ∧ managing = false ∧
      ∃ earlier provider, before = earlier ++ [.run token provider a true, .cancelled token]
  | .called a (.invoked token) state managing => state = .running ∧ managing = false ∧
      ∃ earlier provider, before = earlier ++ [.run token provider a false]
  | _ => True

/-- The entry is about the life of a token. -/
def OfToken : Happening → Prop
  | .captured .. => True
  | .retained .. => True
  | .cancelled _ => True
  | _ => False

section Rule

variable {journal : List Happening} {token : Token} {provider : PluginHandle} {a : Addr}

theorem rule_mem {e : Happening} (rule : Obeys TokenRule journal) (member : e ∈ journal) :
    ∃ before, (∀ earlier ∈ before, earlier ∈ journal) ∧ TokenRule before e := by
  obtain ⟨before, after, rfl, holds⟩ := rule.of_mem member
  exact ⟨before, fun earlier => List.mem_append_left _, holds⟩

theorem captured_of_retained (rule : Obeys TokenRule journal)
    (member : .retained token provider ∈ journal) : ∃ a, .captured token provider a ∈ journal := by
  obtain ⟨before, part, ⟨a, captured⟩, -⟩ := rule_mem rule member
  exact ⟨a, part _ captured⟩

theorem captured_of_cancelled (rule : Obeys TokenRule journal)
    (member : .cancelled token ∈ journal) : ∃ provider a, .captured token provider a ∈ journal := by
  obtain ⟨before, part, ⟨provider, a, captured⟩, -⟩ := rule_mem rule member
  exact ⟨provider, a, part _ captured⟩

/-- A token is captured once. -/
theorem captured_unique (rule : Obeys TokenRule journal) {other : PluginHandle} {b : Addr}
    (first : .captured token provider a ∈ journal) (second : .captured token other b ∈ journal) :
    provider = other ∧ a = b := by
  obtain ⟨before, after, split, fresh⟩ := rule.of_mem first
  have later : Happening.captured token other b ∈ Happening.captured token provider a :: after :=
    (List.mem_append.mp (split ▸ second)).resolve_left (fresh other b)
  rcases List.mem_cons.mp later with same | later
  · cases same
    exact ⟨rfl, rfl⟩
  · obtain ⟨middle, rest, rfl⟩ := List.append_of_mem later
    have again : TokenRule (before ++ .captured token provider a :: middle)
        (.captured token other b) := rule _ _ rest (by rw [split, List.append_assoc]; rfl)
    have there : Happening.captured token provider a ∈
        before ++ .captured token provider a :: middle := by simp
    exact absurd there (again provider a)

end Rule

/-! ## The tables -/

/-- What the two tables of tokens say, and what the journal says of them. -/
structure Tokens (journal : List Happening) (callbacks : Std.ExtTreeMap Token ExtensionCallback)
    (callbacksOf : Addr → Finset Token) (next : Token) : Prop where
  rule : Obeys TokenRule journal
  mine : ∀ token a, token ∈ callbacksOf a ↔
    ∃ callback, callbacks[token]? = some callback ∧ callback.script = a
  bounded : next < 2 ^ 64
  numbered : ∀ token provider a, .captured token provider a ∈ journal →
    token ≠ 0 ∧ (next = 0 ∨ token < next)
  captured : ∀ token callback, callbacks[token]? = some callback →
    .captured token callback.provider callback.script ∈ journal ∧ .cancelled token ∉ journal
  retained : ∀ token callback, callbacks[token]? = some callback →
    (callback.persistent = true ↔ ∃ provider, .retained token provider ∈ journal)
  kept : ∀ token provider a, .captured token provider a ∈ journal → .cancelled token ∈ journal ∨
    ∃ callback, callbacks[token]? = some callback

def State.Captures (s : State) : Prop :=
  Tokens s.journal s.callbacks s.callbacksOf s.nextCallback

section Tokens

variable {journal events : List Happening} {callbacks : Std.ExtTreeMap Token ExtensionCallback}
  {callbacksOf : Addr → Finset Token} {next : Token} {token : Token}
  {callback : ExtensionCallback}

/-- Other things happen. -/
theorem Tokens.other (tokens : Tokens journal callbacks callbacksOf next) {e : Happening}
    (rule : TokenRule journal e) (free : ¬ OfToken e) :
    Tokens (journal ++ [e]) callbacks callbacksOf next where
  rule := tokens.rule.snoc rule
  mine := tokens.mine
  bounded := tokens.bounded
  numbered := by
    intro token provider a member
    rcases mem_note member with old | rfl
    · exact tokens.numbered token provider a old
    · exact absurd trivial free
  captured := by
    intro token callback there
    obtain ⟨captured, uncancelled⟩ := tokens.captured token callback there
    refine ⟨List.mem_append_left _ captured, not_mem_note uncancelled ?_⟩
    rintro rfl
    exact free trivial
  retained := by
    intro token callback there
    refine (tokens.retained token callback there).trans (exists_congr fun provider => ?_)
    refine ⟨List.mem_append_left _, fun member => (mem_note member).resolve_right ?_⟩
    rintro rfl
    exact free trivial
  kept := by
    intro token provider a member
    have old : .captured token provider a ∈ journal := (mem_note member).resolve_right (by
      rintro rfl
      exact free trivial)
    exact (tokens.kept token provider a old).imp_left (List.mem_append_left _)

/-- The counter of tokens goes up, until it comes to zero for good. -/
theorem below_next {token next : Nat} (bounded : next < 2 ^ 64) (below : token ≤ next) :
    (next + 1) % 2 ^ 64 = 0 ∨ token < (next + 1) % 2 ^ 64 := by omega

/-- The journal knows nothing of the next token. -/
theorem Tokens.unheard (tokens : Tokens journal callbacks callbacksOf next) (real : next ≠ 0) :
    (∀ provider a, .captured next provider a ∉ journal) ∧ .cancelled next ∉ journal ∧
      (∀ provider, .retained next provider ∉ journal) ∧ callbacks[next]? = none := by
  have uncaptured : ∀ provider a, .captured next provider a ∉ journal := by
    intro provider a member
    rcases (tokens.numbered next provider a member).2 with zero | below
    · exact real zero
    · exact lt_irrefl _ below
  refine ⟨uncaptured, fun member => ?_, fun provider member => ?_, ?_⟩
  · obtain ⟨provider, a, captured⟩ := captured_of_cancelled tokens.rule member
    exact uncaptured provider a captured
  · obtain ⟨a, captured⟩ := captured_of_retained tokens.rule member
    exact uncaptured provider a captured
  · cases there : callbacks[next]? with
    | none => rfl
    | some callback => exact absurd (tokens.captured next callback there).1 (uncaptured _ _)

theorem Tokens.capture (tokens : Tokens journal callbacks callbacksOf next) (real : next ≠ 0)
    (a : Addr) (provider : PluginHandle) (function : Function) :
    Tokens (journal ++ [.captured next provider a])
      (callbacks.insert next { script := a, provider, function })
      (Function.update callbacksOf a (insert next (callbacksOf a))) ((next + 1) % 2 ^ 64) := by
  obtain ⟨uncaptured, uncancelled, unretained, free⟩ := tokens.unheard real
  have apart : ∀ {token : Token} {callback : ExtensionCallback},
      callbacks[token]? = some callback → token ≠ next := by
    rintro token callback there rfl
    rw [free] at there
    cases there
  refine ⟨tokens.rule.snoc uncaptured, fun token b => ?_, Nat.mod_lt _ (by norm_num),
    fun token owner b member => ?_, fun token callback there => ?_, fun token callback there => ?_,
    fun token owner b member => ?_⟩
  · rw [Tables.getElem?_insert]
    by_cases here : token = next
    · rw [if_pos here, here]
      have fresh : ∀ b, next ∉ callbacksOf b := by
        intro b member
        obtain ⟨callback, there, -⟩ := (tokens.mine next b).mp member
        exact apart there rfl
      by_cases same : b = a
      · rw [same, Function.update_self]
        simp
      · rw [Function.update_of_ne same]
        refine iff_of_false (fresh b) ?_
        rintro ⟨callback, is, script⟩
        cases is
        exact same script.symm
    · rw [if_neg here, ← tokens.mine token b]
      by_cases same : b = a
      · rw [same, Function.update_self, Finset.mem_insert]
        exact or_iff_right here
      · rw [Function.update_of_ne same]
  · rcases mem_note member with old | is
    · obtain ⟨used, below⟩ := tokens.numbered token owner b old
      exact ⟨used, below_next tokens.bounded (below.resolve_left real).le⟩
    · cases is
      exact ⟨real, below_next tokens.bounded (le_refl _)⟩
  · rw [Tables.getElem?_insert] at there
    split at there
    · cases there
      rw [‹token = next›]
      exact ⟨List.mem_append_right _ (List.mem_singleton_self _), not_mem_note uncancelled (by simp)⟩
    · obtain ⟨captured, live⟩ := tokens.captured token callback there
      exact ⟨List.mem_append_left _ captured, not_mem_note live (by simp)⟩
  · have same : (∃ provider', .retained token provider' ∈ journal ++ [.captured next provider a]) ↔
        ∃ provider', .retained token provider' ∈ journal := by simp
    rw [same]
    rw [Tables.getElem?_insert] at there
    split at there
    · cases there
      rw [‹token = next›]
      exact iff_of_false Bool.false_ne_true fun ⟨provider, member⟩ => unretained provider member
    · exact tokens.retained token callback there
  · rcases mem_note member with old | is
    · refine (tokens.kept token owner b old).imp (List.mem_append_left _) ?_
      rintro ⟨callback, there⟩
      refine ⟨callback, ?_⟩
      rw [Tables.getElem?_insert, if_neg (apart there)]
      exact there
    · cases is
      exact Or.inr ⟨_, by rw [Tables.getElem?_insert, if_pos rfl]⟩

theorem Tokens.retain (tokens : Tokens journal callbacks callbacksOf next)
    (there : callbacks[token]? = some callback) :
    Tokens (journal ++ [.retained token callback.provider])
      (callbacks.insert token { callback with persistent := true }) callbacksOf next := by
  obtain ⟨captured, uncancelled⟩ := tokens.captured token callback there
  have old : ∀ {other : Token} {later : ExtensionCallback},
      (callbacks.insert token { callback with persistent := true })[other]? = some later →
        ∃ before, callbacks[other]? = some before ∧ later.script = before.script ∧
          later.provider = before.provider ∧ (other ≠ token → later = before) := by
    intro other later at_other
    rw [Tables.getElem?_insert] at at_other
    split at at_other
    · cases at_other
      exact ⟨callback, ‹other = token› ▸ there, rfl, rfl, fun apart => absurd ‹other = token› apart⟩
    · exact ⟨later, at_other, rfl, rfl, fun _ => rfl⟩
  refine ⟨tokens.rule.snoc ⟨⟨_, captured⟩, uncancelled⟩, fun other a => ?_, tokens.bounded,
    fun other provider a member => ?_, fun other later at_other => ?_,
    fun other later at_other => ?_, fun other provider a member => ?_⟩
  · rw [tokens.mine other a, Tables.getElem?_insert]
    split
    · rw [‹other = token›, there]
      simp
    · rfl
  · exact tokens.numbered other provider a ((mem_note member).resolve_right (by simp))
  · obtain ⟨before, was, script, provider, -⟩ := old at_other
    obtain ⟨captured, live⟩ := tokens.captured other before was
    rw [script, provider]
    exact ⟨List.mem_append_left _ captured, not_mem_note live (by simp)⟩
  · by_cases here : other = token
    · rw [here, Tables.getElem?_insert, if_pos rfl] at at_other
      cases at_other
      refine iff_of_true rfl ⟨callback.provider, here ▸ ?_⟩
      exact List.mem_append_right _ (List.mem_singleton_self _)
    · obtain ⟨before, was, -, -, same⟩ := old at_other
      rw [same here, tokens.retained other before was]
      simp [here]
  · have member := (mem_note member).resolve_right (by simp)
    refine (tokens.kept other provider a member).imp (List.mem_append_left _) ?_
    rintro ⟨before, was⟩
    rw [Tables.getElem?_insert]
    split
    · exact ⟨_, rfl⟩
    · exact ⟨before, was⟩

/-- Tokens that are there are cancelled one after the other. -/
theorem rule_cancelled {gone : List Token} (rule : Obeys TokenRule journal) (nodup : gone.Nodup)
    (there : ∀ token ∈ gone, (∃ provider a, .captured token provider a ∈ journal) ∧
      .cancelled token ∉ journal) : Obeys TokenRule (journal ++ gone.map .cancelled) := by
  induction gone using List.reverseRecOn with
  | nil => simpa using rule
  | append_singleton gone token ih =>
      obtain ⟨nodup, -, apart⟩ := List.nodup_append.mp nodup
      rw [List.map_append, ← List.append_assoc]
      refine (ih nodup fun other member => there other (List.mem_append_left _ member)).snoc ?_
      obtain ⟨⟨provider, a, captured⟩, live⟩ := there token (by simp)
      refine ⟨⟨provider, a, List.mem_append_left _ captured⟩, not_mem_append live fun member => ?_⟩
      obtain ⟨other, earlier, is⟩ := List.mem_map.mp member
      cases is
      exact apart token earlier token (List.mem_singleton_self _) rfl

/-- Tokens that are there go, each with an entry of its own. -/
theorem Tokens.less (tokens : Tokens journal callbacks callbacksOf next) (gone : List Token)
    {left : Std.ExtTreeMap Token ExtensionCallback} {leftOf : Addr → Finset Token}
    (nodup : gone.Nodup) (there : ∀ token ∈ gone, ∃ callback, callbacks[token]? = some callback)
    (less : ∀ token, left[token]? = if token ∈ gone then none else callbacks[token]?)
    (lessOf : ∀ token a, token ∈ leftOf a ↔ token ∉ gone ∧ token ∈ callbacksOf a) :
    Tokens (journal ++ gone.map .cancelled) left leftOf next := by
  have others : ∀ {e : Happening}, e ∈ journal ++ gone.map .cancelled →
      (∀ token, e ≠ .cancelled token) → e ∈ journal := by
    intro e member other
    refine (List.mem_append.mp member).resolve_right fun new => ?_
    obtain ⟨token, -, is⟩ := List.mem_map.mp new
    exact other token is.symm
  have old : ∀ {token : Token} {callback : ExtensionCallback}, left[token]? = some callback →
      token ∉ gone ∧ callbacks[token]? = some callback := by
    intro token callback is
    rw [less] at is
    split at is
    · cases is
    · exact ⟨‹token ∉ gone›, is⟩
  refine ⟨rule_cancelled tokens.rule nodup fun token member => ?_, fun token a => ?_,
    tokens.bounded, fun token provider a member => ?_, fun token callback is => ?_,
    fun token callback is => ?_, fun token provider a member => ?_⟩
  · obtain ⟨callback, is⟩ := there token member
    obtain ⟨captured, live⟩ := tokens.captured token callback is
    exact ⟨⟨_, _, captured⟩, live⟩
  · rw [lessOf, tokens.mine token a, less]
    split
    · exact iff_of_false (fun both => both.1 ‹token ∈ gone›) (by simp)
    · exact and_iff_right ‹token ∉ gone›
  · exact tokens.numbered token provider a (others member (by simp))
  · obtain ⟨apart, was⟩ := old is
    obtain ⟨captured, live⟩ := tokens.captured token callback was
    refine ⟨List.mem_append_left _ captured, not_mem_append live fun member => ?_⟩
    obtain ⟨other, earlier, same⟩ := List.mem_map.mp member
    cases same
    exact apart earlier
  · rw [tokens.retained token callback (old is).2]
    exact exists_congr fun provider =>
      ⟨List.mem_append_left _, fun member => others member (by simp)⟩
  · by_cases earlier : token ∈ gone
    · exact Or.inl (List.mem_append_right _ (List.mem_map.mpr ⟨token, earlier, rfl⟩))
    · refine (tokens.kept token provider a (others member (by simp))).imp
        (List.mem_append_left _) ?_
      rintro ⟨callback, was⟩
      exact ⟨callback, by rw [less, if_neg earlier]; exact was⟩

theorem Tokens.cancel (tokens : Tokens journal callbacks callbacksOf next)
    (there : callbacks[token]? = some callback) :
    Tokens (journal ++ [.cancelled token]) (callbacks.erase token)
      (Function.update callbacksOf callback.script ((callbacksOf callback.script).erase token))
      next := by
  refine tokens.less [token] (List.nodup_singleton token)
    (fun other member => ⟨callback, List.mem_singleton.mp member ▸ there⟩) (fun other => ?_)
    fun other a => ?_
  · rw [Tables.getElem?_erase]
    simp only [List.mem_singleton]
  · rw [List.mem_singleton]
    by_cases same : a = callback.script
    · rw [same, Function.update_self, Finset.mem_erase]
    · rw [Function.update_of_ne same]
      refine ⟨fun member => ⟨?_, member⟩, And.right⟩
      rintro rfl
      obtain ⟨later, at_token, script⟩ := (tokens.mine other a).mp member
      rw [there] at at_token
      cases at_token
      exact same script.symm

end Tokens

/-! ## Every run -/

variable {start s s' : State} {stack : Stack}

theorem State.Captures.drop (captures : s.Captures) (a : Addr) : (s.dropCallbacks a).Captures := by
  refine Tokens.less captures _ (Finset.sort_nodup ..) (fun token member => ?_) (fun token => ?_)
    fun token b => ?_
  · obtain ⟨callback, there, -⟩ := (captures.mine token a).mp ((Finset.mem_sort _).mp member)
    exact ⟨callback, there⟩
  · show (s.callbacks.filter fun token _ => token ∉ s.callbacksOf a)[token]? = _
    rw [Std.ExtTreeMap.getElem?_filter']
    simp only [Finset.mem_sort]
    cases s.callbacks[token]? with
    | none => simp
    | some callback => by_cases mine : token ∈ s.callbacksOf a <;> simp [mine]
  · rw [Finset.mem_sort]
    show token ∈ Function.update s.callbacksOf a ∅ b ↔ _
    by_cases same : b = a
    · rw [same, Function.update_self]
      simp
    · rw [Function.update_of_ne same]
      refine ⟨fun member => ⟨fun mine => ?_, member⟩, And.right⟩
      obtain ⟨callback, there, script⟩ := (captures.mine token b).mp member
      obtain ⟨callback', there', script'⟩ := (captures.mine token a).mp mine
      rw [there] at there'
      cases there'
      exact same (script.symm.trans script')

theorem Act.captures {k : Kind} (act : Act k s s') (bared : s.Bares) (living : s.Lives)
    (captures : s.Captures) : s'.Captures := by
  have born : Function.update s.callbacksOf s.fresh ∅ = s.callbacksOf := by
    rw [← bared.callbacks s.fresh (living.unborn s.fresh (le_refl _)), Function.update_eq_self]
  cases act with
  | enter a reason running loaded entitled =>
      refine captures.other ?_ id
      cases reason with
      | delivered token =>
          obtain ⟨free, earlier, provider, is⟩ := entitled
          exact ⟨running, free, earlier, provider, is⟩
      | invoked token =>
          obtain ⟨free, earlier, provider, is⟩ := entitled
          exact ⟨running, free, earlier, provider, is⟩
      | _ => trivial
  | capture a r p function making loaded bound there token =>
      exact captures.capture token a p.owner function
  | cancel token callback there => exact captures.cancel there
  | retain token callback there => exact captures.retain there
  | run token callback oneShot there running unmanaged kind =>
      obtain ⟨captured, live⟩ := captures.captured token callback there
      refine captures.other ⟨captured, live, ?_⟩ id
      have retained := captures.retained token callback there
      rw [kind, Bool.not_eq_true', ← Bool.not_eq_true, retained, not_exists]
  | dropCallbacks a still => exact captures.drop a
  | prepare m path =>
      show Tokens s.journal s.callbacks (Function.update s.callbacksOf s.fresh ∅) s.nextCallback
      rw [born]
      exact captures
  | placeRecord id m path state =>
      show Tokens s.journal s.callbacks (Function.update s.callbacksOf s.fresh ∅) s.nextCallback
      rw [born]
      exact captures
  | dropCommand a name owners removed =>
      cases removed with
      | true => exact captures.other trivial id
      | false => exact captures
  | dropEvent a name owners removed =>
      cases removed with
      | true => exact captures.other trivial id
      | false => exact captures
  | dropConVar a name id_ v released =>
      cases released with
      | true => exact captures.other trivial id
      | false => exact captures
  | _ => first | exact captures | exact captures.other trivial id

theorem Reach.captures (reach : Reach s) : s.Captures := by
  induction reach with
  | boot first =>
      obtain ⟨now, publicTrigger, silentTrigger, rfl⟩ := first
      refine ⟨.nil, ?_, ?_, ?_, ?_, ?_, ?_⟩
      all_goals simp [State.boot]
  | act before change ih => exact change.captures before.bared before.living ih

/-! ## At most one delivery -/

/-- The function of the token is called by a delivery. -/
def delivers (token : Token) : Happening → Bool
  | .called _ (.delivered other) _ _ => other == token
  | _ => false

theorem delivers_iff {token : Token} {e : Happening} :
    delivers token e = true ↔ ∃ a state managing, e = .called a (.delivered token) state managing := by
  constructor
  · intro is
    cases e with
    | called a reason state managing =>
        cases reason with
        | delivered other => exact ⟨a, state, managing, by rw [eq_of_beq is]⟩
        | _ => cases is
    | _ => cases is
  · rintro ⟨a, state, managing, rfl⟩
    exact beq_self_eq_true token

/-- A token that is delivered was cancelled just before, and no token is cancelled twice. -/
theorem delivered_once {journal : List Happening} (rule : Obeys TokenRule journal) (token : Token) :
    (journal.filter (delivers token)).length ≤ 1 := by
  refine rule.hereditary.once fun before e both is earlier member => ?_
  obtain ⟨rule, last⟩ := both
  obtain ⟨a, state, managing, rfl⟩ := delivers_iff.mp is
  obtain ⟨-, -, begun, provider, rfl⟩ := last
  rw [← Bool.not_eq_true]
  intro again
  obtain ⟨b, state', managing', rfl⟩ := delivers_iff.mp again
  have old : Happening.called b (.delivered token) state' managing' ∈ begun := by simpa using member
  obtain ⟨first, rest, split⟩ := List.append_of_mem old
  obtain ⟨-, -, begun', provider', is⟩ := rule first (.called b (.delivered token) state' managing')
    (rest ++ [.run token provider a true, .cancelled token]) (by simp [split])
  have live := (rule (begun ++ [.run token provider a true]) (.cancelled token) [] (by simp)).2
  refine live ?_
  rw [split, is]
  simp

/-! ## What the calls answer -/

/-- A part whose course is known. -/
theorem known_wp {α β : Type} {m : M α} {f : α → M β} {value : α} {t : State}
    {Q : Except Raised β → State → Prop} (ends : m s = .done (.ok value) t)
    (rest : (f value t).Wp Reach Later Q) : ((m >>= f) s).Wp Reach Later Q := by
  rw [done_bind ends]
  exact rest

theorem Act.journal {k : Kind} (act : Act k s s') : ∃ events, s'.journal = s.journal ++ events := by
  cases act.adds with
  | nothing same => exact ⟨[], by rw [same, List.append_nil]⟩
  | entry e last note => exact ⟨[e], last⟩
  | tokens a still is =>
      subst is
      exact ⟨_, rfl⟩

theorem Onward.journal (onward : Onward s s') : ∀ e ∈ s.journal, e ∈ s'.journal := by
  induction onward with
  | refl => exact fun e => id
  | tail _ last ih =>
      obtain ⟨k, act⟩ := last
      obtain ⟨events, is⟩ := act.journal
      exact fun e member => is ▸ List.mem_append_left events (ih e member)

/-- A delivery that is put off changes nothing, and one that ran used the token up. -/
structure Delivers (s : State) (token : Token) (outcome : Except Raised KeelResult) (s' : State) :
    Prop where
  busy : outcome = .ok .busy → s' = s
  used : outcome = .ok .ok ∨ outcome = .ok .engineFailure → .cancelled token ∈ s'.journal

theorem Delivers.plain {token : Token} {result : KeelResult} (busy : result = .busy → s' = s)
    (apart : result ≠ .ok ∧ result ≠ .engineFailure) : Delivers s token (.ok result) s' := by
  refine ⟨fun is => busy (Except.ok.inj is), ?_⟩
  rintro (is | is)
  · exact absurd (Except.ok.inj is) apart.1
  · exact absurd (Except.ok.inj is) apart.2

theorem deliverCallback_answers (reach : Reach s) (owner : PluginHandle) (token : Token)
    (valid : Bool) :
    (deliverCallback owner token valid s).Wp Reach Later (Delivers s token) := by
  unfold deliverCallback
  refine wp_ite (fun _ => .plain (fun _ => rfl) (by decide)) fun real => get_wp ?_
  cases there : s.callbacks[token]? with
  | none => exact .plain (fun _ => rfl) (by decide)
  | some callback =>
      refine wp_ite (fun _ => .plain (fun _ => rfl) (by decide)) fun mine => ?_
      have mine : callback.provider = owner := not_not.mp mine
      refine wp_ite (fun _ => .plain (fun _ => rfl) (by decide)) fun oneShot => ?_
      refine wp_ite (fun _ => ?_) fun _ => wp_ite (fun _ => .plain (fun _ => rfl) (by decide))
        fun ready => ?_
      · refine bind_wp (cancelCallback_runs (E := False) (Within.start reach) owner token)
          (fun _ s' _ => .plain (fun is => nomatch is) (by decide)) fun x s' after => (after.2.2 x rfl).elim
      · simp only [Bool.or_eq_true, bne_iff_ne, ne_eq, Bool.not_eq_true', not_or, not_not,
          Bool.not_eq_true] at ready
        obtain ⟨⟨unmanaged, idle⟩, running⟩ := ready
        subst mine
        have taken : Reach (s.note (.run token callback.provider callback.script true)) :=
          reach.act (.run token callback true there running unmanaged (by simpa using oneShot))
        have entitled : State.Entitled ((s.note (.run token callback.provider callback.script
            true)).cancel token callback) callback.script (.delivered token) :=
          ⟨unmanaged, s.journal, callback.provider, List.append_assoc ..⟩
        have real : callback.provider ≠ 0 ∧ token ≠ 0 :=
          ⟨fun is => real (Or.inl is), fun is => real (Or.inr (Or.inl is))⟩
        have cancelled := taken.act (.cancel token callback there)
        refine modify_wp (known_wp (cancelCallback_eq real there) ?_)
        refine bind_wp (invoke_keeps (Within.start cancelled) _ running entitled)
          (fun answer s' after => ?_) fun x s' after => ?_
        · refine ⟨fun is => ?_, fun _ => after.1.later.onward.journal _ ?_⟩
          · split at is <;> cases is
          · exact List.mem_append_right _ (List.mem_singleton_self _)
        · exact ⟨fun is => (nomatch is), fun is => is.elim nofun nofun⟩

/-- A token that is to go is gone, whoever came first. -/
theorem cancelCallback_gone (reach : Reach s) {token : Token} {provider : PluginHandle} {a : Addr}
    (captured : .captured token provider a ∈ s.journal) (real : provider ≠ 0 ∧ token ≠ 0) :
    ∃ outcome s', cancelCallback provider token s = .done (.ok outcome) s' ∧
      .cancelled token ∈ s'.journal := by
  rcases reach.captures.kept token provider a captured with gone | ⟨callback, there⟩
  · have absent : s.callbacks[token]? = none := by
      cases there : s.callbacks[token]? with
      | none => rfl
      | some callback => exact absurd gone (reach.captures.captured token callback there).2
    refine ⟨.notFound, s, ?_, gone⟩
    unfold cancelCallback
    rw [if_neg (not_or.mpr real), get_bind, absent]
    rfl
  · obtain ⟨rfl, -⟩ := captured_unique reach.captures.rule captured
      (reach.captures.captured token callback there).1
    exact ⟨.ok, _, cancelCallback_eq real there,
      List.mem_append_right _ (List.mem_singleton_self _)⟩

/-- An invocation that is put off changes nothing, and one that fails uses the token up. -/
structure Invokes (s : State) (token : Token) (outcome : Except Raised (KeelResult × Int))
    (s' : State) : Prop where
  busy : ∀ value, outcome = .ok (.busy, value) → s' = s
  failed : ∀ value, outcome = .ok (.engineFailure, value) → .cancelled token ∈ s'.journal

theorem Invokes.plain {token : Token} {result : KeelResult} {value : Int}
    (busy : result = .busy → s' = s) (apart : result ≠ .engineFailure) :
    Invokes s token (.ok (result, value)) s' :=
  ⟨fun _ is => busy (Prod.ext_iff.mp (Except.ok.inj is)).1,
    fun _ is => absurd (Prod.ext_iff.mp (Except.ok.inj is)).1 apart⟩

theorem invokeCallback_answers (reach : Reach s) (owner : PluginHandle) (token : Token)
    (valid : Bool) :
    (invokeCallback owner token valid s).Wp Reach Later (Invokes s token) := by
  unfold invokeCallback
  refine wp_ite (fun _ => .plain (fun _ => rfl) (by decide)) fun real => get_wp ?_
  cases there : s.callbacks[token]? with
  | none => exact .plain (fun _ => rfl) (by decide)
  | some callback =>
      refine wp_ite (fun _ => .plain (fun _ => rfl) (by decide)) fun mine => ?_
      simp only [not_or, not_not, Bool.not_eq_true, Bool.not_eq_false'] at mine
      obtain ⟨rfl, persistent⟩ := mine
      refine wp_ite (fun _ => ?_) fun _ => wp_ite (fun _ => .plain (fun _ => rfl) (by decide))
        fun ready => ?_
      · refine bind_wp (cancelCallback_runs (E := False) (Within.start reach) _ token)
          (fun _ s' _ => .plain (fun is => nomatch is) (by decide)) fun x s' after => (after.2.2 x rfl).elim
      refine wp_ite (fun _ => .plain (fun _ => rfl) (by decide)) fun _ => ?_
      simp only [Bool.or_eq_true, bne_iff_ne, ne_eq, not_or, not_not, Bool.not_eq_true,
        decide_eq_true_eq, Nat.not_le] at ready
      obtain ⟨⟨unmanaged, running⟩, depth⟩ := ready
      have noted : Reach (s.note (.run token callback.provider callback.script false)) :=
        reach.act (.run token callback false there running unmanaged (by simp [persistent]))
      have deeper : Reach (s.note (.run token callback.provider callback.script false)).deeper :=
        noted.act (.deeper depth)
      have entitled : State.Entitled
          (s.note (.run token callback.provider callback.script false)).deeper callback.script
          (.invoked token) := ⟨unmanaged, s.journal, callback.provider, rfl⟩
      have loaded := (reach.living.home _ (Or.inl running)).1
      have entered : Reach ((s.note (.run token callback.provider callback.script
          false)).deeper.enter callback.script (.invoked token)) :=
        deeper.act (.enter _ _ running loaded entitled)
      refine modify_wp (modify_wp (modify_wp (wp_bind.mpr (wp_enter.mpr ⟨entered, ?_⟩))))
      intro r s' reach' later
      refine wp_ite (fun failed => ?_) fun succeeded => ?_
      · have captured := (reach.captures.captured token callback there).1
        have still : .captured token callback.provider callback.script ∈ s'.journal := by
          refine later.onward.journal _ ?_
          simp [State.enter, State.note, captured]
        obtain ⟨answer, s'', ends, gone⟩ := cancelCallback_gone reach' still (not_or.mp real)
        refine known_wp ends (modify_wp (modify_wp (modify_wp ?_)))
        have refused : r.flag = false := by simpa using failed
        refine ⟨fun value is => ?_, fun value is => List.mem_append_left _ gone⟩
        rw [refused] at is
        cases is
      · refine modify_wp (modify_wp ?_)
        have accepted : r.flag = true := by simpa using succeeded
        rw [accepted]
        exact .plain (fun is => nomatch is) (by decide)

/-- No other provider comes to a token. -/
theorem foreign_refused {token : Token} {callback : ExtensionCallback} {owner : PluginHandle}
    (there : s.callbacks[token]? = some callback) (other : callback.provider ≠ owner)
    (valid : Bool) :
    deliverCallback owner token valid s = .done (.ok .invalidArgument) s ∧
      invokeCallback owner token valid s = .done (.ok (.invalidArgument, 0)) s ∧
      retainCallback owner token s = .done (.ok .invalidArgument) s ∧
      cancelCallback owner token s = .done (.ok .invalidArgument) s := by
  refine ⟨?_, ?_, ?_, ?_⟩
  · unfold deliverCallback
    by_cases void : owner = 0 ∨ token = 0 ∨ (!valid) = true
    · rw [if_pos void]
      rfl
    · rw [if_neg void, get_bind, there]
      show (ite (callback.provider ≠ owner) _ _ : M KeelResult) s = _
      rw [if_pos other]
      rfl
  · unfold invokeCallback
    by_cases void : owner = 0 ∨ token = 0
    · rw [if_pos void]
      rfl
    · rw [if_neg void, get_bind, there]
      show (ite (callback.provider ≠ owner ∨ (!callback.persistent) = true) _ _ :
        M (KeelResult × Int)) s = _
      rw [if_pos (Or.inl other)]
      rfl
  · unfold retainCallback
    by_cases void : owner = 0 ∨ token = 0
    · rw [if_pos void]
      rfl
    · rw [if_neg void, get_bind, there]
      show (ite (callback.provider ≠ owner) _ _ : M KeelResult) s = _
      rw [if_pos other]
      rfl
  · unfold cancelCallback
    by_cases void : owner = 0 ∨ token = 0
    · rw [if_pos void]
      rfl
    · rw [if_neg void, get_bind, there]
      show (ite (callback.provider ≠ owner) _ _ : M KeelResult) s = _
      rw [if_pos other]
      rfl

/-! ## Nesting -/

theorem Act.nested {k : Kind} (act : Act k s s') (nested : s.callbackDepth ≤ callbackMaxDepth) :
    s'.callbackDepth ≤ callbackMaxDepth := by
  cases act with
  | deeper depth => exact depth
  | shallower depth => exact (Nat.sub_le ..).trans nested
  | _ => exact nested

theorem Reach.nested (reach : Reach s) : s.callbackDepth ≤ callbackMaxDepth := by
  induction reach with
  | boot first =>
      obtain ⟨now, publicTrigger, silentTrigger, rfl⟩ := first
      exact Nat.zero_le _
  | act before change ih => exact change.nested ih

/-- The table of tokens is the disjoint union of what the loaded scripts have, every entry
of the journal follows the life of its token, a token is delivered at most once, what is
put off changes nothing, what ran is used up, only the provider that captured a token
comes to it, and the nesting stays within its limit. -/
theorem tokens_kept (boot : Boot start) (reached : Reached start s stack) :
    (∀ token a, token ∈ s.callbacksOf a ↔
      ∃ callback : ExtensionCallback, s.callbacks[token]? = some callback ∧ callback.script = a) ∧
    (∀ (token : Token) (callback : ExtensionCallback), s.callbacks[token]? = some callback →
      s.vm callback.script = true) ∧
    Obeys TokenRule s.journal ∧
    (∀ token, (s.journal.filter (delivers token)).length ≤ 1) ∧
    (∀ owner token valid,
      (deliverCallback owner token valid s).Wp Reach Later (Delivers s token)) ∧
    (∀ owner token valid,
      (invokeCallback owner token valid s).Wp Reach Later (Invokes s token)) ∧
    (∀ owner (token : Token) (callback : ExtensionCallback) valid,
      s.callbacks[token]? = some callback → callback.provider ≠ owner →
        deliverCallback owner token valid s = .done (.ok .invalidArgument) s ∧
          invokeCallback owner token valid s = .done (.ok (.invalidArgument, 0)) s ∧
          retainCallback owner token s = .done (.ok .invalidArgument) s ∧
          cancelCallback owner token s = .done (.ok .invalidArgument) s) ∧
    s.callbackDepth ≤ callbackMaxDepth ∧ (stack = [] → s.callbackDepth = 0) := by
  have reach := reached.reach boot
  have captures := reach.captures
  refine ⟨captures.mine, fun token callback there => ?_, captures.rule,
    delivered_once captures.rule, fun owner token valid => deliverCallback_answers reach owner token
      valid, fun owner token valid => invokeCallback_answers reach owner token valid,
    fun owner token callback valid there other => foreign_refused there other valid, reach.nested,
    fun idle => ?_⟩
  · have mine := (captures.mine token callback.script).mpr ⟨callback, there, rfl⟩
    exact reach.bared.callbacks.loaded (Finset.ne_empty_of_mem mine)
  · subst idle
    obtain ⟨now, publicTrigger, silentTrigger, rfl⟩ := boot
    exact congrArg Calls.callbackDepth (reached.idle ⟨now, publicTrigger, silentTrigger, rfl⟩)

/-- A script uses a native, which captures a function of it; the extension asks for its
call when the script is up. -/
def delivering : History :=
  [.start (.service (.registerContextNative 5
      { name := "Clans_Each", service := "clans", version := 1 })),
    .start (.report (.load { directory := "a" })), .reply { manifest := some { id := "a" } },
    .reply {}, .reply {}, .reply {}, .reply {}, .reply {}, .reply {},
    .start (.native 1 (.extension 1)), .start (.context 1 1 (.captureCallback 0)), .back {},
    .back { cell := 1 }, .start (.service (.deliverCallback 5 1 true))]

theorem tokens_kept_delivering : ∃ s stack, Reached (State.boot 0 ['!'] ['/']) s stack ∧
    (∃ before, s.journal = before ++ [.called 1 (.delivered 1) .running false] ∧
      ∃ earlier provider, before = earlier ++ [.run 1 provider 1 true, .cancelled 1]) ∧
    (s.journal.filter (delivers 1)).length ≤ 1 := by
  obtain ⟨s, stack, reached, seen⟩ := @History.reached delivering
    (fun s => decide (s.journal.getLast? = some (.called 1 (.delivered 1) .running false)))
    (by decide +kernel)
  obtain ⟨before, split⟩ := List.getLast?_eq_some_iff.mp (of_decide_eq_true seen)
  obtain ⟨-, -, rule, once, -⟩ := tokens_kept boot_boot reached
  exact ⟨s, stack, reached, ⟨before, split, (rule before _ [] split).2.2⟩, once 1⟩

end Source2Root.Foundation
