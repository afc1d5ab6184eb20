import Source2Root.Foundation.Living
import Source2Root.Chronicle

/-!
# What the journal says

Every single change writes one entry at most, save the cleanup that forgets the tokens
of a script.  An entry says which change was made, and under which guard.
-/

set_option autoImplicit false

namespace Source2Root.Foundation

open Handles Chronicle

/-- The change that wrote the entry. -/
def Note (s s' : State) : Happening → Prop
  | .called a reason state managing => s' = s.enter a reason ∧ state = s.state a ∧
      managing = s.managing ∧
      s.vm a = true ∧ (s.state a = .running ∧ s.Entitled a reason ∨
        reason = .start ∧ s.state a = .loading ∨ reason = .stop ∧ s.state a = .retiring)
  | .captured token provider a => ∃ function, s' = s.capture a provider function ∧
      token = s.nextCallback ∧ s.nextCallback ≠ 0 ∧ s.vm a = true
  | .retained token provider => ∃ callback, s.callbacks[token]? = some callback ∧
      provider = callback.provider ∧ s' = s.retain token callback
  | .cancelled token => ∃ callback, s.callbacks[token]? = some callback ∧
      s' = s.cancel token callback
  | .run token provider a oneShot => ∃ callback, s.callbacks[token]? = some callback ∧
      provider = callback.provider ∧ a = callback.script ∧ oneShot = !callback.persistent ∧
      s.state a = .running ∧ s.managing = false ∧ s' = s.note (.run token provider a oneShot)
  | .bound a provider => ∃ r p acquired, s' = s.bindProvider a r p acquired ∧ provider = p.owner ∧
      s.preparing = some a ∧ s.providers[r]? = some p
  | .status provider owner answer settled => answer = s.consumerStatus provider owner ∧
      settled = s.settled owner ∧ s' = s.note (.status provider owner answer settled)
  | .failed owner state => ∃ a, s.active a ≠ 0 ∧ owner = s.owner a ∧ s' = s.fault a ∧
      state = s'.state a
  | .cleaning owner => ∃ a, s.state a ≠ .loading ∧ s.state a ≠ .running ∧ s.state a ≠ .paused ∧
      owner = s.owner a ∧ s' = s.beginCleanup a
  | _ => True

/-- What a change adds to the journal. -/
inductive Adds (s s' : State) : Prop where
  | nothing (same : s'.journal = s.journal)
  | entry (e : Happening) (last : s'.journal = s.journal ++ [e]) (note : Note s s' e)
  | tokens (a : Addr) (still : s.Still a) (is : s' = s.dropCallbacks a)

section Adds

variable {s s' : State}

/-- What the entries show, old and new ones. -/
theorem Adds.shown {R : Happening → Prop} (adds : Adds s s') (old : ∀ e ∈ s.journal, R e)
    (new : ∀ e, Note s s' e → R e) (cancelled : ∀ token, R (.cancelled token)) :
    ∀ e ∈ s'.journal, R e := by
  intro e member
  cases adds with
  | nothing same => exact old e (same ▸ member)
  | entry last is note =>
      rw [is] at member
      rcases List.mem_append.mp member with earlier | now
      · exact old e earlier
      · exact List.mem_singleton.mp now ▸ new last note
  | tokens a still is =>
      subst is
      rcases List.mem_append.mp member with earlier | now
      · exact old e earlier
      · obtain ⟨token, -, rfl⟩ := List.mem_map.mp now
        exact cancelled token

/-- A rule that says nothing of tokens that go. -/
theorem Adds.obeys {rule : List Happening → Happening → Prop} (adds : Adds s s')
    (obeys : Obeys rule s.journal) (new : ∀ e, Note s s' e → rule s.journal e)
    (cancelled : ∀ before token, rule before (.cancelled token)) : Obeys rule s'.journal := by
  cases adds with
  | nothing same => exact same ▸ obeys
  | entry last is note => exact is ▸ obeys.snoc (new last note)
  | tokens a still is =>
      subst is
      refine obeys.append fun e member before => ?_
      obtain ⟨token, -, rfl⟩ := List.mem_map.mp member
      exact cancelled before token

end Adds

theorem State.fault_self (s : State) (a : Addr) : (s.fault a).state a =
    if s.faults a + 1 ≥ 3 then .retiring else s.state a := by
  show (if s.faults a + 1 ≥ 3 then Function.update s.state a .retiring else s.state) a = _
  split
  · exact Function.update_self ..
  · rfl

theorem Act.adds {s s' : State} {k : Kind} (act : Act k s s') : Adds s s' := by
  cases act with
  | enter a reason running loaded entitled =>
      exact .entry _ rfl ⟨rfl, rfl, rfl, loaded, Or.inl ⟨running, entitled⟩⟩
  | enterStart a candidate loading loaded =>
      exact .entry _ rfl ⟨rfl, rfl, rfl, loaded, Or.inr (Or.inl ⟨rfl, loading⟩)⟩
  | enterStop a still retiring loaded =>
      exact .entry _ rfl ⟨rfl, rfl, rfl, loaded, Or.inr (Or.inr ⟨rfl, retiring⟩)⟩
  | fault a active => exact .entry _ rfl ⟨a, active, rfl, rfl, (State.fault_self s a).symm⟩
  | advance => exact .entry _ rfl trivial
  | newMap => exact .entry _ rfl trivial
  | suspended => exact .entry _ rfl trivial
  | takeMap => exact .entry _ rfl trivial
  | askMap => exact .entry _ rfl trivial
  | acquire => exact .entry _ rfl trivial
  | release => exact .entry _ rfl trivial
  | bindProvider a r p acquired candidate loading loaded there =>
      exact .entry _ rfl ⟨r, p, acquired, rfl, rfl, candidate, there⟩
  | openNative => exact .entry _ rfl trivial
  | chose => exact .entry _ rfl trivial
  | selectNative => exact .entry _ rfl trivial
  | closeNative => exact .entry _ rfl trivial
  | addDisplay => exact .entry _ rfl trivial
  | addTimer => exact .entry _ rfl trivial
  | createResource => exact .entry _ rfl trivial
  | destroy => exact .entry _ rfl trivial
  | fired => exact .entry _ rfl trivial
  | dropCommand a name owners removed =>
      cases removed with
      | true => exact .entry _ rfl trivial
      | false => exact .nothing rfl
  | dropEvent a name owners removed =>
      cases removed with
      | true => exact .entry _ rfl trivial
      | false => exact .nothing rfl
  | dropConVar a name id v released =>
      cases released with
      | true => exact .entry _ rfl trivial
      | false => exact .nothing rfl
  | capture a r p function making loaded bound there token =>
      exact .entry _ rfl ⟨function, rfl, rfl, token, loaded⟩
  | cancel token callback there => exact .entry _ rfl ⟨callback, there, rfl⟩
  | retain token callback there => exact .entry _ rfl ⟨callback, there, rfl, rfl⟩
  | run token callback oneShot there running unmanaged kind =>
      exact .entry _ rfl ⟨callback, there, rfl, rfl, kind, running, unmanaged, rfl⟩
  | dropCallbacks a still => exact .tokens a still rfl
  | status => exact .entry _ rfl ⟨rfl, rfl, rfl⟩
  | beginCleanup a loading running paused =>
      exact .entry _ rfl ⟨a, loading, running, paused, rfl, rfl⟩
  | pause => exact .entry _ rfl trivial
  | _ => exact .nothing rfl

end Source2Root.Foundation
