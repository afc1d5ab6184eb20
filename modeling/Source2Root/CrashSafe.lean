import Mathlib

/-!
# Programs that may be cut off after any effect

A program reads a durable state and has effects on it, one after another, before
it returns or raises.  A crash cuts the effects off after any number of them.
`Safe` says what every state that a crash can leave satisfies, and what a run to
the end returns; it has a rule for each way programs are put together.
-/

set_option autoImplicit false

namespace Source2Root.CrashSafe

section Programs
variable {D E : Type} (apply : E → D → D)

def after (effects : List E) (d : D) : D := effects.foldl (fun d e => apply e d) d

@[simp] theorem after_nil (d : D) : after apply [] d = d := rfl

@[simp] theorem after_cons (e : E) (effects : List E) (d : D) :
    after apply (e :: effects) d = after apply effects (apply e d) := rfl

theorem after_append (first then_ : List E) (d : D) :
    after apply (first ++ then_) d = after apply then_ (after apply first d) :=
  List.foldl_append

/-- The effects of a run from a state, and what it returns or raises. -/
def Program {D E : Type} (_apply : E → D → D) (X α : Type) : Type := D → List E × Except X α

end Programs

namespace Program

section Combinators
variable {D E X α β : Type} {apply : E → D → D}

protected def pure (a : α) : Program apply X α := fun _ => ([], .ok a)

protected def bind (p : Program apply X α) (f : α → Program apply X β) : Program apply X β :=
  fun d =>
    match p d with
    | (effects, .error x) => (effects, .error x)
    | (effects, .ok a) => (effects ++ (f a (after apply effects d)).1, (f a (after apply effects d)).2)

instance : Monad (Program apply X) where
  pure := Program.pure
  bind := Program.bind

def read : Program apply X D := fun d => ([], .ok d)

def effect (e : E) : Program apply X Unit := fun _ => ([e], .ok ())

def raise (x : X) : Program apply X α := fun _ => ([], .error x)

/-- A computation on what was read. -/
def lift (result : Except X α) : Program apply X α := fun _ => ([], result)

/-- `try … finally`: the cleanup runs whether or not the body raised. -/
def ensuring (p : Program apply X α) (cleanup : Program apply X Unit) : Program apply X α :=
  fun d =>
    let run := p d
    let last := cleanup (after apply run.1 d)
    (run.1 ++ last.1, last.2.bind fun _ => run.2)

/-- The state after a run to the end. -/
def final (p : Program apply X α) (d : D) : D := after apply (p d).1 d

/-- The state that a crash after `k` effects leaves. -/
def crash (k : Nat) (p : Program apply X α) (d : D) : D := after apply ((p d).1.take k) d

theorem crash_final (p : Program apply X α) (d : D) : p.crash (p d).1.length d = p.final d := by
  rw [crash, final, List.take_length]

theorem bind_ok {p : Program apply X α} {f : α → Program apply X β} {d : D} {a : α}
    (returned : (p d).2 = .ok a) :
    (p >>= f) d = ((p d).1 ++ (f a (p.final d)).1, (f a (p.final d)).2) := by
  show Program.bind p f d = _
  rw [Program.bind, final]
  match runs : p d with
  | (effects, .error x) => rw [runs] at returned; cases returned
  | (effects, .ok b) => rw [runs] at returned; cases returned; rfl

theorem bind_error {p : Program apply X α} {f : α → Program apply X β} {d : D} {x : X}
    (raised : (p d).2 = .error x) : (p >>= f) d = ((p d).1, .error x) := by
  show Program.bind p f d = _
  rw [Program.bind]
  match runs : p d with
  | (effects, .error y) => rw [runs] at raised; cases raised; rfl
  | (effects, .ok b) => rw [runs] at raised; cases raised

@[simp] theorem pure_apply (a : α) (d : D) :
    (pure a : Program apply X α) d = ([], .ok a) := rfl

@[simp] theorem lift_apply (result : Except X α) (d : D) :
    (lift result : Program apply X α) d = ([], result) := rfl

theorem read_bind (f : D → Program apply X β) (d : D) :
    ((read : Program apply X D) >>= f) d = f d d := by
  have run := @bind_ok D E X D β apply read f d d rfl
  simpa [read, final] using run

theorem lift_ok_bind {result : Except X α} {a : α} (ok : result = .ok a)
    (f : α → Program apply X β) (d : D) :
    ((lift result : Program apply X α) >>= f) d = f a d := by
  have run := @bind_ok D E X α β apply (lift result) f d a ok
  simpa [final] using run

theorem lift_error_bind {result : Except X α} {x : X} (error : result = .error x)
    (f : α → Program apply X β) (d : D) :
    ((lift result : Program apply X α) >>= f) d = ([], .error x) :=
  @bind_error D E X α β apply (lift result) f d x error

theorem effect_bind_result (e : E) (f : Unit → Program apply X β) (d : D) :
    (((effect e : Program apply X Unit) >>= f) d).2 = (f () (apply e d)).2 := by
  rw [@bind_ok D E X Unit β apply (effect e) f d () rfl]
  rfl

theorem ensuring_result {p : Program apply X α} {cleanup : Program apply X Unit} {d : D}
    (cleans : (cleanup (p.final d)).2 = .ok ()) : (p.ensuring cleanup d).2 = (p d).2 := by
  rw [final] at cleans
  rw [ensuring, cleans]
  rfl

end Combinators

end Program

/-! ## Safety -/

section Rules
variable {D E X α β : Type} {apply : E → D → D}
variable {I : D → Prop} {Q R : α → D → Prop} {S : β → D → Prop} {d : D}

/-- Each state a crash can leave satisfies `I`, and a result comes with `Q`. -/
structure Safe (I : D → Prop) (Q : α → D → Prop) (p : Program apply X α) (d : D) : Prop where
  crashed : ∀ k, I (p.crash k d)
  returned : ∀ a, (p d).2 = .ok a → Q a (p.final d)

theorem Safe.final {p : Program apply X α} (safe : Safe I Q p d) : I (p.final d) := by
  rw [← Program.crash_final]
  exact safe.crashed _

theorem Safe.mono {J : D → Prop} {p : Program apply X α} (safe : Safe I Q p d)
    (weaker : ∀ d, I d → J d) (later : ∀ a d, I d → Q a d → R a d) : Safe J R p d where
  crashed := fun k => weaker _ (safe.crashed k)
  returned := fun a ok => later a _ safe.final (safe.returned a ok)

theorem safe_pure {a : α} (here : I d) (result : Q a d) :
    Safe I Q (pure a : Program apply X α) d where
  crashed := fun k => by simpa [Program.crash] using here
  returned := fun b ok => by
    cases ok
    exact result

theorem safe_lift {result : Except X α} (here : I d) (returns : ∀ a, result = .ok a → Q a d) :
    Safe I Q (Program.lift result : Program apply X α) d where
  crashed := fun k => by simpa [Program.crash] using here
  returned := fun b ok => returns b ok

theorem safe_read {Q : D → D → Prop} (here : I d) (result : Q d d) :
    Safe I Q (Program.read : Program apply X D) d where
  crashed := fun k => by simpa [Program.crash, Program.read] using here
  returned := fun b ok => by
    cases ok
    exact result

theorem safe_raise {x : X} (here : I d) : Safe I Q (Program.raise x : Program apply X α) d where
  crashed := fun k => by simpa [Program.crash, Program.raise] using here
  returned := fun b ok => nomatch ok

theorem safe_effect {e : E} {Q : Unit → D → Prop} (here : I d) (there : I (apply e d))
    (result : Q () (apply e d)) : Safe I Q (Program.effect e : Program apply X Unit) d where
  crashed := fun k => by
    cases k with
    | zero => exact here
    | succ k => simpa [Program.crash, Program.effect] using there
  returned := fun b ok => result

theorem safe_bind {p : Program apply X α} {f : α → Program apply X β} (first : Safe I Q p d)
    (rest : ∀ a e, I e → Q a e → Safe I S (f a) e) : Safe I S (p >>= f) d := by
  cases result : (p d).2 with
  | error x =>
      have run := Program.bind_error (f := f) result
      exact {
        crashed := fun k => by
          rw [Program.crash, run]
          exact first.crashed k
        returned := fun b ok => by
          rw [run] at ok
          cases ok }
  | ok a =>
      have run := Program.bind_ok (f := f) result
      have next := rest a _ first.final (first.returned a result)
      exact {
        crashed := fun k => by
          rw [Program.crash, run, List.take_append, after_append]
          by_cases early : k ≤ (p d).1.length
          · rw [Nat.sub_eq_zero_of_le early, List.take_zero]
            exact first.crashed k
          · have whole : (p d).1.take k = (p d).1 := List.take_of_length_le (by omega)
            rw [whole]
            exact next.crashed _
        returned := fun b ok => by
          rw [run] at ok
          rw [Program.final, run, after_append]
          exact next.returned b ok }

theorem safe_lift_bind {result : Except X α} {f : α → Program apply X β} (here : I d)
    (rest : ∀ a, result = .ok a → Safe I S (f a) d) :
    Safe I S ((Program.lift result : Program apply X α) >>= f) d := by
  have first : Safe I (fun a e => result = .ok a ∧ e = d)
      (Program.lift result : Program apply X α) d := safe_lift here fun a ok => ⟨ok, rfl⟩
  apply safe_bind first
  rintro a _ _ ⟨ok, rfl⟩
  exact rest a ok

theorem safe_read_bind {f : D → Program apply X β} (here : I d) (rest : Safe I S (f d) d) :
    Safe I S ((Program.read : Program apply X D) >>= f) d := by
  have first : Safe I (fun a e => a = d ∧ e = d) (Program.read : Program apply X D) d :=
    safe_read here ⟨rfl, rfl⟩
  apply safe_bind first
  rintro _ _ _ ⟨rfl, rfl⟩
  exact rest

theorem safe_effect_bind {e : E} {f : Unit → Program apply X β} (here : I d)
    (rest : Safe I S (f ()) (apply e d)) :
    Safe I S ((Program.effect e : Program apply X Unit) >>= f) d := by
  have first : Safe I (fun _ e' => e' = apply e d) (Program.effect e : Program apply X Unit) d :=
    safe_effect here (rest.crashed 0) rfl
  apply safe_bind first
  rintro _ _ _ rfl
  exact rest

theorem safe_ensuring {p : Program apply X α} {cleanup : Program apply X Unit}
    (body : Safe I Q p d) (last : ∀ e, I e → Safe I (fun _ => I) cleanup e)
    (kept : ∀ a, Q a (p.final d) → R a (cleanup.final (p.final d))) :
    Safe I R (p.ensuring cleanup) d := by
  have ends := last _ body.final
  exact {
    crashed := fun k => by
      rw [Program.crash, Program.ensuring, List.take_append, after_append]
      by_cases early : k ≤ (p d).1.length
      · rw [Nat.sub_eq_zero_of_le early, List.take_zero]
        exact body.crashed k
      · have whole : (p d).1.take k = (p d).1 := List.take_of_length_le (by omega)
        rw [whole]
        exact ends.crashed _
    returned := fun a ok => by
      have returned : (p d).2 = .ok a := by
        simp only [Program.ensuring] at ok
        cases last : (cleanup (after apply (p d).1 d)).2 with
        | error x => rw [last] at ok; cases ok
        | ok _ => rw [last] at ok; exact ok
      rw [Program.final, Program.ensuring, after_append]
      exact kept a (body.returned a returned) }

/-- Effects one after another, each of which keeps the invariant. -/
theorem safe_effects {effects : List E} {Q : Unit → D → Prop} : ∀ {d : D}, I d →
    (∀ e ∈ effects, ∀ d, I d → I (apply e d)) → Q () (after apply effects d) →
    Safe I Q (effects.forM Program.effect : Program apply X Unit) d := by
  induction effects with
  | nil => exact fun here _ result => safe_pure here result
  | cons e rest ih =>
      intro d here each result
      obtain ⟨first, later⟩ := List.forall_mem_cons.mp each
      apply safe_effect_bind here
      exact ih (first d here) later result

end Rules

end Source2Root.CrashSafe
