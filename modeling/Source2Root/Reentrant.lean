import Mathlib
import Source2Root.Transition

/-!
# Programs that hand control to code which may call them again

An operation changes a state and meets two kinds of points where it depends on
others: `choose` asks the environment for an answer, `enter` hands control to
foreign code.  While foreign code runs it may start any operation, to any depth;
when it returns, the operation goes on from the state it then finds.  An
operation ends with a value or an exception.

`Wp` is the weakest precondition of a program when the foreign code is only
known to keep an invariant `I` and a relation `G`.  `Machine` is the set of all
runs; `control_inv` says that an invariant every operation keeps holds whenever
foreign code has control.
-/

set_option autoImplicit false

namespace Reentrant

/-- The course of a program from some state on, over states `S`, replies `R` and
exceptions `X`. -/
inductive Tree (S R X : Type) (α : Type) where
  | done (outcome : Except X α) (s : S)
  | choose (k : R → Tree S R X α)
  | enter (s : S) (k : R → S → Tree S R X α)

variable {S R X : Type} {α β : Type}

def Tree.bind (f : Except X α → S → Tree S R X β) : Tree S R X α → Tree S R X β
  | .done outcome s => f outcome s
  | .choose k => .choose fun r => (k r).bind f
  | .enter s k => .enter s fun r s' => (k r s').bind f

def Code (S R X : Type) (α : Type) : Type := S → Tree S R X α

namespace Code

instance : Monad (Code S R X) where
  pure value := fun s => .done (.ok value) s
  bind m f := fun s => (m s).bind fun outcome s' =>
    match outcome with
    | .ok value => f value s'
    | .error x => .done (.error x) s'

instance : MonadExceptOf X (Code S R X) where
  throw x := fun s => .done (.error x) s
  tryCatch m h := fun s => (m s).bind fun outcome s' =>
    match outcome with
    | .ok value => .done (.ok value) s'
    | .error x => h x s'

def get : Code S R X S := fun s => .done (.ok s) s

def modify (f : S → S) : Code S R X Unit := fun s => .done (.ok ()) (f s)

/-- `m`, and `f` on the way out, by a value or an exception. -/
def finally_ (m : Code S R X α) (f : S → S) : Code S R X α := fun s =>
  (m s).bind fun outcome s' => .done outcome (f s')

/-- The environment's answer. -/
def reply : Code S R X R := fun s => .choose fun r => .done (.ok r) s

/-- Foreign code runs; it returns with an answer. -/
def enter : Code S R X R := fun s => .enter s fun r s' => .done (.ok r) s'

end Code

/-! ## Programs whose course is known -/

section Ends

variable {m : Code S R X α} {s s' : S} {value : α} {x : X}

theorem done_bind {f : α → Code S R X β} (ends : m s = .done (.ok value) s') :
    (m >>= f) s = f value s' := by
  show Tree.bind _ (m s) = _
  rw [ends]
  rfl

theorem raise_bind {f : α → Code S R X β} (ends : m s = .done (.error x) s') :
    (m >>= f) s = .done (.error x) s' := by
  show Tree.bind _ (m s) = _
  rw [ends]
  rfl

theorem done_try {h : X → Code S R X α} (ends : m s = .done (.ok value) s') :
    (tryCatch m h) s = .done (.ok value) s' := by
  show Tree.bind _ (m s) = _
  rw [ends]
  rfl

theorem done_try_bind {f : α → Code S R X β} {h : X → Code S R X β}
    (ends : m s = .done (.ok value) s') :
    (tryCatch (m >>= f) h) s = (tryCatch (f value) h) s' := by
  show Tree.bind _ (Tree.bind _ (m s)) = _
  rw [ends]
  rfl

theorem raise_try {h : X → Code S R X α} (ends : m s = .done (.error x) s') :
    (tryCatch m h) s = h x s' := by
  show Tree.bind _ (m s) = _
  rw [ends]
  rfl

end Ends

/-! ## Weakest preconditions -/

section Wp

variable (I : S → Prop) (G : S → S → Prop)

def Tree.Wp (Q : Except X α → S → Prop) : Tree S R X α → Prop
  | .done outcome s => Q outcome s
  | .choose k => ∀ r, (k r).Wp Q
  | .enter s k => I s ∧ ∀ r s', I s' → G s s' → (k r s').Wp Q

/-- No exception, and `P` of the value and the state. -/
def Returns (P : α → S → Prop) (outcome : Except X α) (s : S) : Prop :=
  match outcome with
  | .ok value => P value s
  | .error _ => False

variable {I G}

@[simp] theorem returns_ok {P : α → S → Prop} {value : α} {s : S} :
    Returns P (.ok value : Except X α) s ↔ P value s := Iff.rfl

@[simp] theorem returns_error {P : α → S → Prop} {x : X} {s : S} :
    Returns P (.error x : Except X α) s ↔ False := Iff.rfl

theorem Tree.Wp.mono {Q Q' : Except X α → S → Prop} {t : Tree S R X α} (holds : t.Wp I G Q)
    (weaker : ∀ outcome s, Q outcome s → Q' outcome s) : t.Wp I G Q' := by
  induction t with
  | done outcome s => exact weaker outcome s holds
  | choose k ih => exact fun r => ih r (holds r)
  | enter s k ih => exact ⟨holds.1, fun r s' inv moved => ih r s' (holds.2 r s' inv moved)⟩

theorem Tree.Wp.and {Q Q' : Except X α → S → Prop} {t : Tree S R X α} (left : t.Wp I G Q)
    (right : t.Wp I G Q') : t.Wp I G fun outcome s => Q outcome s ∧ Q' outcome s := by
  induction t with
  | done outcome s => exact ⟨left, right⟩
  | choose k ih => exact fun r => ih r (left r) (right r)
  | enter s k ih => exact ⟨left.1, fun r s' inv moved => ih r s' (left.2 r s' inv moved)
      (right.2 r s' inv moved)⟩

theorem Tree.wp_bind {f : Except X α → S → Tree S R X β} {Q : Except X β → S → Prop}
    {t : Tree S R X α} :
    (t.bind f).Wp I G Q ↔ t.Wp I G fun outcome s => (f outcome s).Wp I G Q := by
  induction t with
  | done outcome s => rfl
  | choose k ih =>
      show (∀ r, ((k r).bind f).Wp I G Q) ↔ ∀ r, _
      exact forall_congr' ih
  | enter s k ih =>
      show (I s ∧ ∀ r s', I s' → G s s' → ((k r s').bind f).Wp I G Q) ↔ _
      refine and_congr_right fun _ => ?_
      exact forall_congr' fun r => forall_congr' fun s' => forall_congr' fun _ =>
        forall_congr' fun _ => ih r s'

@[simp] theorem wp_pure {value : α} {s : S} {Q : Except X α → S → Prop} :
    ((pure value : Code S R X α) s).Wp I G Q ↔ Q (.ok value) s := Iff.rfl

@[simp] theorem wp_throw {x : X} {s : S} {Q : Except X α → S → Prop} :
    ((throw x : Code S R X α) s).Wp I G Q ↔ Q (.error x) s := Iff.rfl

@[simp] theorem wp_bind {m : Code S R X α} {f : α → Code S R X β} {s : S}
    {Q : Except X β → S → Prop} :
    ((m >>= f) s).Wp I G Q ↔ (m s).Wp I G fun outcome s' =>
      match outcome with
      | .ok value => (f value s').Wp I G Q
      | .error x => Q (.error x) s' := by
  refine Tree.wp_bind.trans ?_
  constructor
  · intro holds
    refine holds.mono fun outcome s' fine => ?_
    cases outcome <;> exact fine
  · intro holds
    refine holds.mono fun outcome s' fine => ?_
    cases outcome <;> exact fine

@[simp] theorem wp_tryCatch {m : Code S R X α} {h : X → Code S R X α} {s : S}
    {Q : Except X α → S → Prop} :
    ((tryCatch m h) s).Wp I G Q ↔ (m s).Wp I G fun outcome s' =>
      match outcome with
      | .ok value => Q (.ok value) s'
      | .error x => (h x s').Wp I G Q := by
  refine Tree.wp_bind.trans ?_
  constructor
  · intro holds
    refine holds.mono fun outcome s' fine => ?_
    cases outcome <;> exact fine
  · intro holds
    refine holds.mono fun outcome s' fine => ?_
    cases outcome <;> exact fine

@[simp] theorem wp_finally {m : Code S R X α} {f : S → S} {s : S}
    {Q : Except X α → S → Prop} :
    ((m.finally_ f) s).Wp I G Q ↔ (m s).Wp I G fun outcome s' => Q outcome (f s') :=
  Tree.wp_bind

@[simp] theorem wp_get {s : S} {Q : Except X S → S → Prop} :
    ((Code.get : Code S R X S) s).Wp I G Q ↔ Q (.ok s) s := Iff.rfl

@[simp] theorem wp_modify {f : S → S} {s : S} {Q : Except X Unit → S → Prop} :
    ((Code.modify f : Code S R X Unit) s).Wp I G Q ↔ Q (.ok ()) (f s) := Iff.rfl

@[simp] theorem wp_reply {s : S} {Q : Except X R → S → Prop} :
    ((Code.reply : Code S R X R) s).Wp I G Q ↔ ∀ r, Q (.ok r) s := Iff.rfl

@[simp] theorem wp_enter {s : S} {Q : Except X R → S → Prop} :
    ((Code.enter : Code S R X R) s).Wp I G Q ↔
      I s ∧ ∀ r s', I s' → G s s' → Q (.ok r) s' := Iff.rfl

theorem wp_ite {c : Prop} [Decidable c] {m n : Code S R X α} {s : S}
    {Q : Except X α → S → Prop} (pos : c → (m s).Wp I G Q) (neg : ¬ c → (n s).Wp I G Q) :
    ((if c then m else n) s).Wp I G Q := by
  split
  · exact pos ‹c›
  · exact neg ‹¬ c›

/-- A step that does not throw, and the rest of the program. -/
theorem wp_returns {m : Code S R X α} {f : α → Code S R X β} {s : S} {P : α → S → Prop}
    {Q : Except X β → S → Prop} (first : (m s).Wp I G (Returns P))
    (rest : ∀ value s', P value s' → (f value s').Wp I G Q) : ((m >>= f) s).Wp I G Q := by
  refine wp_bind.mpr (first.mono fun outcome s' fine => ?_)
  cases outcome with
  | ok value => exact rest value s' fine
  | error x => exact fine.elim

theorem Tree.Wp.returns {P P' : α → S → Prop} {t : Tree S R X α} (holds : t.Wp I G (Returns P))
    (weaker : ∀ value s, P value s → P' value s) : t.Wp I G (Returns P') :=
  holds.mono fun outcome s fine => by
    cases outcome with
    | ok value => exact weaker value s fine
    | error x => exact fine

/-- In a part in which nobody else gets control, it does not matter what others keep. -/
theorem Tree.Wp.alone {G' : S → S → Prop} {Q : Except X α → S → Prop} {t : Tree S R X α}
    (holds : t.Wp (fun _ => False) G Q) : t.Wp I G' Q := by
  induction t with
  | done outcome s => exact holds
  | choose k ih => exact fun r => ih r (holds r)
  | enter s k _ => exact holds.1.elim

end Wp

/-! ## How often others get control -/

section Enters

variable (P : S → Prop)

/-- On every course others get control at most `n` times, in states with `P`, whatever
they do; `Q` holds at the end, of the number that is left. -/
def Tree.Enters (Q : Nat → Except X α → S → Prop) : Tree S R X α → Nat → Prop
  | .done outcome s, n => Q n outcome s
  | .choose k, n => ∀ r, (k r).Enters Q n
  | .enter _ _, 0 => False
  | .enter s k, n + 1 => P s ∧ ∀ r s', (k r s').Enters Q n

variable {P}

theorem Tree.Enters.mono {Q Q' : Nat → Except X α → S → Prop} {t : Tree S R X α} {n : Nat}
    (holds : t.Enters P Q n) (weaker : ∀ n outcome s, Q n outcome s → Q' n outcome s) :
    t.Enters P Q' n := by
  induction t generalizing n with
  | done outcome s => exact weaker n outcome s holds
  | choose k ih => exact fun r => ih r (holds r)
  | enter s k ih =>
      cases n with
      | zero => exact holds
      | succ n => exact ⟨holds.1, fun r s' => ih r s' (holds.2 r s')⟩

theorem enters_ite {Q : Nat → Except X α → S → Prop} {n : Nat} {c : Prop} [Decidable c]
    {m m' : Code S R X α} {s : S} (pos : c → (m s).Enters P Q n)
    (neg : ¬ c → (m' s).Enters P Q n) : ((if c then m else m') s).Enters P Q n := by
  split
  · exact pos ‹c›
  · exact neg ‹¬ c›

/-- Nobody else gets control. -/
theorem enters_of_wp {G : S → S → Prop} {Q : Nat → Except X α → S → Prop}
    {Q' : Except X α → S → Prop} {n : Nat} {t : Tree S R X α}
    (holds : t.Wp (fun _ => False) G Q') (weaker : ∀ outcome s, Q' outcome s → Q n outcome s) :
    t.Enters P Q n := by
  induction t with
  | done outcome s => exact weaker outcome s holds
  | choose k ih => exact fun r => ih r (holds r)
  | enter s k _ => exact holds.1.elim

theorem Tree.enters_bind {f : Except X α → S → Tree S R X β} {Q : Nat → Except X β → S → Prop}
    {t : Tree S R X α} {n : Nat} :
    (t.bind f).Enters P Q n ↔ t.Enters P (fun n outcome s => (f outcome s).Enters P Q n) n := by
  induction t generalizing n with
  | done outcome s => rfl
  | choose k ih =>
      show (∀ r, ((k r).bind f).Enters P Q n) ↔ ∀ r, _
      exact forall_congr' fun r => ih r
  | enter s k ih =>
      cases n with
      | zero => rfl
      | succ n =>
          show (P s ∧ ∀ r s', ((k r s').bind f).Enters P Q n) ↔ _
          exact and_congr_right fun _ => forall_congr' fun r => forall_congr' fun s' => ih r s'

/-- A part in which nobody else gets control, and what follows. -/
theorem enters_after {G : S → S → Prop} {m : Code S R X α} {f : α → Code S R X β} {s : S}
    {Q' : Except X α → S → Prop} {Q : Nat → Except X β → S → Prop} {n : Nat}
    (first : (m s).Wp (fun _ => False) G Q')
    (rest : ∀ value s', Q' (.ok value) s' → (f value s').Enters P Q n)
    (fails : ∀ x s', Q' (.error x) s' → Q n (.error x) s') : ((m >>= f) s).Enters P Q n := by
  refine Tree.enters_bind.mpr (enters_of_wp first fun outcome s' fine => ?_)
  cases outcome with
  | ok value => exact rest value s' fine
  | error x => exact fails x s' fine

end Enters

/-! ## All runs -/

section Machine

variable {E : Type} (ops : E → Code S R X Unit) (allowed : S → E → Prop)
  [∀ s e, Decidable (allowed s e)]

/-- Who has control: foreign code in a state, or an operation that awaits an answer. -/
inductive Control (S R X : Type) where
  | foreign (s : S)
  | asking (k : R → Tree S R X Unit)

/-- The operations under way, the innermost first, each waiting for the foreign
code it entered. -/
structure Machine (S R X : Type) where
  control : Control S R X
  stack : List (R → S → Tree S R X Unit) := []

def settle (stack : List (R → S → Tree S R X Unit)) : Tree S R X Unit → Machine S R X
  | .done _ s => { control := .foreign s, stack }
  | .choose k => { control := .asking k, stack }
  | .enter s k => { control := .foreign s, stack := k :: stack }

inductive Label (E R : Type) where
  | start (e : E)
  | reply (r : R)
  | back (r : R)

def next (m : Machine S R X) (label : Label E R) : Option (Machine S R X) :=
  match m.control, label with
  | .foreign s, .start e => if allowed s e then some (settle m.stack (ops e s)) else none
  | .asking k, .reply r => some (settle m.stack (k r))
  | .foreign s, .back r =>
      match m.stack with
      | k :: rest => some (settle rest (k r s))
      | [] => none
  | _, _ => none

variable {ops allowed} {I : S → Prop} {G : S → S → Prop}

/-- What an operation that began in `base` ends with. -/
def Ended (I : S → Prop) (G : S → S → Prop) (base : S) (_ : Except X Unit) (s : S) : Prop :=
  I s ∧ G base s

/-- Every waiting operation can go on from the present state, and whatever it
then ends with is all right for the one below. -/
inductive Waiting (I : S → Prop) (G : S → S → Prop) (start : S) :
    List (R → S → Tree S R X Unit) → S → Prop where
  | nil {s : S} (moved : G start s) : Waiting I G start [] s
  | cons {k : R → S → Tree S R X Unit} {rest : List (R → S → Tree S R X Unit)} {base left s : S}
      (moved : G left s)
      (resume : ∀ r s', I s' → G left s' → (k r s').Wp I G (Ended I G base))
      (below : Waiting I G start rest base) : Waiting I G start (k :: rest) s

inductive Sound (I : S → Prop) (G : S → S → Prop) (start : S) : Machine S R X → Prop where
  | foreign {s : S} {stack : List (R → S → Tree S R X Unit)} (inv : I s)
      (waiting : Waiting I G start stack s) : Sound I G start { control := .foreign s, stack }
  | asking {k : R → Tree S R X Unit} {stack : List (R → S → Tree S R X Unit)} {base : S}
      (answered : ∀ r, (k r).Wp I G (Ended I G base)) (waiting : Waiting I G start stack base) :
      Sound I G start { control := .asking k, stack }

theorem Waiting.moved {start : S} {stack : List (R → S → Tree S R X Unit)} {s t : S}
    (trans : ∀ a b c, G a b → G b c → G a c) (waiting : Waiting I G start stack s)
    (step : G s t) : Waiting I G start stack t := by
  cases waiting with
  | nil moved => exact .nil (trans _ _ _ moved step)
  | cons moved resume below => exact .cons (trans _ _ _ moved step) resume below

theorem settle_sound {start base : S} {stack : List (R → S → Tree S R X Unit)}
    (refl : ∀ a, G a a) (trans : ∀ a b c, G a b → G b c → G a c) {t : Tree S R X Unit}
    (holds : t.Wp I G (Ended I G base)) (waiting : Waiting I G start stack base) :
    Sound I G start (settle stack t) := by
  cases t with
  | done outcome s => exact .foreign holds.1 (waiting.moved trans holds.2)
  | choose k => exact .asking holds waiting
  | enter s k => exact .foreign holds.1 (.cons (refl s) holds.2 waiting)

theorem next_sound {start : S} (refl : ∀ a, G a a) (trans : ∀ a b c, G a b → G b c → G a c)
    (keeps : ∀ e s, I s → allowed s e → (ops e s).Wp I G (Ended I G s)) {m m' : Machine S R X}
    {label : Label E R} (sound : Sound I G start m)
    (stepped : next ops allowed m label = some m') : Sound I G start m' := by
  cases sound with
  | foreign inv waiting =>
      rename_i s stack
      cases label with
      | start e =>
          by_cases fine : allowed s e
          · simp only [next, if_pos fine, Option.some.injEq] at stepped
            rw [← stepped]
            exact settle_sound refl trans (keeps e s inv fine) waiting
          · simp [next, if_neg fine] at stepped
      | reply r => simp [next] at stepped
      | back r =>
          cases waiting with
          | nil moved => simp [next] at stepped
          | cons moved resume below =>
              simp only [next, Option.some.injEq] at stepped
              rw [← stepped]
              exact settle_sound refl trans (resume r s inv moved) below
  | asking answered waiting =>
      cases label with
      | start e => simp [next] at stepped
      | reply r =>
          simp only [next, Option.some.injEq] at stepped
          rw [← stepped]
          exact settle_sound refl trans (answered r) waiting
      | back r => simp [next] at stepped

/-- The states in which foreign code has control, after any run. -/
def Reaches (ops : E → Code S R X Unit) (allowed : S → E → Prop) [∀ s e, Decidable (allowed s e)]
    (start s : S) (stack : List (R → S → Tree S R X Unit)) : Prop :=
  ∃ history, Transition.run (next ops allowed) { control := .foreign start } history =
    some { control := .foreign s, stack }

/-- An invariant that every operation keeps holds whenever foreign code has
control, and with no operation under way the state is related to the first one. -/
theorem control_inv {start s : S} {stack : List (R → S → Tree S R X Unit)} (refl : ∀ a, G a a)
    (trans : ∀ a b c, G a b → G b c → G a c)
    (keeps : ∀ e s, I s → allowed s e → (ops e s).Wp I G (Ended I G s)) (first : I start)
    (reached : Reaches ops allowed start s stack) : I s ∧ (stack = [] → G start s) := by
  obtain ⟨history, ran⟩ := reached
  have sound := Transition.history_induction (P := fun _ m => Sound I G start m)
    (Sound.foreign first (.nil (refl start)))
    (fun _ _ _ _ sound stepped => next_sound refl trans keeps sound stepped) history _ ran
  cases sound with
  | foreign inv waiting =>
      refine ⟨inv, ?_⟩
      rintro rfl
      cases waiting with
      | nil moved => exact moved

end Machine

end Reentrant
