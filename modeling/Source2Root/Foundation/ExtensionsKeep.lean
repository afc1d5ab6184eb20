import Source2Root.Foundation.NativesKeep

/-!
# The services for extensions keep to the single changes

Registration, calls of natives and what happens inside them, callback tokens.
-/

set_option autoImplicit false

namespace Source2Root.Foundation

open Reentrant Handles

variable {I : State → Prop} {E : Prop} {base s : State} {a : Addr}

/-! ## Registration -/

theorem register_keeps (within : Within base s) (owner : PluginHandle) (spec : NativeSpec)
    (contextual : Bool) : Keeps base (register owner spec contextual) s := by
  unfold register
  refine Runs.ite (fun _ => Runs.pure within trivial) fun _ => ?_
  refine Runs.ite (fun _ => Runs.pure within trivial) fun _ => Runs.get ?_
  refine Runs.ite (fun _ => Runs.pure within trivial) fun _ => ?_
  refine Runs.ite (fun _ => Runs.pure within trivial) fun numbered => ?_
  have number : s.nextProvider ≠ maxUInt64 := by
    intro last
    exact numbered (by simp [last])
  exact Runs.modify (Runs.pure (within.act (.addProvider _ rfl number) rfl) trivial)

theorem registerContextNative_keeps (within : Within base s) (owner : PluginHandle)
    (spec : NativeSpec) : Keeps base (registerContextNative owner spec) s := by
  unfold registerContextNative
  refine Runs.ite (fun _ => Runs.pure within trivial) fun _ => ?_
  refine Runs.ite (fun _ => Runs.pure within trivial) fun _ => ?_
  refine Runs.ite (fun _ => Runs.pure within trivial) fun _ => Runs.get ?_
  exact Runs.ite (fun _ => Runs.pure within trivial) fun _ => register_keeps within owner spec true

theorem unregisterNative_keeps (within : Within base s) (owner : PluginHandle) (r : Registration) :
    Keeps base (unregisterNative owner r) s := by
  unfold unregisterNative
  refine Runs.get ?_
  cases there : s.providers[r]? with
  | none => exact Runs.pure within trivial
  | some p =>
      refine Runs.ite (fun _ => Runs.pure within trivial) fun _ => ?_
      refine Runs.ite (fun _ => Runs.pure within trivial) fun busy => ?_
      obtain ⟨unused, inactive⟩ := not_or.mp busy
      refine Runs.modify (Runs.pure (within.act ?_ rfl) trivial)
      exact .eraseProvider r p there (not_not.mp unused) (not_not.mp inactive)

/-! ## Inside a native -/

theorem callNative_keeps (within : Within base s) (inside : s.active a ≠ 0) {r : Registration}
    (bound : r ∈ s.providersOf a) : Keeps base (callNative a r) s := by
  have entered : Act .quiet s (s.extEnter a r) := .extEnter a r inside bound
  have reach := within.reach.act entered
  unfold callNative
  refine Runs.modify (wp_bind.mpr (wp_enter.mpr ⟨reach, fun result s' reach' later => ?_⟩))
  have invocations : s'.invocations = (a, r) :: s.invocations := congrArg Calls.invocations later.calls
  have providers : s'.providerActive =
      Function.update s.providerActive r (s.providerActive r + 1) :=
    congrArg Calls.providerActive later.calls
  have busy : s'.providerActive r ≠ 0 := by
    rw [providers, Function.update_self]
    exact Nat.succ_ne_zero _
  have left : Act .quiet s' (s'.extLeave r) := .extLeave a r s.invocations invocations busy
  have back : Within base (s'.extLeave r) := by
    refine within.over entered (reach'.act left) ?_ (later.onward.trans left.onward) fun managed =>
      (later.quietly managed).trans (left.quietly reach')
    have rest := later.calls
    simp only [State.calls, Calls.mk.injEq] at rest ⊢
    refine ⟨rest.1, rest.2.1, ?_, ?_, rest.2.2.2.2⟩
    · show s'.invocations.tail = s.invocations
      rw [invocations, List.tail_cons]
    · show Function.update s'.providerActive r (s'.providerActive r - 1) = s.providerActive
      rw [providers, Function.update_self, Function.update_idem, Nat.add_sub_cancel,
        Function.update_eq_self]
  refine Runs.modify (Runs.ite (fun _ => Runs.throw back _ trivial) fun _ => Runs.pure back trivial)

theorem createResource_keeps (within : Within base s) {r : Registration}
    (member : (a, r) ∈ s.invocations) (type data : Nat) (destroy : Function) :
    Keeps base (createResource a r type data destroy) s := by
  obtain ⟨inside, bound⟩ := within.reach.binds.inside a r member
  unfold createResource
  refine Runs.ite (fun _ => Runs.throw within _ trivial) fun _ => ?_
  refine Looks.bind (limit_active within inside) fun _ ⟨making, loaded⟩ => Runs.get ?_
  obtain ⟨p, there⟩ := within.reach.binds.known a r bound
  refine Runs.expected _ there ?_
  split
  · rename_i id handles added
    refine Runs.modify (Runs.pure (within.act ?_ rfl) trivial)
    exact .createResource a r p type _ id handles making bound there rfl added
  · exact Runs.throw within _ trivial

theorem findResource_looks (within : Within base s) {r : Registration}
    (member : (a, r) ∈ s.invocations) (handle : HandleId) (type : Nat) :
    Looks base (findResource a r handle type) s fun _ => True := by
  obtain ⟨p, there⟩ := within.reach.binds.known a r (within.reach.binds.inside a r member).2
  unfold findResource
  refine Runs.get (Looks.bind (getHandle_looks within handle (s.owner a) ExtensionType)
    fun value _ => ?_)
  split
  · refine Runs.get (Runs.expected _ there ?_)
    exact Runs.ite (fun _ => Runs.throw within _ trivial) fun _ => Runs.pure within ⟨rfl, trivial⟩
  · exact Runs.throw within _ trivial

theorem closeResource_keeps (within : Within base s) {r : Registration}
    (member : (a, r) ∈ s.invocations) (handle : HandleId) (type : Nat) :
    Keeps base (closeResource a r handle type) s := by
  unfold closeResource
  refine Looks.bind (findResource_looks within member handle type) fun _ _ => Runs.get ?_
  exact removeHandle_runs within rfl (fun _ => trivial) (by decide) fun is => (by cases is)

theorem captureCallback_keeps (within : Within base s) {r : Registration}
    (member : (a, r) ∈ s.invocations) (function : Function) :
    Keeps base (captureCallback a r function) s := by
  obtain ⟨inside, bound⟩ := within.reach.binds.inside a r member
  unfold captureCallback
  refine Looks.bind (limit_active within inside) fun _ ⟨making, loaded⟩ => Runs.get ?_
  refine Runs.ite (fun _ => Runs.throw within _ trivial) fun token => ?_
  obtain ⟨p, there⟩ := within.reach.binds.known a r bound
  refine Runs.expected _ there ?_
  refine Runs.modify (Runs.pure (within.act ?_ rfl) trivial)
  exact .capture a r p function making loaded bound there token

/-! ## Callback tokens -/

/-- A token goes, or there is none to go. -/
theorem cancelCallback_runs (within : Within base s) (owner : PluginHandle) (token : Token) :
    Runs I E base (cancelCallback owner token) s fun _ s' => s' = s ∨
      ∃ callback, s.callbacks[token]? = some callback ∧ s' = s.cancel token callback := by
  unfold cancelCallback
  refine Runs.ite (fun _ => Runs.pure within (Or.inl rfl)) fun _ => Runs.get ?_
  cases there : s.callbacks[token]? with
  | none => exact Runs.pure within (Or.inl rfl)
  | some callback =>
      refine Runs.ite (fun _ => Runs.pure within (Or.inl rfl)) fun _ => ?_
      refine Runs.modify (Runs.pure (within.act ?_ rfl) (Or.inr ⟨callback, rfl, rfl⟩))
      exact .cancel token callback there

/-- A token of the provider goes. -/
theorem cancelCallback_eq {token : Token} {callback : ExtensionCallback}
    (real : callback.provider ≠ 0 ∧ token ≠ 0) (there : s.callbacks[token]? = some callback) :
    cancelCallback callback.provider token s = .done (.ok .ok) (s.cancel token callback) := by
  unfold cancelCallback
  rw [if_neg (not_or.mpr real)]
  change Tree.bind _ (Tree.done (.ok s) s) = _
  simp only [Tree.bind, there]
  rw [if_neg (not_not.mpr rfl)]
  rfl

theorem deliverCallback_keeps (within : Within base s) (owner : PluginHandle) (token : Token)
    (valid : Bool) : Keeps base (deliverCallback owner token valid) s := by
  unfold deliverCallback
  refine Runs.ite (fun _ => Runs.pure within trivial) fun real => Runs.get ?_
  cases there : s.callbacks[token]? with
  | none => exact Runs.pure within trivial
  | some callback =>
      refine Runs.ite (fun _ => Runs.pure within trivial) fun mine => ?_
      have mine : callback.provider = owner := not_not.mp mine
      refine Runs.ite (fun _ => Runs.pure within trivial) fun oneShot => ?_
      refine Runs.ite (fun _ => ?_) fun _ => Runs.ite (fun _ => Runs.pure within trivial)
        fun ready => ?_
      · refine Runs.bind (cancelCallback_runs within owner token) fun _ s' within' _ => ?_
        exact Runs.pure within' trivial
      · simp only [Bool.or_eq_true, bne_iff_ne, ne_eq, Bool.not_eq_true', not_or, not_not,
          Bool.not_eq_true] at ready
        obtain ⟨⟨unmanaged, idle⟩, running⟩ := ready
        subst mine
        have taken : Within base (s.note
            (.run token callback.provider callback.script true)) :=
          within.act (.run token callback true there running unmanaged
            (by simpa using oneShot)) rfl
        have entitled : State.Entitled ((s.note (.run token callback.provider callback.script
            true)).cancel token callback) callback.script (.delivered token) :=
          ⟨unmanaged, s.journal, callback.provider, List.append_assoc ..⟩
        have real : callback.provider ≠ 0 ∧ token ≠ 0 :=
          ⟨fun is => real (Or.inl is), fun is => real (Or.inr (Or.inl is))⟩
        refine Runs.modify (Runs.known (cancelCallback_eq real there) ?_)
        refine Keeps.bind (invoke_keeps (taken.act (.cancel token callback there) rfl) _ running
          entitled) fun _ s'' within'' => ?_
        exact Runs.pure within'' trivial

theorem retainCallback_keeps (within : Within base s) (owner : PluginHandle) (token : Token) :
    Keeps base (retainCallback owner token) s := by
  unfold retainCallback
  refine Runs.ite (fun _ => Runs.pure within trivial) fun _ => Runs.get ?_
  cases there : s.callbacks[token]? with
  | none => exact Runs.pure within trivial
  | some callback =>
      refine Runs.ite (fun _ => Runs.pure within trivial) fun _ => ?_
      refine Runs.ite (fun _ => ?_) fun _ => ?_
      · refine Runs.bind (cancelCallback_runs within owner token) fun _ s' within' _ => ?_
        exact Runs.pure within' trivial
      · exact Runs.modify (Runs.pure (within.act (.retain token callback there) rfl) trivial)

def State.deeper (s : State) : State := { s with callbackDepth := s.callbackDepth + 1 }

def State.shallower (s : State) : State := { s with callbackDepth := s.callbackDepth - 1 }

/-- A call of a running script, one callback deeper, is over. -/
theorem callback_over (within : Within base s) (depth : s.callbackDepth < callbackMaxDepth)
    (running : s.state a = .running) {reason : Reason} (entitled : s.deeper.Entitled a reason)
    {s' : State} (reach : Reach s') (later : Later (s.deeper.enter a reason) s')
    (success : Bool) :
    Within base (s'.called a success).shallower := by
  have deeper : Act .quiet s s.deeper := .deeper depth
  have reach1 := within.reach.act deeper
  have loaded := (within.reach.living.home a (Or.inl running)).1
  have entered : Act .quiet s.deeper (s.deeper.enter a reason) :=
    .enter a reason running loaded entitled
  obtain ⟨reached, calls, quietly, onward⟩ := invoke_over reach1 reach later success
  have level : (s'.called a success).callbackDepth = s.callbackDepth + 1 :=
    congrArg Calls.callbackDepth calls
  have back : Act .quiet (s'.called a success) (s'.called a success).shallower :=
    .shallower (level ▸ Nat.succ_ne_zero _)
  refine within.over deeper (reached.act back) ?_
    ((entered.onward.trans onward).trans back.onward) fun managed =>
    ((entered.quietly reach1).trans (quietly managed)).trans (back.quietly reached)
  simp only [State.calls, Calls.mk.injEq] at calls ⊢
  refine ⟨calls.1, calls.2.1, calls.2.2.1, calls.2.2.2.1, ?_, calls.2.2.2.2.2⟩
  show (s'.called a success).callbackDepth - 1 = s.callbackDepth
  rw [level, Nat.add_sub_cancel]

theorem invokeCallback_keeps (within : Within base s) (owner : PluginHandle) (token : Token)
    (valid : Bool) : Keeps base (invokeCallback owner token valid) s := by
  unfold invokeCallback
  refine Runs.ite (fun _ => Runs.pure within trivial) fun _ => Runs.get ?_
  cases there : s.callbacks[token]? with
  | none => exact Runs.pure within trivial
  | some callback =>
      refine Runs.ite (fun _ => Runs.pure within trivial) fun mine => ?_
      simp only [not_or, not_not, Bool.not_eq_true, Bool.not_eq_false'] at mine
      obtain ⟨rfl, persistent⟩ := mine
      refine Runs.ite (fun _ => ?_) fun _ => Runs.ite (fun _ => Runs.pure within trivial)
        fun ready => ?_
      · refine Runs.bind (cancelCallback_runs within _ token) fun _ s' within' _ => ?_
        exact Runs.pure within' trivial
      refine Runs.ite (fun _ => Runs.pure within trivial) fun _ => ?_
      simp only [Bool.or_eq_true, bne_iff_ne, ne_eq, not_or, not_not, Bool.not_eq_true,
        decide_eq_true_eq, Nat.not_le] at ready
      obtain ⟨⟨unmanaged, running⟩, depth⟩ := ready
      have noted : Within base (s.note (.run token callback.provider callback.script false)) :=
        within.act (.run token callback false there running unmanaged (by simp [persistent])) rfl
      have reach1 : Reach (s.note (.run token callback.provider callback.script false)).deeper :=
        noted.reach.act (.deeper depth)
      have entitled : State.Entitled
          (s.note (.run token callback.provider callback.script false)).deeper callback.script
          (.invoked token) := ⟨unmanaged, s.journal, callback.provider, rfl⟩
      have loaded := (within.reach.living.home _ (Or.inl running)).1
      have reach2 : Reach ((s.note (.run token callback.provider callback.script
          false)).deeper.enter callback.script (.invoked token)) :=
        reach1.act (.enter _ _ running loaded entitled)
      refine Runs.modify (Runs.modify (Runs.modify (wp_bind.mpr (wp_enter.mpr ⟨reach2, ?_⟩))))
      intro r s' reach' later
      refine Runs.ite (fun failed => ?_) fun succeeded => ?_
      · refine bind_wp (cancelCallback_runs (E := False) (Within.start reach') _ token)
          (fun _ s'' after => ?_) fun x s'' after => (after.2.2 x rfl).elim
        have over_ := callback_over noted depth running entitled after.1.reach
          (later.trans after.1.later) false
        exact Runs.modify (Runs.modify (Runs.modify (Runs.pure over_ trivial)))
      · have over_ := callback_over noted depth running entitled reach' later true
        exact Runs.modify (Runs.modify (Runs.pure over_ trivial))

/-! ## Questions about a script -/

theorem consumerStatus_running {provider : PluginHandle} {owner : Nat}
    (ok : s.consumerStatus provider owner = .ok) (found : s.scriptOf owner = some a) :
    s.state a = .running := by
  unfold State.consumerStatus at ok
  split at ok
  · cases ok
  rw [found] at ok
  dsimp only at ok
  split at ok
  · cases state : s.state a with
    | running => rfl
    | _ =>
        rw [state] at ok
        cases ok
  · cases ok

theorem consumerStatus_keeps (within : Within base s) (provider : PluginHandle) (owner : Nat) :
    Keeps base (consumerStatus provider owner) s := by
  unfold consumerStatus
  exact Runs.get (Runs.modify (Runs.pure (within.act (.status provider owner) rfl) trivial))

theorem consumerPlayer_keeps (within : Within base s) (provider : PluginHandle) (owner : Nat)
    (slot : Int) (generation : Nat) :
    Keeps base (consumerPlayer provider owner slot generation) s := by
  unfold consumerPlayer
  refine Runs.ite (fun _ => Runs.pure within trivial) fun _ => Runs.get ?_
  refine Runs.ite (fun _ => Runs.pure within trivial) fun ok => ?_
  refine Runs.ite (fun _ => Runs.pure within trivial) fun _ => Runs.reply fun r => ?_
  refine Runs.ite (fun _ => Runs.pure within trivial) fun _ => ?_
  refine Runs.ite (fun _ => Runs.pure within trivial) fun _ => ?_
  cases found : s.scriptOf owner with
  | none => exact Runs.pure within trivial
  | some a =>
      have running := consumerStatus_running (not_not.mp ok) found
      refine Runs.handle (P := fun _ _ => True) ?_ fun x s' within' => ?_
      · refine Keeps.bind (playerHandle_keeps within r.player (Or.inl running))
          fun handle s' within' => ?_
        exact Runs.pure within' trivial
      · cases x with
        | nativeError => exact Runs.pure within' trivial
        | runtimeError => exact Runs.throw within' _ trivial

end Source2Root.Foundation
