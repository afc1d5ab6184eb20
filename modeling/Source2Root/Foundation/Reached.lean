import Source2Root.Foundation.LifecycleKeep

/-!
# Every state that a run comes to

Whatever the engine, the scripts and the extensions call, in whatever order and from
inside each other: the states in which they have control are made of the single
changes, so that what every single change keeps holds in all of them.
-/

set_option autoImplicit false

namespace Source2Root.Foundation

open Reentrant

variable {base s : State}

theorem discard_keeps {α : Type} {m : M α} (keeps : Keeps base m s) :
    Keeps base (discard m) s :=
  keeps.bind fun _ _ within => Runs.pure within trivial

theorem Native.keeps (within : Within base s) {a : Addr} (inside : s.active a ≠ 0) {what : Native}
    (allowed : what.allowed s a = true) : Keeps base (what.perform a) s := by
  cases what with
  | registerCommand name permission callback usage =>
      exact discard_keeps (registerCommand_keeps within inside name permission callback usage)
  | listenEvent name callback => exact discard_keeps (listenEvent_keeps within inside name callback)
  | setCommandMenu name callback =>
      exact discard_keeps (setCommandMenu_keeps within inside name callback)
  | openCommandMenu handle name => exact discard_keeps (openCommandMenu_keeps within handle name)
  | createTimer count callback target acrossMaps =>
      exact discard_keeps (createTimer_keeps within inside count callback target acrossMaps)
  | cancelTimer handle => exact cancelTimer_keeps within a handle
  | createMenu title permission callback back =>
      exact discard_keeps (createMenu_keeps within inside title permission callback back)
  | addMenuItem handle text enabled value =>
      exact addMenuItem_keeps within handle text enabled value
  | showMenu handle player timeout =>
      exact discard_keeps (showMenu_keeps within inside handle player timeout)
  | closeMenu handle => exact discard_keeps (closeMenu_keeps within handle)
  | createConVar definition => exact discard_keeps (createConVar_keeps within inside definition)
  | writeConVar handle value => exact discard_keeps (writeConVar_keeps within handle value)
  | closeConVar handle => exact discard_keeps (closeConVarNative_keeps within inside handle)
  | playerAction handle => exact discard_keeps (playerAction_keeps within handle)
  | findTargets capacity => exact discard_keeps (findTargets_keeps within inside capacity)
  | setPlayerMuted handle muted => exact discard_keeps (setPlayerMuted_keeps within handle muted)
  | setPlayerGagged handle gagged =>
      exact discard_keeps (setPlayerGagged_keeps within handle gagged)
  | changeMap name => exact discard_keeps (changeMap_keeps within inside name)
  | restartRound seconds => exact discard_keeps (restartRound_keeps within seconds)
  | reloadAdmins handle => exact discard_keeps (reloadAdmins_keeps within handle)
  | openConfigFile name => exact discard_keeps (openConfigFile_keeps within inside name)
  | readConfigLine handle capacity =>
      exact discard_keeps (readConfigLine_keeps within handle capacity)
  | closeConfigFile handle => exact closeConfigFile_keeps within a handle
  | extension r => exact callNative_keeps within inside (of_decide_eq_true allowed)

theorem ContextCall.keeps (within : Within base s) {a : Addr} {r : Registration}
    (member : (a, r) ∈ s.invocations) (what : ContextCall) : Keeps base (what.perform a r) s := by
  cases what with
  | createResource type data destroy =>
      exact discard_keeps (createResource_keeps within member type data destroy)
  | closeResource handle type => exact closeResource_keeps within member handle type
  | captureCallback function => exact discard_keeps (captureCallback_keeps within member function)

theorem Service.keeps (within : Within base s) (what : Service) : Keeps base what.perform s := by
  cases what with
  | registerNative owner spec => exact discard_keeps (register_keeps within owner spec false)
  | registerContextNative owner spec =>
      exact discard_keeps (registerContextNative_keeps within owner spec)
  | unregisterNative owner r => exact discard_keeps (unregisterNative_keeps within owner r)
  | deliverCallback owner token valid =>
      exact discard_keeps (deliverCallback_keeps within owner token valid)
  | cancelCallback owner token =>
      exact discard_keeps (cancelCallback_runs (E := True) within owner token).keeps
  | retainCallback owner token => exact discard_keeps (retainCallback_keeps within owner token)
  | invokeCallback owner token valid =>
      exact discard_keeps (invokeCallback_keeps within owner token valid)
  | consumerStatus provider owner => exact discard_keeps (consumerStatus_keeps within provider owner)
  | consumerPlayer provider owner slot generation =>
      exact discard_keeps (consumerPlayer_keeps within provider owner slot generation)
  | openNativeMenu owner generation spec =>
      exact discard_keeps (openNativeMenu_keeps within owner generation spec)
  | closeNativeMenu owner session =>
      exact discard_keeps (closeNativeMenu_keeps within owner session)

theorem Report.keeps (within : Within base s) (what : Report) : Keeps base what.perform s := by
  cases what with
  | load path => exact discard_keeps (load_keeps within path)
  | unload id => exact discard_keeps (unload_keeps within id)
  | reload id => exact discard_keeps (reload_keeps within id)
  | pause id => exact discard_keeps (pause_keeps within id)
  | resume id => exact discard_keeps (resume_keeps within id)
  | retry id => exact discard_keeps (retry_keeps within id)
  | unloadAll => exact discard_keeps (unloadAll_keeps within)
  | discover place => exact discard_keeps (discover_keeps within place)
  | refresh place => exact discard_keeps (refresh_keeps within place)
  | shutdown => exact discard_keeps (shutdown_keeps within)
  | preparePause => exact discard_keeps (preparePause_keeps within)
  | nativeResumed => exact nativeResumed_keeps within
  | reloadPermissions => exact reloadPermissions_keeps within
  | setSetting name value => exact discard_keeps (setSetting_keeps within name value)
  | setSettings values => exact discard_keeps (setSettings_keeps within values)
  | dispatch origin slot text => exact discard_keeps (dispatch_keeps within origin slot text)
  | event name => exact event_keeps within name
  | tick now => exact tick_keeps within now
  | mapChanged => exact mapChanged_runs within
  | disconnected slot generation => exact (disconnected_runs within slot generation).fine
  | menuInput player session input =>
      exact discard_keeps (menuInput_keeps within player session input)
  | filterVoice label => exact filterVoice_keeps within label

theorem Call.keeps (within : Within base s) {call : Call} (allowed : call.allowed s = true) :
    Keeps base call.perform s := by
  cases call with
  | report what => exact what.keeps within
  | service what => exact what.keeps within
  | native a what =>
      obtain ⟨inside, allowed⟩ := Bool.and_eq_true_iff.mp allowed
      exact Native.keeps within (by simpa using inside) allowed
  | context a r what =>
      obtain ⟨member, -⟩ := Bool.and_eq_true_iff.mp allowed
      exact ContextCall.keeps within (by simpa using member) what

/-- Every call, from any state that the single changes lead to, ends in such a state. -/
theorem Call.ended {call : Call} (reach : Reach s) (allowed : call.allowed s = true) :
    (call.perform s).Wp Reach Later (Ended Reach Later s) :=
  Tree.Wp.mono (Call.keeps (Within.start reach) allowed) fun _ _ fine =>
    ⟨fine.1.reach, fine.1.later⟩

variable {start : State} {stack : Stack}

/-- The states of a run are made of the single changes. -/
theorem Reached.reach (boot : Boot start) (reached : Reached start s stack) : Reach s :=
  (control_inv Later.refl (fun _ _ _ => Later.trans)
    (fun _ _ reach allowed => Call.ended reach allowed) (.boot boot) reached).1

/-- With no call under way, the single changes lead from the start to the state. -/
theorem Reached.later (boot : Boot start) (reached : Reached start s []) : Later start s :=
  (control_inv Later.refl (fun _ _ _ => Later.trans)
    (fun _ _ reach allowed => Call.ended reach allowed) (.boot boot) reached).2 rfl

/-- With no call under way, the counters of the calls are those of the start. -/
theorem Reached.idle (boot : Boot start) (reached : Reached start s []) :
    s.calls = start.calls := (reached.later boot).calls

end Source2Root.Foundation
