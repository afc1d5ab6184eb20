import Source2Root.Foundation.Dispatch

/-!
# All runs of the plugin manager

Who may call what: the engine reports and manages at any time, an extension
uses its services at any time, a script calls natives while one of its
functions runs, and an extension uses the context of a native while that native
runs.  All of them may do so again from inside each other.
-/

set_option autoImplicit false

namespace Source2Root.Foundation

open Reentrant

/-- The natives of a running script, with what their arguments decode to. -/
inductive Native where
  | registerCommand (name permission : String) (callback : Function) (usage : String)
  | listenEvent (name : String) (callback : Function)
  | setCommandMenu (name : String) (callback : Function)
  | openCommandMenu (handle : HandleId) (name : String)
  | createTimer (count : Int) (callback : Function) (target : HandleId) (acrossMaps : Int)
  | cancelTimer (handle : HandleId)
  | createMenu (title permission : String) (callback : Function) (back : Option Function)
  | addMenuItem (handle : HandleId) (text : String) (enabled value : Int)
  | showMenu (handle player : HandleId) (timeout : Int)
  | closeMenu (handle : HandleId)
  | createConVar (definition : ConVarDefinition)
  | writeConVar (handle : HandleId) (value : ConVarValue)
  | closeConVar (handle : HandleId)
  | playerAction (handle : HandleId)
  | findTargets (capacity : Int)
  | setPlayerMuted (handle : HandleId) (muted : Bool)
  | setPlayerGagged (handle : HandleId) (gagged : Bool)
  | changeMap (name : String)
  | restartRound (seconds : Int)
  | reloadAdmins (handle : HandleId)
  | openConfigFile (name : String)
  | readConfigLine (handle : HandleId) (capacity : Nat)
  | closeConfigFile (handle : HandleId)
  | extension (registration : Registration)

def discard {α : Type} (m : M α) : M Unit := do let _ ← m

def Native.perform (a : Addr) : Native → M Unit
  | .registerCommand name permission callback usage =>
      discard (Foundation.registerCommand a name permission callback usage)
  | .listenEvent name callback => discard (Foundation.listenEvent a name callback)
  | .setCommandMenu name callback => discard (Foundation.setCommandMenu a name callback)
  | .openCommandMenu handle name => discard (Foundation.openCommandMenu a handle name)
  | .createTimer count callback target acrossMaps =>
      discard (Foundation.createTimer a count callback target acrossMaps)
  | .cancelTimer handle => Foundation.cancelTimer a handle
  | .createMenu title permission callback back =>
      discard (Foundation.createMenu a title permission callback back)
  | .addMenuItem handle text enabled value => Foundation.addMenuItem a handle text enabled value
  | .showMenu handle player timeout => discard (Foundation.showMenu a handle player timeout)
  | .closeMenu handle => discard (Foundation.closeMenu a handle)
  | .createConVar definition => discard (Foundation.createConVar a definition)
  | .writeConVar handle value => discard (Foundation.writeConVar a handle value)
  | .closeConVar handle => discard (closeConVarNative a handle)
  | .playerAction handle => discard (Foundation.playerAction a handle)
  | .findTargets capacity => discard (Foundation.findTargets a capacity)
  | .setPlayerMuted handle muted => discard (Foundation.setPlayerMuted a handle muted)
  | .setPlayerGagged handle gagged => discard (Foundation.setPlayerGagged a handle gagged)
  | .changeMap name => discard (Foundation.changeMap a name)
  | .restartRound seconds => discard (Foundation.restartRound a seconds)
  | .reloadAdmins handle => discard (Foundation.reloadAdmins a handle)
  | .openConfigFile name => discard (Foundation.openConfigFile a name)
  | .readConfigLine handle capacity => discard (Foundation.readConfigLine a handle capacity)
  | .closeConfigFile handle => Foundation.closeConfigFile a handle
  | .extension r => callNative a r

/-- What an extension does through the context of a native call. -/
inductive ContextCall where
  | createResource (type data : Nat) (destroy : Function)
  | closeResource (handle : HandleId) (type : Nat)
  | captureCallback (function : Function)

def ContextCall.perform (a : Addr) (r : Registration) : ContextCall → M Unit
  | .createResource type data destroy => discard (Foundation.createResource a r type data destroy)
  | .closeResource handle type => Foundation.closeResource a r handle type
  | .captureCallback function => discard (Foundation.captureCallback a r function)

/-- The services an extension may use at any time. -/
inductive Service where
  | registerNative (owner : PluginHandle) (spec : NativeSpec)
  | registerContextNative (owner : PluginHandle) (spec : NativeSpec)
  | unregisterNative (owner : PluginHandle) (registration : Registration)
  | deliverCallback (owner : PluginHandle) (token : Token) (valid : Bool)
  | cancelCallback (owner : PluginHandle) (token : Token)
  | retainCallback (owner : PluginHandle) (token : Token)
  | invokeCallback (owner : PluginHandle) (token : Token) (valid : Bool)
  | consumerStatus (provider : PluginHandle) (owner : Nat)
  | consumerPlayer (provider : PluginHandle) (owner : Nat) (slot : Int) (generation : Nat)
  | openNativeMenu (owner : PluginHandle) (generation : Nat) (spec : MenuSpec)
  | closeNativeMenu (owner : PluginHandle) (session : Session)

def Service.perform : Service → M Unit
  | .registerNative owner spec => discard (Foundation.registerNative owner spec)
  | .registerContextNative owner spec => discard (Foundation.registerContextNative owner spec)
  | .unregisterNative owner r => discard (Foundation.unregisterNative owner r)
  | .deliverCallback owner token valid => discard (Foundation.deliverCallback owner token valid)
  | .cancelCallback owner token => discard (Foundation.cancelCallback owner token)
  | .retainCallback owner token => discard (Foundation.retainCallback owner token)
  | .invokeCallback owner token valid => discard (Foundation.invokeCallback owner token valid)
  | .consumerStatus provider owner => discard (Foundation.consumerStatus provider owner)
  | .consumerPlayer provider owner slot generation =>
      discard (Foundation.consumerPlayer provider owner slot generation)
  | .openNativeMenu owner generation spec =>
      discard (Foundation.openNativeMenu owner generation spec)
  | .closeNativeMenu owner session => discard (Foundation.closeNativeMenu owner session)

/-- What the engine and the console do. -/
inductive Report where
  | load (path : Path)
  | unload (id : String)
  | reload (id : String)
  | pause (id : String)
  | resume (id : String)
  | retry (id : String)
  | unloadAll
  | discover (place : String)
  | refresh (place : String)
  | shutdown
  | preparePause
  | nativeResumed
  | reloadPermissions
  | setSetting (name value : List Char)
  | setSettings (values : Settings.Field → List Char)
  | dispatch (origin : Origin) (slot : Int) (text : List Char)
  | event (name : String)
  | tick (now : Int)
  | mapChanged
  | disconnected (slot : Int) (generation : Nat)
  | menuInput (player : Player) (session : Session) (input : MenuInput)
  | filterVoice (label : Voice.Label)

def Report.perform : Report → M Unit
  | .load path => discard (Foundation.load path)
  | .unload id => discard (Foundation.unload id)
  | .reload id => discard (Foundation.reload id)
  | .pause id => discard (Foundation.pause id)
  | .resume id => discard (Foundation.resume id)
  | .retry id => discard (Foundation.retry id)
  | .unloadAll => discard Foundation.unloadAll
  | .discover place => discard (Foundation.discover place)
  | .refresh place => discard (Foundation.refresh place)
  | .shutdown => discard Foundation.shutdown
  | .preparePause => discard Foundation.preparePause
  | .nativeResumed => Foundation.nativeResumed
  | .reloadPermissions => Foundation.reloadPermissions
  | .setSetting name value => discard (Foundation.setSetting name value)
  | .setSettings values => discard (Foundation.setSettings values)
  | .dispatch origin slot text => discard (Foundation.dispatch origin slot text)
  | .event name => Foundation.event name
  | .tick now => Foundation.tick now
  | .mapChanged => Foundation.mapChanged
  | .disconnected slot generation => Foundation.disconnected slot generation
  | .menuInput player session input => discard (Foundation.menuInput player session input)
  | .filterVoice label => Foundation.filterVoice label

inductive Call where
  | report (report : Report)
  | service (service : Service)
  | native (a : Addr) (native : Native)
  | context (a : Addr) (registration : Registration) (call : ContextCall)

def Call.perform : Call → M Unit
  | .report what => what.perform
  | .service what => what.perform
  | .native a what => what.perform a
  | .context a r what => what.perform a r

/-- A request of the game, or players who come and go. -/
def outside : Voice.Label → Bool
  | .request .. => true
  | .move _ => true
  | _ => false

def Report.allowed : Report → Bool
  | .filterVoice label => outside label
  | _ => true

def Native.allowed (s : State) (a : Addr) : Native → Bool
  | .extension r => decide (r ∈ s.providersOf a)
  | _ => true

/-- A function of the script is running; for the context of a native, that
native is. -/
def Call.allowed (s : State) : Call → Bool
  | .report what => what.allowed
  | .service _ => true
  | .native a what => s.active a != 0 && what.allowed s a
  | .context a r _ => s.invocations.contains (a, r) &&
      (s.providers[r]?.any Provider.contextual)

/-- A manager that was just constructed. -/
def State.boot (now : Int) (publicTrigger silentTrigger : List Char) : State :=
  { now, publicTrigger, silentTrigger }

/-- The operations that wait for foreign code, the innermost first. -/
abbrev Stack := List (Reply → State → Tree State Reply Raised Unit)

/-- Foreign code has control in this state, after some run. -/
def Reached (start s : State) (stack : Stack) : Prop :=
  Reaches Call.perform (fun s call => Call.allowed s call = true) start s stack

end Source2Root.Foundation
