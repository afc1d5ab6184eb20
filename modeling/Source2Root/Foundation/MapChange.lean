import Source2Root.Foundation.Life
import Source2Root.Chronicle

/-!
# The pending change of the map

What the journal says about a request for a map change: the host is called for
it at most once, in a tick with nothing under way, for the script that asked,
and not after anything that ended the request.
-/

set_option autoImplicit false

namespace Source2Root.Foundation

open Chronicle

/-- After this nothing may come of the request. -/
def Ends (request : PendingMap) : Happening → Prop
  | .asked _ => True
  | .mapCall .. => True
  | .failed owner _ => owner = request.owner
  | .pausing owner => owner = request.owner
  | .cleaning owner => owner = request.owner
  | .newMap => True
  | .suspended => True
  | _ => False

/-- The request was made, and nothing has ended it. -/
def Stands (journal : List Happening) (request : PendingMap) : Prop :=
  ∃ before after, journal = before ++ .asked request :: after ∧ ∀ e ∈ after, ¬ Ends request e

/-- What must be the case when the host is called. -/
structure Rightful (journal : List Happening) (request : PendingMap) (idle : Bool)
    (current : Option (Nat × PluginState)) : Prop where
  idle : idle = true
  current : current = some (request.owner, .running)
  ticked : journal.getLast? = some .ticked
  stands : Stands journal request

def MapRule (before : List Happening) : Happening → Prop
  | .mapCall request idle current => Rightful before request idle current
  | _ => True

structure MapLog (journal : List Happening) (pending : Option PendingMap) : Prop where
  asked : ∀ request, pending = some request → Stands journal request
  calls : Obeys MapRule journal

def NoCall (events : List Happening) : Prop :=
  ∀ request idle current, .mapCall request idle current ∉ events

section MapLog

variable {journal events : List Happening} {pending later : Option PendingMap}

theorem Stands.append {request : PendingMap} (stands : Stands journal request)
    (fine : ∀ e ∈ events, ¬ Ends request e) : Stands (journal ++ events) request := by
  obtain ⟨before, after, rfl, kept⟩ := stands
  refine ⟨before, after ++ events, by simp, fun e member => ?_⟩
  rcases List.mem_append.mp member with old | new
  · exact kept e old
  · exact fine e new

/-- The journal grows by other events; the pending request may be dropped. -/
theorem MapLog.append (log : MapLog journal pending) (other : NoCall events)
    (kept : ∀ request, later = some request →
      pending = some request ∧ ∀ e ∈ events, ¬ Ends request e) :
    MapLog (journal ++ events) later where
  asked := by
    intro request is
    obtain ⟨was, fine⟩ := kept request is
    exact (log.asked request was).append fine
  calls := by
    refine log.calls.append fun e member before => ?_
    cases e with
    | mapCall request idle current => exact absurd member (other request idle current)
    | _ => trivial

theorem MapLog.note (log : MapLog journal pending) {e : Happening}
    (other : NoCall [e]) (plain : ∀ request, ¬ Ends request e) : MapLog (journal ++ [e]) pending :=
  log.append other fun request is =>
    ⟨is, fun _ member => List.mem_singleton.mp member ▸ plain request⟩

theorem MapLog.drop (log : MapLog journal pending)
    (kept : ∀ request, later = some request → pending = some request) : MapLog journal later :=
  ⟨fun request is => log.asked request (kept request is), log.calls⟩

theorem noCall_singleton {e : Happening}
    (other : ∀ request idle current, e ≠ .mapCall request idle current) : NoCall [e] := by
  intro request idle current member
  exact other request idle current (List.mem_singleton.mp member).symm

end MapLog

theorem cancelMap_kept {s : State} {owner : Nat} {request : PendingMap}
    (is : (s.cancelMap owner).pendingMap = some request) :
    s.pendingMap = some request ∧ owner ≠ 0 ∧ request.owner ≠ owner := by
  obtain ⟨was, kept⟩ := Option.filter_eq_some_iff.mp is
  simpa using And.intro was kept

def State.MapLogged (s : State) : Prop := MapLog s.journal s.pendingMap

/-- A request of another owner survives the event. -/
theorem MapLog.cancel {s : State} (log : MapLog s.journal s.pendingMap) {owner : Nat} {e : Happening}
    (other : NoCall [e])
    (plain : ∀ request : PendingMap, owner ≠ 0 → request.owner ≠ owner → ¬ Ends request e) :
    MapLog (s.journal ++ [e]) (s.cancelMap owner).pendingMap := by
  refine log.append other fun request is => ?_
  obtain ⟨was, some_, apart⟩ := cancelMap_kept is
  exact ⟨was, fun _ member => List.mem_singleton.mp member ▸ plain request some_ apart⟩

theorem Act.mapLogged {s s' : State} {k : Kind} (act : Act k s s') (log : s.MapLogged) :
    s'.MapLogged := by
  have other : ∀ {e : Happening}, (∀ request idle current, e ≠ .mapCall request idle current) →
      (∀ request, ¬ Ends request e) → MapLog (s.journal ++ [e]) s.pendingMap :=
    fun no plain => log.note (noCall_singleton no) plain
  cases act with
  | enter => exact other (by simp) (by simp [Ends])
  | enterStart => exact other (by simp) (by simp [Ends])
  | enterStop => exact other (by simp) (by simp [Ends])
  | fault a active =>
      exact MapLog.cancel log (noCall_singleton (by simp)) fun request _ apart => Ne.symm apart
  | advance => exact other (by simp) (by simp [Ends])
  | cancelMap owner => exact log.drop fun request is => (cancelMap_kept is).1
  | newMap => exact MapLog.cancel log (noCall_singleton (by simp)) fun request zero => absurd rfl zero
  | suspended => exact MapLog.cancel log (noCall_singleton (by simp)) fun request zero => absurd rfl zero
  | takeMap request pending ticked idle asks =>
      refine ⟨fun other is => (nomatch is), log.calls.snoc ?_⟩
      obtain ⟨slot, there, owner, running⟩ := asks
      refine ⟨by simp [idle], ?_, ticked, log.asked request pending⟩
      rw [there, Option.map_some, owner, running]
  | askMap a name running active free =>
      have asked : MapLog (s.journal ++
          [.asked { owner := s.owner a, plugin := (s.manifest a).id, name }]) none :=
        MapLog.append log (noCall_singleton (by simp)) fun request is => (nomatch is)
      refine ⟨?_, asked.calls⟩
      intro request is
      cases is
      exact ⟨s.journal, [], rfl, fun e member => (nomatch member)⟩
  | bindProvider => exact other (by simp) (by simp [Ends])
  | status => exact other (by simp) (by simp [Ends])
  | acquire => exact other (by simp) (by simp [Ends])
  | release => exact other (by simp) (by simp [Ends])
  | openNative => exact other (by simp) (by simp [Ends])
  | chose => exact other (by simp) (by simp [Ends])
  | selectNative => exact other (by simp) (by simp [Ends])
  | closeNative => exact other (by simp) (by simp [Ends])
  | addDisplay => exact other (by simp) (by simp [Ends])
  | addTimer => exact other (by simp) (by simp [Ends])
  | createResource => exact other (by simp) (by simp [Ends])
  | destroy => exact other (by simp) (by simp [Ends])
  | fired => exact other (by simp) (by simp [Ends])
  | dropCommand a name owners removed =>
      cases removed with
      | true => exact other (by simp) (by simp [Ends])
      | false => exact log
  | dropEvent a name owners removed =>
      cases removed with
      | true => exact other (by simp) (by simp [Ends])
      | false => exact log
  | dropConVar a name id v released =>
      cases released with
      | true => exact other (by simp) (by simp [Ends])
      | false => exact log
  | capture => exact other (by simp) (by simp [Ends])
  | cancel => exact other (by simp) (by simp [Ends])
  | retain => exact other (by simp) (by simp [Ends])
  | run => exact other (by simp) (by simp [Ends])
  | dropCallbacks a still =>
      refine MapLog.append log ?_ fun request is => ⟨is, ?_⟩
      · intro request idle current member
        obtain ⟨token, -, is⟩ := List.mem_map.mp member
        cases is
      · intro e member
        obtain ⟨token, -, rfl⟩ := List.mem_map.mp member
        simp [Ends]
  | beginCleanup a =>
      exact MapLog.cancel log (noCall_singleton (by simp)) fun request _ apart => Ne.symm apart
  | pause a =>
      exact MapLog.cancel log (noCall_singleton (by simp)) fun request _ apart => Ne.symm apart
  | _ => exact log

theorem Reach.mapLogged {s : State} (reach : Reach s) : s.MapLogged := by
  induction reach with
  | boot first =>
      obtain ⟨now, publicTrigger, silentTrigger, rfl⟩ := first
      exact ⟨fun request is => (nomatch is), .nil⟩
  | act before change ih => exact change.mapLogged ih

end Source2Root.Foundation
