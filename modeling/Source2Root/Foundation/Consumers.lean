import Source2Root.Foundation.Safety
import Source2Root.Foundation.Journal

/-!
# What a provider learns about the scripts that use it

The answer about a generation follows its state once it is in a slot.  A candidate that
starts is in none, and is answered for as if it were gone.
-/

set_option autoImplicit false

namespace Source2Root.Foundation

open Handles Reentrant Chronicle

variable {s s' : State} {a : Addr} {provider : PluginHandle}

/-! ## Where a generation is found -/

theorem mem_scripts : a ∈ s.scripts ↔ ∃ id, a ∈ scriptsAt s.slots id := by
  unfold State.scripts
  rw [List.mem_flatMap]
  constructor
  · rintro ⟨⟨id, slot⟩, listed, member⟩
    exact ⟨id, mem_scriptsAt.mpr ⟨slot, Tables.mem_toList.mp listed, member⟩⟩
  · rintro ⟨id, member⟩
    obtain ⟨slot, there, member⟩ := mem_scriptsAt.mp member
    exact ⟨⟨id, slot⟩, Tables.mem_toList.mpr there, member⟩

theorem scriptOf_some {owner : Nat} (found : s.scriptOf owner = some a) :
    a ∈ s.scripts ∧ s.owner a = owner :=
  ⟨List.mem_of_find?_eq_some found, by simpa using List.find?_some found⟩

theorem scriptOf_placed (reach : Reach s) (placed : a ∈ s.scripts) (real : s.owner a ≠ 0) :
    s.scriptOf (s.owner a) = some a := by
  cases found : s.scriptOf (s.owner a) with
  | none =>
      have apart := List.find?_eq_none.mp found a placed
      simp at apart
  | some b =>
      have same := (scriptOf_some found).2
      rw [reach.numbered.one b a same (same ▸ real)]

/-- A candidate is in no slot. -/
theorem scriptOf_candidate (reach : Reach s) (candidate : s.preparing = some a)
    (real : s.owner a ≠ 0) : s.scriptOf (s.owner a) = none := by
  cases found : s.scriptOf (s.owner a) with
  | none => rfl
  | some b =>
      obtain ⟨placed, same⟩ := scriptOf_some found
      rw [reach.numbered.one b a same (same ▸ real)] at placed
      obtain ⟨id, member⟩ := mem_scripts.mp placed
      exact absurd member ((reach.slotted.candidate a candidate).2.2 id)

/-! ## Loading -/

/-- A candidate whose first function may run. -/
def State.Starting (s : State) (a : Addr) : Prop := s.preparing = some a ∧ s.state a = .loading

/-- A script that is loading has its code, or is the candidate. -/
def State.Loads (s : State) : Prop :=
  ∀ a, s.owner a ≠ 0 → s.state a = .loading → s.vm a = true ∨ s.preparing = some a

theorem State.Loads.of (loads : s.Loads) (owner : s'.owner = s.owner)
    (preparing : s'.preparing = s.preparing) (vm : s'.vm = s.vm)
    (state : ∀ a, s'.state a = .loading → s.state a = .loading) : s'.Loads := by
  intro a real loading
  rw [vm, preparing]
  exact loads a (owner ▸ real) (state a loading)

/-- One script goes to a state other than loading. -/
theorem State.Loads.state (loads : s.Loads) (owner : s'.owner = s.owner)
    (preparing : s'.preparing = s.preparing) (vm : s'.vm = s.vm) {later : PluginState}
    (state : s'.state = Function.update s.state a later) (other : later ≠ .loading) :
    s'.Loads := by
  refine loads.of owner preparing vm fun b loading => ?_
  rw [state, Function.update_apply] at loading
  split at loading
  · exact absurd loading other
  · exact loading

theorem Act.loads {k : Kind} (act : Act k s s')
    (slotted : Slotted s.slots s.preparing s.managing s.fresh) (loads : s.Loads) : s'.Loads := by
  cases act with
  | fault a active =>
      rcases State.fault_state s a with same | retired
      · exact loads.of rfl rfl rfl fun b loading => same ▸ loading
      · exact loads.state rfl rfl rfl retired (by decide)
  | giveUp => exact loads.state rfl rfl rfl rfl (by decide)
  | failCandidate => exact loads.state rfl rfl rfl rfl (by decide)
  | retire => exact loads.state rfl rfl rfl rfl (by decide)
  | disable => exact loads.state rfl rfl rfl rfl (by decide)
  | retireCandidate => exact loads.state rfl rfl rfl rfl (by decide)
  | rewriteRecord => exact loads.state rfl rfl rfl rfl (by decide)
  | pause => exact loads.state rfl rfl rfl rfl (by decide)
  | resume => exact loads.state rfl rfl rfl rfl (by decide)
  | swap id slot b managing there =>
      refine loads.state rfl rfl rfl rfl ?_
      rcases slotted.resting id slot there with is | is <;> simp [is]
  | resetVm a still bare =>
      intro b real loading
      have other : b ≠ a := fun is => still.loading (is ▸ loading)
      refine (loads b real loading).imp_left fun loaded => ?_
      exact (Function.update_of_ne other ..).trans loaded
  | loadVm a =>
      intro b real loading
      refine (loads b real loading).imp_left fun loaded => ?_
      show Function.update s.vm a true b = true
      rw [Function.update_apply]
      split
      · rfl
      · exact loaded
  | prepare m path managing settled =>
      intro b real loading
      by_cases new : b = s.fresh
      · exact Or.inr (congrArg some new.symm)
      · have before : s.state b = .loading := (Function.update_of_ne new ..).symm.trans loading
        have real : s.owner b ≠ 0 := by
          rw [← Function.update_of_ne new s.nextOwner s.owner]
          exact real
        rcases loads b real before with loaded | is
        · exact Or.inl ((Function.update_of_ne new ..).trans loaded)
        · exact absurd (settled.symm.trans is) (by simp)
  | placeRecord id m path state managing named free unloaded =>
      intro b real loading
      have new : b ≠ s.fresh := by
        rintro rfl
        have is : state = .loading := (Function.update_self ..).symm.trans loading
        rcases unloaded with rfl | rfl <;> cases is
      have before : s.state b = .loading := (Function.update_of_ne new ..).symm.trans loading
      have real : s.owner b ≠ 0 := by
        rw [← Function.update_of_ne new 0 s.owner]
        exact real
      refine (loads b real before).imp_left fun loaded => ?_
      exact (Function.update_of_ne new ..).trans loaded
  | dropCandidate a candidate unloaded settled =>
      intro b real loading
      refine Or.inl ((loads b real loading).resolve_right fun is => ?_)
      rw [candidate] at is
      cases is
      exact settled loading
  | place a ready candidate inactive replaceable loaded kind =>
      intro b real loading
      have before : s.state b = .loading ∧ b ≠ a := by
        cases ready with
        | true =>
            have is : Function.update s.state a .running b = .loading := loading
            rw [Function.update_apply] at is
            split at is
            · cases is
            · exact ⟨is, ‹¬ b = a›⟩
        | false => exact ⟨loading, fun is => of_decide_eq_false kind.symm (is ▸ loading)⟩
      refine Or.inl ((loads b real before.1).resolve_right fun is => ?_)
      rw [candidate] at is
      cases is
      exact before.2 rfl
  | stage id slot a candidate there single named inactive loaded =>
      intro b real loading
      rcases loads b real loading with there | is
      · exact Or.inl there
      · rw [candidate] at is
        cases is
        exact Or.inl (loaded loading)
  | _ => exact loads

theorem Reach.loads (reach : Reach s) : s.Loads := by
  induction reach with
  | boot first =>
      obtain ⟨now, publicTrigger, silentTrigger, rfl⟩ := first
      exact fun a real => absurd rfl real
  | act before change ih => exact change.loads before.slotted ih

/-! ## The answer -/

/-- The script uses a native of the provider. -/
def State.Uses (s : State) (a : Addr) (provider : PluginHandle) : Prop :=
  ∃ r ∈ s.providersOf a, (s.providers[r]?.map Provider.owner) = some provider

/-- What the answer about a script says of it. -/
structure Truthful (s : State) (a : Addr) (answer : KeelResult) : Prop where
  running : answer = .ok ↔ s.state a = .running
  waiting : answer = .busy ↔ s.state a = .loading ∨ s.state a = .paused
  gone : answer = .notFound → ¬ s.Waits a

theorem Uses.loaded (reach : Reach s) (uses : s.Uses a provider) : s.vm a = true ∧ a < s.fresh := by
  obtain ⟨r, mine, -⟩ := uses
  exact State.Binds.users_loaded reach mine

theorem status_placed (real : provider ≠ 0) (number : s.owner a ≠ 0)
    (found : s.scriptOf (s.owner a) = some a) (uses : s.Uses a provider) :
    s.consumerStatus provider (s.owner a) = match s.state a with
      | .running => .ok
      | .paused => .busy
      | .loading => .busy
      | _ => .notFound := by
  unfold State.consumerStatus
  rw [if_neg (not_or.mpr ⟨real, number⟩), found]
  exact if_pos uses

theorem found_waits {owner : Nat} (found : s.consumerStatus provider owner = .ok ∨
    s.consumerStatus provider owner = .busy) : ∃ a, s.owner a = owner ∧ s.Waits a := by
  unfold State.consumerStatus at found
  split at found
  · rcases found with is | is <;> cases is
  cases at_ : s.scriptOf owner with
  | none =>
      rw [at_] at found
      rcases found with is | is <;> cases is
  | some a =>
      rw [at_] at found
      dsimp only at found
      refine ⟨a, (scriptOf_some at_).2, ?_⟩
      split at found
      · unfold State.Waits
        cases is : s.state a <;> rw [is] at found <;> simp at found ⊢
      · rcases found with is | is <;> cases is

/-- A generation that does not wait is neither said to be loading nor to be running. -/
theorem status_quiet (reach : Reach s) (quiet : ¬ s.Waits a) :
    Truthful s a (s.consumerStatus provider (s.owner a)) := by
  have unfound : ¬ (s.consumerStatus provider (s.owner a) = .ok ∨
      s.consumerStatus provider (s.owner a) = .busy) := by
    intro found
    obtain ⟨b, same, waits⟩ := found_waits found
    by_cases number : s.owner a = 0
    · rw [number] at found
      simp [State.consumerStatus] at found
    · exact quiet (reach.numbered.one b a same (same ▸ number) ▸ waits)
  obtain ⟨loading, running, paused⟩ :
      s.state a ≠ .loading ∧ s.state a ≠ .running ∧ s.state a ≠ .paused := by
    simpa [State.Waits] using quiet
  obtain ⟨up, busy⟩ := not_or.mp unfound
  exact ⟨iff_of_false up running, iff_of_false busy (not_or.mpr ⟨loading, paused⟩), fun _ => quiet⟩

theorem status_truthful (reach : Reach s) (real : provider ≠ 0) (uses : s.Uses a provider) :
    Truthful s a (s.consumerStatus provider (s.owner a)) ↔ ¬ s.Starting a := by
  obtain ⟨loaded, born⟩ := Uses.loaded reach uses
  have number : s.owner a ≠ 0 := reach.real a (Or.inl loaded)
  constructor
  · rintro truthful ⟨candidate, loading⟩
    have none_ : s.consumerStatus provider (s.owner a) = .notFound := by
      unfold State.consumerStatus
      rw [if_neg (not_or.mpr ⟨real, number⟩), scriptOf_candidate reach candidate number]
    exact truthful.gone none_ (Or.inl loading)
  · intro settled
    have placed : a ∈ s.scripts ∨ ¬ s.Waits a := by
      rcases reach.living.placed a loaded with placed | candidate
      · exact Or.inl (mem_scripts.mpr placed)
      · have other : s.state a ≠ .loading := fun loading => settled ⟨candidate, loading⟩
        rcases reach.living.candidate a candidate with is | is | is
        · exact absurd is other
        · exact Or.inr (by simp [State.Waits, is])
        · exact Or.inr (by simp [State.Waits, is])
    rcases placed with placed | quiet
    · rw [status_placed real number (scriptOf_placed reach placed number) uses]
      cases is : s.state a
      all_goals constructor
      all_goals simp [State.Waits, is]
    · exact status_quiet reach quiet

/-! ## Who has bound a native -/

/-- The providers are the ones the script uses, whatever else is registered. -/
theorem State.Uses.kept (uses : s.Uses a provider) (mine : ∀ r ∈ s.providersOf a,
      r ∈ s'.providersOf a ∧ ∀ p, s.providers[r]? = some p →
        ∃ q, s'.providers[r]? = some q ∧ q.owner = p.owner) : s'.Uses a provider := by
  obtain ⟨r, member, owned⟩ := uses
  obtain ⟨p, there, is⟩ := Option.map_eq_some_iff.mp owned
  obtain ⟨member', same⟩ := mine r member
  obtain ⟨q, there', owner⟩ := same p there
  exact ⟨r, member', by rw [there', Option.map_some, owner, is]⟩

theorem Act.uses {k : Kind} (act : Act k s s') (reach : Reach s) (born : a < s.fresh)
    (waits : s.Waits a) (uses : s.Uses a provider) : s'.Uses a provider := by
  have counted : ∀ (r : Registration) (p q : Provider), s.providers[r]? = some p →
      q.owner = p.owner → ∀ (other : Registration) (p' : Provider),
        s.providers[other]? = some p' → ∃ q' : Provider,
          (s.providers.insert r q)[other]? = some q' ∧ q'.owner = p'.owner := by
    intro r p q there same other p' there'
    rw [Tables.getElem?_insert]
    split
    · rw [‹other = r›, there] at there'
      cases there'
      exact ⟨q, rfl, same⟩
    · exact ⟨p', there', rfl⟩
  cases act with
  | addProvider p unused number =>
      refine uses.kept fun r member => ⟨member, fun q there => ⟨q, ?_, rfl⟩⟩
      show (s.providers.insert s.nextProvider p)[r]? = some q
      rw [Tables.getElem?_insert, if_neg]
      · exact there
      · exact Nat.ne_of_lt (reach.binds.number r q there)
  | eraseProvider r p there unused inactive =>
      refine uses.kept fun other member => ⟨member, fun q at_other => ⟨q, ?_, rfl⟩⟩
      show (s.providers.erase r)[other]? = some q
      rw [Tables.getElem?_erase, if_neg]
      · exact at_other
      · rintro rfl
        exact reach.binds.unused there unused born member
  | bindProvider b r p acquired candidate loading loaded there unbound =>
      refine uses.kept fun other member => ⟨?_,
        counted r p { p with users := p.users + 1 } there rfl other⟩
      show other ∈ Function.update s.providersOf b (insert r (s.providersOf b)) a
      rw [Function.update_apply]
      split
      · exact Finset.mem_insert_of_mem (‹a = b› ▸ member)
      · exact member
  | freeProvider b r p released still there bound =>
      have other : a ≠ b := by
        rintro rfl
        rcases waits with is | is | is
        · exact still.loading is
        · exact still.running is
        · exact still.paused is
      refine uses.kept fun other_ member => ⟨?_,
        counted r p { p with users := p.users - 1 } there rfl other_⟩
      show other_ ∈ Function.update s.providersOf b _ a
      rw [Function.update_of_ne other]
      exact member
  | prepare =>
      refine uses.kept fun r member => ⟨?_, fun p there => ⟨p, there, rfl⟩⟩
      show r ∈ Function.update s.providersOf s.fresh ∅ a
      rw [Function.update_of_ne (Nat.ne_of_lt born)]
      exact member
  | placeRecord =>
      refine uses.kept fun r member => ⟨?_, fun p there => ⟨p, there, rfl⟩⟩
      show r ∈ Function.update s.providersOf s.fresh ∅ a
      rw [Function.update_of_ne (Nat.ne_of_lt born)]
      exact member
  | _ => exact uses

/-! ## Gone for good -/

/-- Owner numbers are given out once, in their order. -/
theorem Act.numbers {k : Kind} (act : Act k s s') (reach : Reach s) :
    s.nextOwner ≤ s'.nextOwner ∧
      ∀ a, s.fresh ≤ a → s'.owner a = 0 ∨ s.nextOwner ≤ s'.owner a := by
  have unborn := reach.numbered.unborn
  cases act with
  | prepare =>
      refine ⟨Nat.le_succ _, fun a later => ?_⟩
      by_cases new : a = s.fresh
      · exact Or.inr (new ▸ (Function.update_self s.fresh s.nextOwner s.owner).ge)
      · exact Or.inl ((Function.update_of_ne new ..).trans (unborn a later))
  | placeRecord =>
      refine ⟨le_refl _, fun a later => Or.inl ?_⟩
      by_cases new : a = s.fresh
      · exact new ▸ Function.update_self ..
      · exact (Function.update_of_ne new ..).trans (unborn a later)
  | _ => exact ⟨le_refl _, fun a later => Or.inl (unborn a later)⟩

/-- The generation was born, and waits for no call any more. -/
structure State.Departed (s : State) (owner : Nat) : Prop where
  real : owner ≠ 0
  known : owner < s.nextOwner
  gone : ∀ a, s.owner a = owner → ¬ s.Waits a

theorem Act.departed {k : Kind} (act : Act k s s') (reach : Reach s) {owner : Nat}
    (departed : s.Departed owner) : s'.Departed owner := by
  have lasting := act.lasting
  obtain ⟨grown, numbers⟩ := act.numbers reach
  refine ⟨departed.real, departed.known.trans_le grown, fun a is waits => ?_⟩
  by_cases born : a < s.fresh
  · exact departed.gone a ((lasting.owner a born).symm.trans is) (lasting.waits a born waits)
  · have new := numbers a (Nat.le_of_not_lt born)
    have real := departed.real
    have known := departed.known
    omega

/-- A generation that is known, is not a candidate that starts and is said to be gone
does not wait. -/
theorem not_found (reach : Reach s) {owner : Nat}
    (gone : s.consumerStatus provider owner = .notFound) (settled : s.settled owner = true) :
    s.Departed owner := by
  obtain ⟨known, starting⟩ := Bool.and_eq_true_iff.mp settled
  have real : owner ≠ 0 := by
    rintro rfl
    simp [State.consumerStatus] at gone
  refine ⟨real, of_decide_eq_true known, ?_⟩
  rintro a rfl waits
  have placed : a ∈ s.scripts := by
    rw [mem_scripts]
    rcases waits with loading | up
    · rcases reach.loads a real loading with loaded | candidate
      · refine (reach.living.placed a loaded).resolve_right fun candidate => ?_
        simp [candidate, loading] at starting
      · simp [candidate, loading] at starting
    · exact (reach.living.home a up).2.mem
  unfold State.consumerStatus at gone
  split at gone
  · cases gone
  rw [scriptOf_placed reach placed real] at gone
  dsimp only at gone
  split at gone
  · rcases waits with is | is | is <;> rw [is] at gone <;> cases gone
  · cases gone

/-! ## What the journal shows -/

/-- Who has bound a native of a provider uses it for as long as it waits, and who is said
to be gone does not wait. -/
def State.Consumed (s : State) : Happening → Prop
  | .bound a provider => a < s.fresh ∧ (s.Waits a → s.Uses a provider)
  | .status _ owner .notFound true => s.Departed owner
  | _ => True

theorem Act.consumed {k : Kind} (act : Act k s s') (reach : Reach s) {e : Happening}
    (consumed : s.Consumed e) : s'.Consumed e := by
  unfold State.Consumed at consumed ⊢
  split
  · rename_i a provider
    obtain ⟨born, uses⟩ := consumed
    have lasting := act.lasting
    refine ⟨born.trans_le lasting.born, fun waits => ?_⟩
    have before := lasting.waits a born waits
    exact act.uses reach born before (uses before)
  · exact act.departed reach consumed
  · trivial

theorem Note.consumed {e : Happening} (note : Note s s' e) (reach : Reach s)
    (departed : ∀ owner, s.Departed owner → s'.Departed owner) : s'.Consumed e := by
  unfold State.Consumed
  split
  · obtain ⟨r, p, acquired, rfl, rfl, candidate, there⟩ := note
    refine ⟨(reach.slotted.candidate _ candidate).2.1, fun _ => ⟨r, ?_, ?_⟩⟩
    · show r ∈ Function.update s.providersOf _ (insert r (s.providersOf _)) _
      rw [Function.update_self]
      exact Finset.mem_insert_self ..
    · show ((s.providers.insert r { p with users := p.users + 1 })[r]?).map _ = _
      rw [Tables.getElem?_insert, if_pos rfl]
      rfl
  · obtain ⟨answer, settled, -⟩ := note
    exact departed _ (not_found reach answer.symm settled.symm)
  · trivial

theorem Reach.consumed (reach : Reach s) : ∀ e ∈ s.journal, s.Consumed e := by
  induction reach with
  | boot first =>
      obtain ⟨now, publicTrigger, silentTrigger, rfl⟩ := first
      exact fun e member => nomatch member
  | act before change ih =>
      exact change.adds.shown (fun e member => change.consumed before (ih e member))
        (fun e note => note.consumed before fun _ => change.departed before) fun _ => trivial

/-- Nothing is said to be loading or running that was said to be gone. -/
def StatusRule (before : List Happening) : Happening → Prop
  | .status _ owner answer _ => ∀ other, .status other owner .notFound true ∈ before →
      answer ≠ .ok ∧ answer ≠ .busy
  | _ => True

theorem Note.answers {e : Happening} (note : Note s s' e)
    (consumed : ∀ e ∈ s.journal, s.Consumed e) : StatusRule s.journal e := by
  cases e with
  | status provider owner answer settled =>
      obtain ⟨is, -, -⟩ := note
      intro other gone
      have departed : s.Departed owner := consumed _ gone
      have unfound : ¬ (answer = .ok ∨ answer = .busy) := by
        intro found
        obtain ⟨a, mine, waits⟩ := found_waits (is ▸ found)
        exact departed.gone a mine waits
      exact not_or.mp unfound
  | _ => trivial

theorem Reach.answers (reach : Reach s) : Obeys StatusRule s.journal := by
  induction reach with
  | boot first =>
      obtain ⟨now, publicTrigger, silentTrigger, rfl⟩ := first
      exact .nil
  | act before change ih =>
      exact change.adds.obeys ih (fun e note => note.answers before.consumed) fun _ _ => trivial

/-- Of a generation that bound one of its natives a provider learns the truth, except
while it is the candidate that starts.  What was said to be gone, and was not that
candidate, is never said to be loading or running again. -/
theorem consumers_answered {start : State} {stack : Stack} (boot : Boot start)
    (reached : Reached start s stack) :
    (∀ a provider, provider ≠ 0 → .bound a provider ∈ s.journal →
      (Truthful s a (s.consumerStatus provider (s.owner a)) ↔ ¬ s.Starting a)) ∧
    ∀ before provider owner answer settled after,
      s.journal = before ++ .status provider owner answer settled :: after →
        ∀ other, .status other owner .notFound true ∈ before → answer ≠ .ok ∧ answer ≠ .busy := by
  have reach := reached.reach boot
  refine ⟨fun a provider real bound => ?_,
    fun before provider owner answer settled after split => reach.answers before _ after split⟩
  by_cases waits : s.Waits a
  · exact status_truthful reach real ((reach.consumed _ bound).2 waits)
  · exact iff_of_true (status_quiet reach waits) fun starting => waits (Or.inl starting.2)

/-- A script uses a native of an extension, which asks about the script while it starts
and once it runs. -/
def asking : History :=
  [.start (.service (.registerContextNative 5
      { name := "Clans_Each", service := "clans", version := 1 })),
    .start (.report (.load { directory := "a" })), .reply { manifest := some { id := "a" } },
    .reply {}, .reply {}, .reply {}, .reply {}, .reply {}, .reply {},
    .start (.service (.consumerStatus 5 1)), .back { cell := 1 },
    .start (.service (.consumerStatus 5 1))]

theorem consumers_answered_asking : ∃ s stack, Reached (State.boot 0 ['!'] ['/']) s stack ∧
    .status 5 1 .notFound false ∈ s.journal ∧ .status 5 1 .ok true ∈ s.journal ∧
      Truthful s 1 (s.consumerStatus 5 (s.owner 1)) := by
  obtain ⟨s, stack, reached, seen⟩ := @History.reached asking
    (fun s => decide (.status 5 1 .notFound false ∈ s.journal ∧ .status 5 1 .ok true ∈ s.journal ∧
      .bound 1 5 ∈ s.journal ∧ s.state 1 = .running)) (by decide +kernel)
  obtain ⟨unfound, up, bound, running⟩ := of_decide_eq_true seen
  refine ⟨s, stack, reached, unfound, up, ?_⟩
  refine ((consumers_answered boot_boot reached).1 1 5 (by decide) bound).mpr fun starting => ?_
  exact nomatch running.symm.trans starting.2

end Source2Root.Foundation
