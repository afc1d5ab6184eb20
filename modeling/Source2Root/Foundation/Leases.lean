import Source2Root.Foundation.Registrations

/-!
# The leases of services

A lease is held as long as somebody uses the service, be it a script that is
bound to a native or a menu on a screen.  The number of users is summed up from
both tables; the host is called where it leaves or reaches zero.
-/

set_option autoImplicit false

namespace Source2Root.Foundation

/-! ## Counting users -/

theorem length_filter_toList {K V : Type} [Ord K] [Std.TransOrd K] (m : Std.ExtTreeMap K V)
    (counts : K × V → Bool) :
    (m.toList.filter counts).length =
      Tables.total (fun k v => if counts (k, v) then 1 else 0) m := by
  unfold Tables.total
  induction m.toList with
  | nil => rfl
  | cons entry rest ih =>
      rw [List.filter_cons, List.map_cons, List.sum_cons, ← ih]
      by_cases counted : counts entry = true
      · rw [if_pos counted, List.length_cons, Nat.add_comm]
        simp [counted]
      · rw [if_neg counted]
        simp [counted]

def providerShare (service : String) (version : Nat) (_ : Registration) (p : Provider) : Nat :=
  if p.service = service ∧ p.version = version then p.users else 0

def displayShare (service : String) (version : Nat) (_ : Int) (d : NativeDisplay) : Nat :=
  if d.service == service && d.version == version then 1 else 0

theorem scriptUsers_eq (providers : Std.ExtTreeMap Registration Provider) (service : String)
    (version : Nat) :
    State.scriptUsers providers service version =
      Tables.total (providerShare service version) providers := rfl

theorem nativeUsers_eq (displays : Std.ExtTreeMap Int NativeDisplay) (service : String)
    (version : Nat) :
    State.nativeUsers displays service version =
      Tables.total (displayShare service version) displays :=
  length_filter_toList displays _

/-- An entry is replaced; the sum changes by its share. -/
theorem total_replace {K V : Type} [Ord K] [Std.TransOrd K] [Std.LawfulEqOrd K] [DecidableEq K]
    (f : K → V → Nat) {m : Std.ExtTreeMap K V} {k : K} {v : V} (there : m[k]? = some v) (w : V) :
    Tables.total f (m.insert k w) + f k v = Tables.total f m + f k w := by
  rw [Tables.total_insert, Tables.total_erase f there]
  omega

/-- A lease is held exactly when its service has users. -/
def State.Leased (s : State) : Prop :=
  ∀ service version, (service, version) ∈ s.leases ↔ s.serviceUsers service version ≠ 0

section Leased

variable {s s' : State}

/-- The users of one service change, and the lease with them. -/
theorem State.Leased.change (leased : s.Leased) (service : String) (version : Nat)
    (others : ∀ service' version', (service', version') ≠ (service, version) →
      (s'.serviceUsers service' version' = s.serviceUsers service' version' ∧
        ((service', version') ∈ s'.leases ↔ (service', version') ∈ s.leases)))
    (here : (service, version) ∈ s'.leases ↔ s'.serviceUsers service version ≠ 0) :
    s'.Leased := by
  intro service' version'
  by_cases same : (service', version') = (service, version)
  · obtain ⟨rfl, rfl⟩ := Prod.mk.inj same
    exact here
  · obtain ⟨users, lease⟩ := others service' version' same
    rw [users, lease]
    exact leased service' version'

/-- Nobody's share changes. -/
theorem State.Leased.same (leased : s.Leased) (leases : s'.leases = s.leases)
    (users : ∀ service version, s'.serviceUsers service version = s.serviceUsers service version) :
    s'.Leased := by
  intro service version
  rw [leases, users]
  exact leased service version

theorem serviceUsers_provider (s' : State) {r : Registration} {p q : Provider}
    (there : s.providers[r]? = some p) (providers : s'.providers = s.providers.insert r q)
    (displays : s'.nativeDisplays = s.nativeDisplays) (service : String) (version : Nat) :
    s'.serviceUsers service version + providerShare service version r p =
      s.serviceUsers service version + providerShare service version r q := by
  unfold State.serviceUsers
  rw [scriptUsers_eq, scriptUsers_eq, providers, displays]
  have replaced := total_replace (providerShare service version) there q
  omega

theorem serviceUsers_display {slot : Int} {d e : NativeDisplay}
    (there : s.nativeDisplays[slot]? = some d) (providers : s'.providers = s.providers)
    (displays : s'.nativeDisplays = s.nativeDisplays.insert slot e) (service : String)
    (version : Nat) :
    s'.serviceUsers service version + displayShare service version slot d =
      s.serviceUsers service version + displayShare service version slot e := by
  unfold State.serviceUsers
  rw [nativeUsers_eq, nativeUsers_eq, providers, displays]
  have replaced := total_replace (displayShare service version) there e
  omega

/-- A display whose service stays the same counts as before. -/
theorem State.Leased.keep (leased : s.Leased) {slot : Int} {d e : NativeDisplay}
    (there : s.nativeDisplays[slot]? = some d) (service : e.service = d.service)
    (version : e.version = d.version) (providers : s'.providers = s.providers)
    (displays : s'.nativeDisplays = s.nativeDisplays.insert slot e)
    (leases : s'.leases = s.leases) : s'.Leased := by
  refine leased.same leases fun service' version' => ?_
  have counted := serviceUsers_display there providers displays service' version'
  unfold displayShare at counted
  rw [service, version] at counted
  omega

end Leased

theorem Marked.service {now : Int} {d d' : NativeDisplay} (marked : Marked now d d') :
    d'.service = d.service ∧ d'.version = d.version := by
  cases marked <;> exact ⟨rfl, rfl⟩

theorem Act.leased {s s' : State} {k : Kind} (act : Act k s s') (bound : s.Binds)
    (living : s.Lives) (bared : s.Bares) (leased : s.Leased) : s'.Leased := by
  cases act with
  | addProvider p unused number =>
      refine leased.same rfl fun service version => ?_
      have absent : s.providers[s.nextProvider]? = none := by
        cases there : s.providers[s.nextProvider]? with
        | none => rfl
        | some q => exact absurd (bound.number _ q there) (lt_irrefl _)
      show State.scriptUsers (s.providers.insert s.nextProvider p) service version + _ = _
      rw [scriptUsers_eq, Tables.total_insert_new _ _ absent]
      unfold providerShare State.serviceUsers
      rw [unused, ite_self, Nat.zero_add]
      rfl
  | eraseProvider r p there unused inactive =>
      refine leased.same rfl fun service version => ?_
      show State.scriptUsers (s.providers.erase r) service version + _ = _
      unfold State.serviceUsers
      rw [scriptUsers_eq s.providers, Tables.total_erase _ there]
      unfold providerShare
      rw [unused, ite_self, Nat.zero_add]
      rfl
  | bindProvider a r p acquired candidate loading loaded there unbound first =>
      have counted := serviceUsers_provider (s.bindProvider a r p acquired) there rfl rfl
      refine leased.change p.service p.version ?_ ?_
      · intro service version other
        have apart : ¬ (p.service = service ∧ p.version = version) := by
          rintro ⟨rfl, rfl⟩
          exact other rfl
        have users := counted service version
        simp only [providerShare, if_neg apart, Nat.add_zero] at users
        refine ⟨users, ?_⟩
        show (service, version) ∈ (if acquired then _ else _) ↔ _
        cases acquired with
        | true => simp [other]
        | false => rfl
      · have users := counted p.service p.version
        simp only [providerShare, and_self, if_true] at users
        have positive : (s.bindProvider a r p acquired).serviceUsers p.service p.version ≠ 0 := by
          omega
        refine iff_of_true ?_ positive
        show (p.service, p.version) ∈ (if acquired then _ else _)
        cases acquired with
        | true => simp
        | false =>
            have used : s.serviceUsers p.service p.version ≠ 0 := by simpa using first
            exact (leased p.service p.version).mpr used
  | freeProvider a r p released still there mine inactive last =>
      have counted := serviceUsers_provider (s.freeProvider a r p released) there rfl rfl
      have born : a < s.fresh := by
        by_contra later
        have unloaded := living.unborn a (Nat.le_of_not_lt later)
        rw [bared.providers a unloaded] at mine
        exact absurd mine (Finset.notMem_empty r)
      have used : p.users ≠ 0 := fun none_ => bound.unused there none_ born mine
      refine leased.change p.service p.version ?_ ?_
      · intro service version other
        have apart : ¬ (p.service = service ∧ p.version = version) := by
          rintro ⟨rfl, rfl⟩
          exact other rfl
        have users := counted service version
        simp only [providerShare, if_neg apart, Nat.add_zero] at users
        refine ⟨users, ?_⟩
        show (service, version) ∈ (if released then _ else _) ↔ _
        cases released with
        | true => simp [other]
        | false => rfl
      · have users := counted p.service p.version
        simp only [providerShare, and_self, if_true] at users
        show (p.service, p.version) ∈ (if released then _ else _) ↔ _
        cases released with
        | true =>
            have one : s.serviceUsers p.service p.version = 1 := by simpa using last
            simp only [if_true, Finset.mem_erase, ne_eq, not_true_eq_false, false_and, false_iff,
              not_not]
            omega
        | false =>
            have more : s.serviceUsers p.service p.version ≠ 1 := by simpa using last
            have held : s.serviceUsers p.service p.version ≠ 0 := by
              have share := counted p.service p.version
              simp only [providerShare, and_self, if_true] at share
              have total : providerShare p.service p.version r p ≤
                  Tables.total (providerShare p.service p.version) s.providers := by
                rw [Tables.total_erase _ there]
                exact Nat.le_add_right _ _
              rw [← scriptUsers_eq] at total
              simp only [providerShare, and_self, if_true] at total
              unfold State.serviceUsers
              omega
            refine iff_of_true ((leased _ _).mpr held) ?_
            omega
  | openNative slot d acquired free dark session there filled top fresh first =>
      have counted : ∀ service version, (s.openNative slot d acquired).serviceUsers service version =
          s.serviceUsers service version + displayShare service version slot d := by
        intro service version
        unfold State.serviceUsers
        rw [nativeUsers_eq, nativeUsers_eq]
        show _ + Tables.total _ (s.nativeDisplays.insert slot d) = _
        rw [Tables.total_insert_new _ _ free]
        show State.scriptUsers s.providers service version + _ = _
        omega
      refine leased.change d.service d.version ?_ ?_
      · intro service version other
        have apart : ¬ ((d.service == service && d.version == version) = true) := by
          intro same
          simp only [Bool.and_eq_true, beq_iff_eq] at same
          exact other (Prod.ext same.1.symm same.2.symm)
        have users := counted service version
        unfold displayShare at users
        rw [if_neg apart, Nat.add_zero] at users
        refine ⟨users, ?_⟩
        show (service, version) ∈ (if acquired then _ else _) ↔ _
        cases acquired with
        | true => simp [other]
        | false => rfl
      · have users := counted d.service d.version
        simp only [displayShare, BEq.rfl, Bool.and_self, if_true] at users
        refine iff_of_true ?_ (by omega)
        show (d.service, d.version) ∈ (if acquired then _ else _)
        cases acquired with
        | true => simp
        | false =>
            have used : s.serviceUsers d.service d.version ≠ 0 := by simpa using first
            exact (leased d.service d.version).mpr used
  | closeNative slot d released there idle closing last =>
      have counted : ∀ service version, (s.closeNative slot d released).serviceUsers service version +
          displayShare service version slot d = s.serviceUsers service version := by
        intro service version
        unfold State.serviceUsers
        rw [nativeUsers_eq, nativeUsers_eq, Tables.total_erase _ there]
        show _ + Tables.total _ (s.nativeDisplays.erase slot) + _ = _
        show State.scriptUsers s.providers service version + _ + _ = _
        omega
      refine leased.change d.service d.version ?_ ?_
      · intro service version other
        have apart : ¬ ((d.service == service && d.version == version) = true) := by
          intro same
          simp only [Bool.and_eq_true, beq_iff_eq] at same
          exact other (Prod.ext same.1.symm same.2.symm)
        have users := counted service version
        unfold displayShare at users
        rw [if_neg apart, Nat.add_zero] at users
        refine ⟨users, ?_⟩
        show (service, version) ∈ (if released then _ else _) ↔ _
        cases released with
        | true => simp [other]
        | false => rfl
      · have users := counted d.service d.version
        simp only [displayShare, BEq.rfl, Bool.and_self, if_true] at users
        show (d.service, d.version) ∈ (if released then _ else _) ↔ _
        cases released with
        | true =>
            have one : s.serviceUsers d.service d.version = 1 := by simpa using last
            simp only [if_true, Finset.mem_erase, ne_eq, not_true_eq_false, false_and, false_iff,
              not_not]
            omega
        | false =>
            have more : s.serviceUsers d.service d.version ≠ 1 := by simpa using last
            refine iff_of_true ((leased _ _).mpr (by omega)) (by omega)
  | markNative slot d d' there marked =>
      exact leased.keep there marked.service.1 marked.service.2 rfl rfl rfl
  | selectNative slot d index current there =>
      exact leased.keep (e := { d with callback := false, active := true }) there rfl rfl rfl rfl rfl
  | returnNative slot d there =>
      exact leased.keep (e := { d with active := false }) there rfl rfl rfl rfl rfl
  | _ => exact leased

theorem Reach.leased {s : State} (reach : Reach s) : s.Leased := by
  induction reach with
  | boot first =>
      obtain ⟨now, publicTrigger, silentTrigger, rfl⟩ := first
      intro service version
      simp [State.boot, State.serviceUsers, scriptUsers_eq, nativeUsers_eq]
  | act before change ih => exact change.leased before.binds before.living before.bared ih

/-- The service of a menu on a screen is leased. -/
theorem Reach.native_leased {s : State} (reach : Reach s) {slot : Int} {d : NativeDisplay}
    (there : s.nativeDisplays[slot]? = some d) : (d.service, d.version) ∈ s.leases := by
  refine (reach.leased d.service d.version).mpr ?_
  unfold State.serviceUsers
  rw [nativeUsers_eq, Tables.total_erase (displayShare d.service d.version) there]
  simp only [displayShare, BEq.rfl, Bool.and_self, if_true]
  omega

end Source2Root.Foundation
