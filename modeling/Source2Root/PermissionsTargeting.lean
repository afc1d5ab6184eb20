import Source2Root.PermissionsExact

/-!
# Targeting

Two decisions, one about a connected player and one about an account.  For a player
who is who the account says they agree; between different players both need the
permission and a strictly higher immunity, so targeting runs down a strict order.
-/

set_option autoImplicit false

namespace Source2Root.Admins

/-- A table that some loads have left. -/
inductive Loaded : Permissions → Prop
  | initial : Loaded {}
  | load {p : Permissions} (before : Loaded p) (directory : Directory) :
      Loaded (p.load directory).1

/-- A connected player whose account is known. -/
theorem authenticated_iff {player : Player} :
    authenticated player = true ↔ 0 ≤ player.slot ∧ player.connection ≠ 0 ∧
      player.authenticated = true ∧ player.bot = false ∧
      validSteamIdentity player.steamId = true := by
  simp [authenticated, and_assoc]

/-- Among these players an account is one connection. -/
def OneConnection (players : Set Player) : Prop :=
  ∀ player ∈ players, ∀ other ∈ players, authenticated player = true →
    authenticated other = true → player.steamId = other.steamId →
      player.sameConnection other = true

/-! ## No immunity is below zero -/

theorem ImmunityText.nonneg {text : Text} {value : Int} (means : ImmunityText text value) :
    0 ≤ value := by
  obtain ⟨digits, n, -, -, same, -⟩ := means
  omega

theorem Immune.nonneg {entry : KeyValues.KeyValue} {fallback value : Int}
    (immune : Immune entry fallback value) (above : 0 ≤ fallback) : 0 ≤ value := by
  by_cases has : ∃ child, HasField entry "immunity".toList child
  · obtain ⟨child, field⟩ := has
    obtain ⟨spelled, text, -, means⟩ := immune.own child field
    exact means.nonneg
  · have absent := immune.absent fun child field => has ⟨child, field⟩
    omega

theorem AdminMeans.immunity_nonneg {groups : List KeyValues.KeyValue} {entry : KeyValues.KeyValue}
    {id : Nat} {admin : Admin} (means : AdminMeans groups entry id admin) : 0 ≤ admin.immunity := by
  obtain ⟨group, ⟨name, -, other, -, -, group_means⟩, -, -, -, immune⟩ := means.member
  exact immune.nonneg (group_means.immunity.nonneg (le_refl 0))

theorem Loaded.row_nonneg {p : Permissions} (loaded : Loaded p) :
    ∀ id admin, p.admins.lookup id = some admin → 0 ≤ admin.immunity := by
  induction loaded with
  | initial =>
      intro id admin found
      exact nomatch found
  | load before directory ih =>
      rename_i p
      rcases load_cases p directory with ⟨table, replaced, only⟩ | ⟨⟨e, refused⟩, -⟩
      · rw [replaced]
        intro id admin found
        obtain ⟨groups, admins, -, defines⟩ := (only table).mpr rfl
        obtain ⟨entry, -, means⟩ := (lookup_admin defines).mp found
        exact means.immunity_nonneg
      · rw [refused]
        exact ih

theorem Loaded.immunity_nonneg {p : Permissions} (loaded : Loaded p) (player : Player) :
    0 ≤ p.immunity player := by
  unfold Permissions.immunity Permissions.find
  split
  · rename_i admin found
    split at found
    · exact loaded.row_nonneg _ _ found
    · cases found
  · exact le_refl 0

/-! ## What each decision says -/

theorem canTarget_caller {p : Permissions} {caller target : Player} {permission : Text} :
    p.canTarget (some caller) target permission = true ↔
      (validPermission permission = true ∧ 0 ≤ target.slot ∧ target.connection ≠ 0) ∧
      (authenticated caller = true ∧ p.allows caller permission = true) ∧
      (target.bot = true ∨ authenticated target = true) ∧
      (caller.sameConnection target = true ∧ caller.steamId = target.steamId ∨
        p.immunity target < p.immunity caller) := by
  unfold Permissions.canTarget
  by_cases fine : (!validPermission permission || decide (target.slot < 0) ||
      target.connection == 0) = true
  · rw [if_pos fine]
    constructor
    · intro same
      cases same
    · intro both
      obtain ⟨⟨valid, slot, connection⟩, -⟩ := both
      simp [valid, connection, not_lt.mpr slot] at fine
  · rw [if_neg fine]
    simp only [Bool.or_eq_true, Bool.not_eq_true', decide_eq_true_eq, beq_iff_eq, not_or,
      Bool.not_eq_false, not_lt] at fine
    rw [and_iff_right ⟨fine.1.1, fine.1.2, fine.2⟩]
    simp only
    by_cases known : (!authenticated caller || !p.allows caller permission) = true
    · rw [if_pos known]
      constructor
      · intro same
        cases same
      · intro both
        obtain ⟨⟨caller_known, allowed⟩, -⟩ := both
        simp [caller_known, allowed] at known
    · rw [if_neg known]
      simp only [Bool.or_eq_true, Bool.not_eq_true', not_or, Bool.not_eq_false] at known
      rw [and_iff_right known]
      by_cases pending : (!target.bot && !authenticated target) = true
      · rw [if_pos pending]
        simp only [Bool.and_eq_true, Bool.not_eq_true'] at pending
        simp [pending]
      · rw [if_neg pending]
        have shown : target.bot = true ∨ authenticated target = true := by
          simp only [Bool.and_eq_true, Bool.not_eq_true', not_and, Bool.not_eq_false] at pending
          cases bot : target.bot with
          | true => exact Or.inl rfl
          | false => exact Or.inr (pending bot)
        rw [and_iff_right shown]
        by_cases itself : (caller.sameConnection target && caller.steamId == target.steamId) = true
        · rw [if_pos itself]
          simp only [Bool.and_eq_true, beq_iff_eq] at itself
          simp [itself]
        · rw [if_neg itself, decide_eq_true_iff]
          simp only [Bool.and_eq_true, beq_iff_eq] at itself
          exact (or_iff_right itself).symm

theorem canTargetIdentity_caller {p : Permissions} {caller : Player} {target : Nat}
    {permission : Text} :
    p.canTargetIdentity (some caller) target permission = true ↔
      (validPermission permission = true ∧ validSteamIdentity target = true) ∧
      (authenticated caller = true ∧ p.allows caller permission = true) ∧
      (caller.steamId = target ∨
        ((p.admins.lookup target).elim 0 Admin.immunity) < p.immunity caller) := by
  unfold Permissions.canTargetIdentity
  by_cases fine : (!validPermission permission || !validSteamIdentity target) = true
  · rw [if_pos fine]
    constructor
    · intro same
      cases same
    · intro ⟨⟨valid, account⟩, _⟩
      simp [valid, account] at fine
  · rw [if_neg fine]
    simp only [Bool.or_eq_true, Bool.not_eq_true', not_or, Bool.not_eq_false] at fine
    rw [and_iff_right fine]
    simp only
    by_cases known : (!authenticated caller || !p.allows caller permission) = true
    · rw [if_pos known]
      constructor
      · intro same
        cases same
      · intro ⟨⟨caller_known, allowed⟩, _⟩
        simp [caller_known, allowed] at known
    · rw [if_neg known]
      simp only [Bool.or_eq_true, Bool.not_eq_true', not_or, Bool.not_eq_false] at known
      rw [and_iff_right known]
      by_cases itself : (caller.steamId == target) = true
      · rw [if_pos itself]
        simp [beq_iff_eq.mp itself]
      · rw [if_neg itself, decide_eq_true_iff]
        rw [beq_iff_eq] at itself
        rw [or_iff_right itself]
        cases p.admins.lookup target <;> exact Iff.rfl

theorem immunity_authenticated {p : Permissions} {player : Player}
    (known : authenticated player = true) :
    p.immunity player = (p.admins.lookup player.steamId).elim 0 Admin.immunity := by
  unfold Permissions.immunity Permissions.find
  rw [if_pos known]
  cases p.admins.lookup player.steamId <;> rfl

/-! ## The two decisions agree -/

/-- An action against a connected player is decided as one against the player's account. -/
theorem canTarget_eq_identity (p : Permissions) {players : Set Player}
    (one : OneConnection players) {caller : Option Player}
    (present : ∀ player, caller = some player → player ∈ players) {target : Player}
    (connected : target ∈ players) (known : authenticated target = true) (permission : Text) :
    p.canTarget caller target permission = p.canTargetIdentity caller target.steamId permission := by
  obtain ⟨slot, connection, -, -, account⟩ := authenticated_iff.mp known
  cases caller with
  | none =>
      unfold Permissions.canTarget Permissions.canTargetIdentity
      simp [account, connection, slot]
  | some caller =>
      rw [Bool.eq_iff_iff, canTarget_caller, canTargetIdentity_caller]
      have same_iff : authenticated caller = true →
          (caller.sameConnection target = true ∧ caller.steamId = target.steamId ↔
            caller.steamId = target.steamId) := by
        intro caller_known
        constructor
        · exact fun both => both.2
        · intro same
          exact ⟨one caller (present caller rfl) target connected caller_known known same, same⟩
      constructor
      · intro ⟨⟨valid, _, _⟩, ⟨caller_known, allowed⟩, _, grounds⟩
        refine ⟨⟨valid, account⟩, ⟨caller_known, allowed⟩, ?_⟩
        rw [same_iff caller_known, immunity_authenticated known] at grounds
        exact grounds
      · intro ⟨⟨valid, _⟩, ⟨caller_known, allowed⟩, grounds⟩
        refine ⟨⟨valid, slot, connection⟩, ⟨caller_known, allowed⟩, Or.inr known, ?_⟩
        rw [same_iff caller_known, immunity_authenticated known]
        exact grounds

/-! ## Between different players -/

/-- A player may do something to another one. -/
def Targets (p : Permissions) (caller target : Player) : Prop :=
  caller.sameConnection target = false ∧ ∃ permission, p.canTarget (some caller) target permission = true

theorem canTarget_other {p : Permissions} {caller target : Player} {permission : Text}
    (different : caller.sameConnection target = false)
    (allowed : p.canTarget (some caller) target permission = true) :
    p.allows caller permission = true ∧ p.immunity target < p.immunity caller := by
  obtain ⟨-, ⟨-, granted⟩, -, itself | higher⟩ := canTarget_caller.mp allowed
  · exact nomatch itself.1.symm.trans different
  · exact ⟨granted, higher⟩

theorem immunity_lt_of_chain {p : Permissions} {caller target : Player}
    (chain : Relation.TransGen (Targets p) caller target) :
    p.immunity target < p.immunity caller := by
  induction chain with
  | single step =>
      obtain ⟨different, permission, allowed⟩ := step
      exact (canTarget_other different allowed).2
  | tail _ step ih =>
      obtain ⟨different, permission, allowed⟩ := step
      exact lt_trans (canTarget_other different allowed).2 ih

/-- The decision about a connected player is the decision about the account; between
different players it takes the permission and a strictly higher immunity, so no chain
of players leads back, and no immunity reaches nobody. -/
theorem targeting_respects_immunity {p : Permissions} (loaded : Loaded p) {players : Set Player}
    (one : OneConnection players) :
    (∀ (caller : Option Player) (target : Player) (permission : Text),
      (∀ player, caller = some player → player ∈ players) → target ∈ players →
      authenticated target = true →
      p.canTarget caller target permission =
        p.canTargetIdentity caller target.steamId permission) ∧
    (∀ (caller target : Player) (permission : Text), caller.sameConnection target = false →
      p.canTarget (some caller) target permission = true →
      p.allows caller permission = true ∧ p.immunity target < p.immunity caller) ∧
    (∀ player, ¬Relation.TransGen (Targets p) player player) ∧
    ∀ (caller target : Player) (permission : Text), p.immunity caller = 0 →
      caller.sameConnection target = false →
      p.canTarget (some caller) target permission = false := by
  refine ⟨?_, ?_, ?_, ?_⟩
  · intro caller target permission present connected known
    exact canTarget_eq_identity p one present connected known permission
  · intro caller target permission different allowed
    exact canTarget_other different allowed
  · intro player chain
    exact lt_irrefl _ (immunity_lt_of_chain chain)
  · intro caller target permission none_held different
    rw [← Bool.not_eq_true]
    intro allowed
    have higher := (canTarget_other different allowed).2
    have positive := loaded.immunity_nonneg target
    omega

def bot : Player where
  slot := 1
  connection := 2
  bot := true

theorem targeting_respects_immunity_root :
    let p := (({} : Permissions).load rootDirectory).1
    p.canTarget (some rootPlayer) rootPlayer ['a'] =
        p.canTargetIdentity (some rootPlayer) rootPlayer.steamId ['a'] ∧
      p.canTarget (some rootPlayer) bot ['a'] = false := by
  have loaded : Loaded (({} : Permissions).load rootDirectory).1 :=
    Loaded.load Loaded.initial rootDirectory
  have one : OneConnection {rootPlayer, bot} := by
    rintro player (rfl | rfl) other (rfl | rfl) known other_known same
    · decide
    · exact absurd other_known (by decide)
    · exact absurd known (by decide)
    · exact absurd known (by decide)
  obtain ⟨agree, -, -, none_held⟩ := targeting_respects_immunity loaded one
  refine ⟨?_, ?_⟩
  · refine agree (some rootPlayer) rootPlayer ['a'] ?_ (Or.inl rfl) (by decide)
    intro player same
    exact Or.inl (Option.some.inj same).symm
  · refine none_held rootPlayer bot ['a'] ?_ (by decide)
    rw [rootDirectory_load]
    rfl

end Source2Root.Admins
