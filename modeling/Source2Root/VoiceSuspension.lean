import Source2Root.VoiceBooks

/-!
# The mutes across a suspension

A suspension moves every mute out of force and a resume moves them back.  The
operations in between should leave the mutes that they leave without a
suspension.  `Mark` is what one operation means for one owner's mute of one
connection; two small machines over marks, what the service does and what the
operations ask for, are compared first, and the service is then shown to run the
first of them.
-/

set_option autoImplicit false

namespace Source2Root.Voice

/-! ## One mute, mark by mark -/

inductive Mark where
  /-- A request that takes effect: the mute is to hold from now on, or not. -/
  | set (held : Bool)
  /-- The owner is released or the connection is over. -/
  | erase
  /-- All owners are released, which also ends a suspension. -/
  | clear
  | skip
deriving DecidableEq

/-- What was asked for. -/
def Mark.plan (held : Bool) : Mark → Bool
  | .set asked => asked
  | .erase | .clear => false
  | .skip => held

/-- What the service keeps: whether it is suspended, and the mute it will have
in force after a resume. -/
def Mark.keep : Bool × Bool → Mark → Bool × Bool
  | (suspended, held), .set asked => (suspended, if suspended then held else asked)
  | (suspended, _), .erase => (suspended, false)
  | _, .clear => (false, false)
  | kept, .skip => kept

/-- The last request made in the suspension, if nothing has overtaken it, asks
for what the suspension holds back. -/
def Harmless (held : Bool) (marks : List Mark) : Prop :=
  ∀ before asked after, marks = before ++ .set asked :: after → .clear ∉ before →
    (∀ mark ∈ after, mark = .skip) → (asked = true ↔ held = true ∧ .erase ∉ before)

theorem harmless_of_no_set (held : Bool) {marks : List Mark} (none_set : ∀ asked, .set asked ∉ marks) :
    Harmless held marks := by
  intro before asked after split
  exact absurd (by simp [split]) (none_set asked)

theorem keep_suspended (held : Bool) : ∀ marks : List Mark, .clear ∉ marks →
    (marks.foldl Mark.keep (true, held)).1 = true ∧
      ((marks.foldl Mark.keep (true, held)).2 = true ↔ held = true ∧ .erase ∉ marks) := by
  intro marks
  induction marks using List.reverseRecOn with
  | nil => simp
  | append_singleton marks mark ih =>
      intro noClear
      obtain ⟨suspended, kept⟩ := ih fun member => noClear (List.mem_append_left _ member)
      rw [List.foldl_concat]
      generalize marks.foldl Mark.keep (true, held) = reached at suspended kept
      obtain ⟨flag, now⟩ := reached
      obtain rfl : flag = true := suspended
      cases mark with
      | clear => exact absurd (by simp) noClear
      | set asked => simpa [Mark.keep] using kept
      | erase => simp [Mark.keep]
      | skip => simpa [Mark.keep] using kept

theorem keep_cleared (held : Bool) : ∀ marks : List Mark, .clear ∈ marks →
    (marks.foldl Mark.keep (true, held)).1 = false := by
  intro marks
  induction marks using List.reverseRecOn with
  | nil => simp
  | append_singleton marks mark ih =>
      intro cleared
      rw [List.foldl_concat]
      by_cases last : mark = .clear
      · rw [last]
        rfl
      · have before : .clear ∈ marks := by simpa [Ne.symm last] using cleared
        have ended := ih before
        generalize marks.foldl Mark.keep (true, held) = reached at ended
        obtain ⟨flag, now⟩ := reached
        cases mark with
        | clear => exact absurd rfl last
        | _ => exact ended

/-- The service keeps what was asked for exactly when the last request of the
suspension is harmless. -/
theorem keep_eq_plan_iff (held : Bool) : ∀ marks : List Mark,
    (marks.foldl Mark.keep (true, held)).2 = marks.foldl Mark.plan held ↔ Harmless held marks := by
  intro marks
  induction marks using List.reverseRecOn with
  | nil => simp [Harmless]
  | append_singleton marks mark ih =>
      rw [List.foldl_concat, List.foldl_concat]
      have overtaken (notSet : ∀ asked, mark ≠ .set asked) (notSkip : mark ≠ .skip) :
          Harmless held (marks ++ [mark]) := by
        intro before asked after split _ skipped
        rcases Transition.concat_split split with ⟨-, -, last⟩ | ⟨rest, rfl, -⟩
        · exact absurd last (notSet asked)
        · exact absurd (skipped mark (by simp)) notSkip
      cases mark with
      | erase => simpa [Mark.keep, Mark.plan] using overtaken (by simp) (by simp)
      | clear => simpa [Mark.keep, Mark.plan] using overtaken (by simp) (by simp)
      | skip =>
          rw [Mark.keep, Mark.plan, ih]
          constructor
          · intro harmless before asked after split noClear skipped
            rcases Transition.concat_split split with ⟨-, -, last⟩ | ⟨rest, rfl, same⟩
            · cases last
            · exact harmless before asked rest same noClear fun mark member =>
                skipped mark (by simp [member])
          · intro harmless before asked after split noClear skipped
            refine harmless before asked (after ++ [.skip]) (by simp [split]) noClear ?_
            intro mark member
            rcases List.mem_append.mp member with member | member
            · exact skipped mark member
            · exact List.mem_singleton.mp member
      | set asked =>
          have only : Harmless held (marks ++ [.set asked]) ↔
              (.clear ∉ marks → (asked = true ↔ held = true ∧ .erase ∉ marks)) := by
            constructor
            · exact fun harmless noClear => harmless marks asked [] rfl noClear (by simp)
            · intro last before other after split noClear skipped
              rcases Transition.concat_split split with ⟨-, rfl, same⟩ | ⟨rest, rfl, -⟩
              · cases same
                exact last noClear
              · cases skipped (.set asked) (by simp)
          rw [only, Mark.plan]
          by_cases cleared : .clear ∈ marks
          · have ended := keep_cleared held marks cleared
            generalize marks.foldl Mark.keep (true, held) = reached at ended
            obtain ⟨flag, now⟩ := reached
            obtain rfl : flag = false := ended
            simp [Mark.keep, cleared]
          · obtain ⟨suspended, kept⟩ := keep_suspended held marks cleared
            generalize marks.foldl Mark.keep (true, held) = reached at suspended kept
            obtain ⟨flag, now⟩ := reached
            obtain rfl : flag = true := suspended
            simp only [Mark.keep, if_true, cleared, not_false_eq_true, forall_const]
            rw [← kept]
            cases now <;> cases asked <;> simp

/-! ## What the operations ask for -/

/-- Which player each owner mutes on a slot. -/
abbrev Intent := Nat → Int → Option Player

/-- The mutes after one operation, with and without a suspension. -/
def Intent.after (intent : Intent) (label : Label) (succeeded : Bool) : Intent :=
  match label with
  | .set owner player muted _ => fun id slot =>
      if succeeded = true ∧ id = owner ∧ slot = player.slot then
        if muted then some player else none
      else intent id slot
  | .release owner _ => fun id slot => if owner = 0 ∨ id = owner then none else intent id slot
  | .disconnected at_ connection => fun id slot =>
      (intent id slot).filter fun player => ¬ (slot = at_ ∧ player.connection = connection)
  | _ => intent

/-- The mutes after a run of operations. -/
def Intent.afterAll (intent : Intent) : Sys → List Label → Intent
  | _, [] => intent
  | s, label :: rest =>
      (intent.after label (step s label).1.success).afterAll (step s label).2 rest

/-- What an operation means for the owner's mute of the player. -/
def Label.mark (owner : Nat) (player : Player) (label : Label) (succeeded : Bool) : Mark :=
  match label with
  | .set id asked muted _ =>
      if succeeded = true ∧ id = owner ∧ asked.slot = player.slot then
        .set (muted && asked.sameConnection player)
      else .skip
  | .release id _ => if id = 0 then .clear else if id = owner then .erase else .skip
  | .disconnected slot connection =>
      if slot = player.slot ∧ connection = player.connection then .erase else .skip
  | _ => .skip

def marks (owner : Nat) (player : Player) : Sys → List Label → List Mark
  | _, [] => []
  | s, label :: rest =>
      label.mark owner player (step s label).1.success :: marks owner player (step s label).2 rest

/-- Somebody is meant to mute the player: the entry of the slot is for the
player's connection. -/
def isFor (player : Player) (entry : Option Player) : Bool :=
  entry.any fun found => found.sameConnection player

theorem isFor_iff {player : Player} {entry : Option Player} :
    isFor player entry = true ↔ ∃ found, entry = some found ∧ found.sameConnection player = true := by
  cases entry <;> simp [isFor]

theorem isFor_filter {player : Player} {entry : Option Player} {at_ : Int} {connection : Nat} :
    isFor player (entry.filter fun found =>
        ¬ (player.slot = at_ ∧ found.connection = connection)) =
      (isFor player entry && !(decide (at_ = player.slot ∧ connection = player.connection))) := by
  cases entry with
  | none => simp [isFor]
  | some found =>
      rw [Option.filter_some]
      by_cases same : found.sameConnection player = true
      · have equal := (Player.sameConnection_iff.mp same).2.2
        have gone : (player.slot = at_ ∧ found.connection = connection) ↔
            (at_ = player.slot ∧ connection = player.connection) := by
          rw [equal]
          exact and_congr eq_comm eq_comm
        rw [decide_not, decide_eq_decide.mpr gone]
        cases decide (at_ = player.slot ∧ connection = player.connection) <;> simp [isFor, same]
      · split <;> simp [isFor, same]

theorem plan_mark {owner : Nat} {player : Player} {intent : Intent} {label : Label}
    {succeeded : Bool} :
    isFor player (intent.after label succeeded owner player.slot) =
      (label.mark owner player succeeded).plan (isFor player (intent owner player.slot)) := by
  cases label with
  | set id asked muted replies =>
      simp only [Intent.after, Label.mark]
      by_cases applies : succeeded = true ∧ id = owner ∧ asked.slot = player.slot
      · rw [if_pos applies, if_pos ⟨applies.1, applies.2.1.symm, applies.2.2.symm⟩]
        cases muted <;> simp [isFor, Mark.plan]
      · rw [if_neg applies, if_neg fun other => applies ⟨other.1, other.2.1.symm, other.2.2.symm⟩]
        rfl
  | release id replies =>
      simp only [Intent.after, Label.mark]
      by_cases all : id = 0
      · simp [all, isFor, Mark.plan]
      · by_cases own : id = owner
        · rw [if_pos (Or.inr own.symm), if_neg all, if_pos own]
          rfl
        · simp [all, own, Ne.symm own, Mark.plan]
  | disconnected slot connection =>
      simp only [Intent.after, Label.mark, isFor_filter]
      by_cases ended : slot = player.slot ∧ connection = player.connection
      · simp [ended, Mark.plan]
      · simp [ended, Mark.plan]
  | _ => rfl

theorem plan_marks {owner : Nat} {player : Player} : ∀ {rest : List Label} {intent : Intent} {s : Sys},
    isFor player (intent.afterAll s rest owner player.slot) =
      (marks owner player s rest).foldl Mark.plan (isFor player (intent owner player.slot)) := by
  intro rest
  induction rest with
  | nil => exact rfl
  | cons label rest ih =>
      intro intent s
      rw [Intent.afterAll, ih, plan_mark]
      rfl

/-! ## What the service keeps -/

/-- Whether the service is suspended, and the entry of the owner that will be in
force after a resume. -/
def kept (v : Service) (owner : Nat) (player : Player) : Bool × Bool :=
  (v.suspended, isFor player (look (if v.suspended then v.parked else v.owners) owner player.slot))

/-- An operation between a suspension and the resume; one that sets a mute does
it, or leaves every mute as it was. -/
def Between (s : Sys) : Label → Prop
  | .suspend _ | .resume _ => False
  | .set owner player muted replies =>
      (step s (.set owner player muted replies)).1.success = true ∨
        (step s (.set owner player muted replies)).2.service.books = s.service.books
  | _ => True

/-- `Refresh` changes no mute of a player who stays. -/
theorem Trimmed.isFor {s later : Sys} (filed : Filed s) (trimmed : Trimmed s later)
    {player : Player} (stays : later.world.known player → later.world.has player = true)
    (owner : Nat) :
    Voice.isFor player (look later.service.owners owner player.slot) =
      Voice.isFor player (look s.service.owners owner player.slot) := by
  rcases trimmed.entries owner player.slot with same | ⟨gone, absent⟩
  · rw [same]
  · rw [gone, Bool.eq_iff_iff, isFor_iff, isFor_iff]
    constructor
    · rintro ⟨found, at_, -⟩
      cases at_
    · rintro ⟨found, at_, same⟩
      have missing := absent found at_
      have known := trimmed.aged.used found (filed.inForce owner _ found at_).2
      have has := stays (World.known_congr same known)
      rw [World.has_congr (Player.sameConnection_symm same) has] at missing
      cases missing

theorem keep_mark (owner : Nat) {s : Sys} (inv : Inv s) (filed : Filed s) {label : Label}
    {player : Player} (between : Between s label)
    (stays : (step s label).2.world.known player → (step s label).2.world.has player = true) :
    kept (step s label).2.service owner player =
      Mark.keep (kept s.service owner player)
        (label.mark owner player (step s label).1.success) := by
  have ready : Inv { s with replies := label.replies } := inv
  have filed₀ : Filed { s with replies := label.replies } := ⟨filed.inForce, filed.heldBack⟩
  cases label with
  | suspend replies => exact between.elim
  | resume replies => exact between.elim
  | move changes => rfl
  | request receiver speaker listening faults =>
      have books := (request_books ready (by
        intro reply member
        obtain ⟨fault, -, rfl⟩ := List.mem_map.mp member
        rfl) receiver speaker listening).1
      obtain ⟨owners, parked, suspended⟩ := books_eq books
      change kept (request receiver speaker listening _).2.service owner player = _
      simp only [kept, owners, parked, suspended]
      rfl
  | refresh replies =>
      have trimmed := refresh_trimmed filed₀ ready
      have same := trimmed.isFor filed₀ stays owner
      change kept (refresh _).2.service owner player = _
      simp only [kept, trimmed.suspended, trimmed.parked, Label.mark, Mark.keep]
      split
      · rfl
      · rw [same]
  | disconnected slot connection =>
      change kept { s.service with
        parked := dropConnection s.service.parked slot connection
        owners := dropConnection s.service.owners slot connection
        pairs := _ } owner player = _
      simp only [kept, Label.mark]
      have dropped (owners : Owners) : isFor player
          (look (dropConnection owners slot connection) owner player.slot) =
            (isFor player (look owners owner player.slot) &&
              !(decide (slot = player.slot ∧ connection = player.connection))) := by
        rw [look_dropConnection, isFor_filter]
      by_cases ended : slot = player.slot ∧ connection = player.connection
      · simp only [if_pos ended, Mark.keep]
        split <;> rw [dropped] <;> simp [ended]
      · simp only [if_neg ended, Mark.keep]
        split <;> rw [dropped] <;> simp [ended]
  | release id replies =>
      obtain ⟨owners, parked, suspended⟩ := books_eq (release_books ready id)
      change kept (release id _).2.service owner player = _
      simp only [kept, owners, parked, suspended, Label.mark, Service.unpark]
      by_cases all : id = 0
      · simp [all, Mark.keep, look_filter, isFor]
      · have erased : look (s.service.parked.erase id) owner player.slot =
            if id = owner then none else look s.service.parked owner player.slot := by
          simp only [look, Std.ExtTreeMap.getElem?_erase, Std.LawfulEqOrd.compare_eq_iff_eq]
          split <;> rfl
        have nonzero : id ≠ 0 := all
        by_cases own : id = owner
        · obtain rfl := own
          rw [if_neg all, if_pos rfl, if_pos nonzero]
          cases s.service.suspended with
          | true => simp [erased, isFor, Mark.keep]
          | false => simp [look_filter, isFor, Mark.keep]
        · rw [if_neg all, if_neg own, if_pos nonzero]
          cases s.service.suspended with
          | true => simp [erased, own, Mark.keep]
          | false => simp [look_filter, all, Ne.symm own, Mark.keep]
  | set id asked muted replies =>
      have applied (updated : Owners) (set : Bool)
          (effect : look updated owner player.slot =
            if owner = id ∧ player.slot = asked.slot then (if set then some asked else none)
            else look s.service.owners owner player.slot)
          (books : (step s (.set id asked set replies)).2.service.books =
            (updated, s.service.parked, s.service.suspended))
          (succeeded : (step s (.set id asked set replies)).1.success = true) :
          kept (step s (.set id asked set replies)).2.service owner player =
            Mark.keep (kept s.service owner player)
              ((Label.set id asked set replies).mark owner player
                (step s (.set id asked set replies)).1.success) := by
        obtain ⟨owners, parked, suspended⟩ := books_eq books
        simp only [kept, owners, parked, suspended, Label.mark, succeeded, true_and]
        by_cases own : id = owner ∧ asked.slot = player.slot
        · rw [if_pos own]
          simp only [Mark.keep]
          split
          · rfl
          · rw [effect, if_pos ⟨own.1.symm, own.2.symm⟩]
            cases set <;> simp [isFor]
        · rw [if_neg own]
          simp only [Mark.keep]
          split
          · rfl
          · rw [effect, if_neg fun both => own ⟨both.1.symm, both.2.symm⟩]
      have refused (failed : (step s (.set id asked muted replies)).1.success = false)
          (books : (step s (.set id asked muted replies)).2.service.books = s.service.books) :
          kept (step s (.set id asked muted replies)).2.service owner player =
            Mark.keep (kept s.service owner player)
              ((Label.set id asked muted replies).mark owner player
                (step s (.set id asked muted replies)).1.success) := by
        obtain ⟨owners, parked, suspended⟩ := books_eq books
        simp [kept, owners, parked, suspended, Label.mark, failed, Mark.keep]
      by_cases succeeded : (step s (.set id asked muted replies)).1.success = true
      · cases muted with
        | true =>
            rcases set_mute_books ready id asked with ⟨-, failed⟩ | ⟨books, -⟩
            · exact absurd (succeeded.symm.trans failed) (by simp)
            · exact applied _ true (by simp [look_recorded]) books succeeded
        | false =>
            rcases set_unmute_books ready id asked with ⟨-, failed⟩ | books
            · exact absurd (succeeded.symm.trans failed) (by simp)
            · exact applied _ false (by simp [look_forget]) books succeeded
      · exact refused (by simpa using succeeded) (between.resolve_left succeeded)

def AllBetween : Sys → List Label → Prop
  | _, [] => True
  | s, label :: rest => Between s label ∧ AllBetween (step s label).2 rest

theorem run_filed : ∀ {rest : List Label} {s t : Sys}, Inv s → Filed s →
    Transition.run next s rest = some t → Inv t ∧ Filed t := by
  intro rest
  induction rest with
  | nil =>
      intro s t inv filed ran
      cases Option.some.inj ran
      exact ⟨inv, filed⟩
  | cons label rest ih =>
      intro s t inv filed ran
      exact ih (step_inv inv label) (step_filed inv filed label) ran

theorem run_aged : ∀ {rest : List Label} {s t : Sys}, Inv s →
    Transition.run next s rest = some t → Aged s.world t.world := by
  intro rest
  induction rest with
  | nil =>
      intro s t inv ran
      cases Option.some.inj ran
      exact Aged.refl _
  | cons label rest ih =>
      intro s t inv ran
      exact (step_aged inv label).trans (ih (step_inv inv label) ran)

theorem keep_marks (owner : Nat) (player : Player) : ∀ {rest : List Label} {s t : Sys}, Inv s →
    Filed s → AllBetween s rest → Transition.run next s rest = some t →
    (t.world.known player → t.world.has player = true) →
      kept t.service owner player =
        (marks owner player s rest).foldl Mark.keep (kept s.service owner player) := by
  intro rest
  induction rest with
  | nil =>
      intro s t inv filed _ ran _
      cases Option.some.inj ran
      rfl
  | cons label rest ih =>
      intro s t inv filed between ran stays
      have inv₁ := step_inv inv label
      have aged := run_aged inv₁ ran
      have one := keep_mark owner inv filed between.1
        fun known => aged.stayed player known (stays (aged.used player known))
      rw [ih inv₁ (step_filed inv filed label) between.2 ran stays, one]
      rfl

/-- What a resume puts in force. -/
theorem resume_kept (owner : Nat) (player : Player) {s : Sys} (inv : Inv s) (filed : Filed s)
    (stays : (resume s).2.world.known player → (resume s).2.world.has player = true) :
    isFor player (look (resume s).2.service.owners owner player.slot) =
      (kept s.service owner player).2 := by
  have back := resumed_filed filed
  rw [resume_run] at stays ⊢
  rw [(refresh_trimmed back (resumed_inv inv)).isFor back stays owner]
  simp only [kept, resumed]
  split <;> rfl

/-- Between a suspension and the resume, the mutes in force afterwards are those
asked for exactly when no request for a mute that outlives the suspension asks
for anything but what the suspension holds back. -/
theorem suspension_exact (history : List Label) (s : Sys)
    (ran : Transition.run next {} history = some s) (active : s.service.suspended = false)
    (replies : List Reply) (succeeded : (step s (.suspend replies)).1.success = true)
    (rest : List Label) (t : Sys) (between : AllBetween (step s (.suspend replies)).2 rest)
    (continued : Transition.run next (step s (.suspend replies)).2 rest = some t)
    (answers : List Reply) :
    (∀ owner player, (step t (.resume answers)).2.world.has player = true →
      (Holds (step t (.resume answers)).2.service owner player ↔
        ∃ found, Intent.afterAll (look s.service.owners) (step s (.suspend replies)).2 rest owner
          player.slot = some found ∧ found.sameConnection player = true)) ↔
    ∀ owner player, (step t (.resume answers)).2.world.has player = true →
      Harmless (isFor player (look s.service.owners owner player.slot))
        (marks owner player (step s (.suspend replies)).2 rest) := by
  obtain ⟨inv, filed⟩ := filed_run history s ran
  have inv₁ := step_inv inv (.suspend replies)
  have filed₁ := step_filed inv filed (.suspend replies)
  obtain ⟨-, parked, suspended⟩ := books_eq (s := (step s (.suspend replies)).2)
    (suspended_of_success (s := { s with replies }) inv active succeeded)
  obtain ⟨invT, filedT⟩ := run_filed inv₁ filed₁ continued
  refine forall_congr' fun owner => forall_congr' fun player => forall_congr' fun has => ?_
  have readyT : Inv { t with replies := answers } := invT
  have filedT₀ : Filed { t with replies := answers } := ⟨filedT.inForce, filedT.heldBack⟩
  have back := resume_kept owner player readyT filedT₀ fun _ => has
  have stays := (step_aged invT (.resume answers)).stayed player
  have marked := keep_marks owner player inv₁ filed₁ between continued
    fun known => stays known has
  have first : kept (step s (.suspend replies)).2.service owner player =
      (true, isFor player (look s.service.owners owner player.slot)) := by
    simp only [kept, suspended, parked, if_true]
  rw [holds_iff, ← isFor_iff, ← isFor_iff, plan_marks, ← keep_eq_plan_iff, ← Bool.eq_iff_iff]
  rw [first] at marked
  rw [← marked]
  exact Eq.congr_left back

/-- A player, whose mute the service holds back. -/
def pausedRun : List Label := [
  .move [.join { slot := 0, connection := 10 } fun _ _ => true],
  .set 7 { slot := 0, connection := 10 } true []]

theorem suspension_exact_released :
    ∃ s t, Transition.run next {} pausedRun = some s ∧
      Transition.run next (step s (.suspend [])).2 [.release 7 []] = some t ∧
      (Holds (step t (.resume [])).2.service 7 { slot := 0, connection := 10 } ↔
        ∃ found, Intent.afterAll (look s.service.owners) (step s (.suspend [])).2 [.release 7 []] 7 0 =
          some found ∧ found.sameConnection { slot := 0, connection := 10 } = true) :=
  ⟨_, _, rfl, rfl, (suspension_exact pausedRun _ rfl (by decide +kernel) [] (by decide +kernel)
    [.release 7 []] _ ⟨trivial, trivial⟩ rfl []).mpr (by
      intro owner player _
      apply harmless_of_no_set
      intro asked member
      simp only [marks, Label.mark, List.mem_singleton, OfNat.ofNat_ne_zero, if_false] at member
      split at member <;> cases member) 7 { slot := 0, connection := 10 } (by decide +kernel)⟩

/-- A mute accepted during the suspension is lost. -/
theorem mute_lost_on_resume :
    ∃ s t, Transition.run next {} pausedRun = some s ∧ s.service.suspended = false ∧
      (step s (.suspend [])).1.success = true ∧
      (step (step s (.suspend [])).2 (.set 8 { slot := 0, connection := 10 } true [])).1.success =
        true ∧
      Transition.run next (step s (.suspend [])).2
        [.set 8 { slot := 0, connection := 10 } true []] = some t ∧
      (step t (.resume [])).1.success = true ∧
      (step t (.resume [])).2.world.has { slot := 0, connection := 10 } = true ∧
      Intent.afterAll (look s.service.owners) (step s (.suspend [])).2
        [.set 8 { slot := 0, connection := 10 } true []] 8 0 =
          some { slot := 0, connection := 10 } ∧
      ¬ Holds (step t (.resume [])).2.service 8 { slot := 0, connection := 10 } := by
  refine ⟨_, _, rfl, by decide +kernel, by decide +kernel, by decide +kernel, rfl,
    by decide +kernel, by decide +kernel, by decide +kernel, ?_⟩
  rw [holds_iff, ← isFor_iff]
  decide +kernel

end Source2Root.Voice
