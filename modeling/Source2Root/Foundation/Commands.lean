import Source2Root.Foundation.PlayerHandles
import Source2Root.SettingsExact

/-!
# Commands in chat and at the console

A message runs the command of one script at most, and only for a caller who may run it.
What is hidden of the chat depends on the triggers and the gags alone.
-/

set_option autoImplicit false

namespace Source2Root.Foundation

open Reentrant Handles

variable {s : State} {a : Addr}

/-! ## The text -/

theorem findIdx?_blank {text : List Char} {split : Nat}
    (found : text.findIdx? (· == ' ') = some split) :
    text = text.take split ++ ' ' :: text.drop (split + 1) ∧ ' ' ∉ text.take split := by
  obtain ⟨inside, blank, before⟩ := List.findIdx?_eq_some_iff_getElem.mp found
  have here : text[split] = ' ' := by simpa using blank
  constructor
  · rw [← here, ← List.drop_eq_getElem_cons inside, List.take_append_drop]
  · intro member
    obtain ⟨i, at_, is⟩ := List.mem_take_iff_getElem.mp member
    have apart := before i (by omega)
    rw [is] at apart
    simp at apart

/-- The trigger, the name and the arguments are the text: no index leaves it. -/
theorem text_cut {text trigger : List Char} (matched : trigger <+: text)
    (solid : ' ' ∉ trigger) :
    ' ' ∉ commandName text trigger.length ∧
      ((' ' ∉ text ∧ text = trigger ++ commandName text trigger.length ∧
          commandArguments text = []) ∨
        text = trigger ++ commandName text trigger.length ++ ' ' :: commandArguments text) := by
  obtain ⟨rest, rfl⟩ := matched
  unfold commandName commandArguments
  cases found : (trigger ++ rest).findIdx? (· == ' ') with
  | none =>
      have blankless : ' ' ∉ trigger ++ rest := by
        intro member
        have none_ := List.findIdx?_eq_none_iff.mp found ' ' member
        simp at none_
      rw [List.drop_left]
      exact ⟨fun member => blankless (List.mem_append_right _ member),
        Or.inl ⟨blankless, rfl, rfl⟩⟩
  | some split =>
      obtain ⟨cut, before⟩ := findIdx?_blank found
      have within : trigger.length ≤ split := by
        by_contra short
        have inside : split < trigger.length := Nat.lt_of_not_le short
        obtain ⟨inside_, blank, -⟩ := List.findIdx?_eq_some_iff_getElem.mp found
        rw [List.getElem_append_left inside] at blank
        exact solid ((by simpa using blank : trigger[split] = ' ') ▸ List.getElem_mem inside)
      dsimp only
      rw [if_pos within, List.drop_left]
      have start : (trigger ++ rest).take split =
          trigger ++ rest.take (split - trigger.length) := by
        rw [List.take_append, List.take_of_length_le within]
      rw [start] at cut before
      exact ⟨fun member => before (List.mem_append_right _ member), Or.inr cut⟩

/-! ## Triggers -/

def Origin.chat (origin : Origin) : Bool := origin == .publicChat || origin == .silentChat

theorem Origin.chat_server {origin : Origin} (chat : origin.chat = true) :
    (origin == .serverConsole) = false := by
  cases origin with
  | publicChat => rfl
  | silentChat => rfl
  | serverConsole => cases chat
  | clientConsole => cases chat

/-- The silent trigger starts the text, and no longer public one does. -/
def State.Silent (s : State) (text : List Char) : Prop :=
  s.silentTrigger ≠ [] ∧ s.silentTrigger <+: text ∧
    ¬ (s.publicTrigger <+: text ∧ s.silentTrigger.length < s.publicTrigger.length)

def starts (trigger text : List Char) : Bool := !trigger.isEmpty && trigger.isPrefixOf text

/-- As `Dispatch` compares the two triggers. -/
def State.silent (s : State) (text : List Char) : Bool :=
  starts s.silentTrigger text &&
    (!starts s.publicTrigger text || s.publicTrigger.length < s.silentTrigger.length)

theorem starts_iff {trigger text : List Char} :
    starts trigger text = true ↔ trigger ≠ [] ∧ trigger <+: text := by
  simp [starts]

theorem State.silent_iff (differ : s.publicTrigger = s.silentTrigger → s.publicTrigger = [])
    (text : List Char) : s.silent text = true ↔ s.Silent text := by
  unfold State.silent State.Silent
  rw [Bool.and_eq_true, Bool.or_eq_true, Bool.not_eq_true', decide_eq_true_eq,
    starts_iff]
  constructor
  · rintro ⟨⟨filled, first⟩, shorter⟩
    refine ⟨filled, first, fun ⟨begins, longer⟩ => ?_⟩
    rcases shorter with apart | shorter
    · have matched : starts s.publicTrigger text = true := by
        refine starts_iff.mpr ⟨?_, begins⟩
        rintro empty
        rw [empty] at longer
        cases longer
      exact Bool.false_ne_true (apart.symm.trans matched)
    · omega
  · rintro ⟨filled, first, none_⟩
    refine ⟨⟨filled, first⟩, ?_⟩
    cases matched : starts s.publicTrigger text with
    | false => exact Or.inl rfl
    | true =>
        obtain ⟨-, begins⟩ := starts_iff.mp matched
        refine Or.inr (lt_of_le_of_ne (Nat.le_of_not_lt fun longer => none_ ⟨begins, longer⟩) ?_)
        intro same
        have equal := List.prefix_of_prefix_length_le begins first same.le
        have is := equal.eq_of_length same
        exact filled (is ▸ differ is)

/-- What is cut off the text: nothing at a console. -/
def State.trigger (s : State) (origin : Origin) (text : List Char) : List Char :=
  if origin.chat then (if s.silent text then s.silentTrigger else s.publicTrigger) else []

/-- A trigger starts the text. -/
def State.begun (s : State) (text : List Char) : Prop :=
  starts s.publicTrigger text = true ∨ starts s.silentTrigger text = true

/-- Of two triggers, the one that is cut starts the text. -/
theorem State.begun_trigger {origin : Origin} {text : List Char} (chat : origin.chat = true)
    (begun : s.begun text) : starts (s.trigger origin text) text = true := by
  unfold State.trigger
  rw [if_pos chat]
  cases silent : s.silent text with
  | true => exact (Bool.and_eq_true_iff.mp silent).1
  | false =>
      rcases begun with public_ | hidden
      · exact public_
      · -- the silent trigger starts the text and is not taken, so the public one does too
        unfold State.silent at silent
        rw [hidden, Bool.true_and, Bool.or_eq_false_iff, Bool.not_eq_false'] at silent
        exact silent.1

/-- The command that the text names. -/
def State.named (s : State) (origin : Origin) (text : List Char) : String :=
  let word := commandName text (s.trigger origin text).length
  String.ofList (if origin.chat then 's' :: 'r' :: '_' :: word else word)

/-! ## The command -/

/-- The script is about to run the command of the text, for the console or for a player
whom the host reports, who holds the permission and whose handle it gets. -/
def Ran (name : String) (origin : Origin) (slot : Int) (text : List Char) (r : Reply)
    (s' : State) : Prop :=
  malformed text = false ∧ ∃ (t : State) (a : Addr) (handle : HandleId) (command : Command),
    s' = t.enter a (.command name handle (commandArguments text)) ∧
    t.state a = .running ∧ (t.commandsOf a)[name]? = some command ∧
    (origin = .serverConsole ∧ slot = -1 ∧ handle = 0 ∨
      origin ≠ .serverConsole ∧ 0 ≤ slot ∧ r.result = .ok ∧
        t.permissions.allows r.player command.permission = true ∧ t.HasPlayer a handle r.player)

theorem playerHandle_ends (reach : Reach s) (player : Player) (running : s.state a = .running) :
    ∃ outcome t, playerHandle a player s = .done outcome t ∧
      ∀ id, outcome = .ok id → (∃ handles, t = { s with handles }) ∧ t.HasPlayer a id player := by
  have awake : s.Awake a := ⟨Or.inl running, (reach.living.home a (Or.inl running)).1⟩
  cases known : s.knows a player with
  | true =>
      obtain ⟨id, ends, same⟩ := playerHandle_known reach known
      refine ⟨_, _, ends, fun other is => ?_⟩
      cases is
      obtain ⟨found, there, is⟩ := matches_iff.mp same
      obtain ⟨slot, -, connection⟩ := Player.sameConnection_iff.mp is
      exact ⟨⟨s.handles, rfl⟩, found, there, slot, connection⟩
  | false =>
      by_cases room : s.load a < 128 ∧ s.handles.spare ≠ 0
      · obtain ⟨id, handles, ends, added⟩ := playerHandle_adds reach awake known room.1 room.2
        refine ⟨_, _, ends, fun other is => ?_⟩
        cases is
        exact ⟨⟨handles, rfl⟩, State.hasPlayer_add added⟩
      · have full : 128 ≤ s.load a ∨ s.handles.spare = 0 := by
          by_contra some_
          obtain ⟨quota, spare⟩ := not_or.mp some_
          exact room ⟨Nat.lt_of_not_le quota, spare⟩
        obtain ⟨x, ends⟩ := playerHandle_refuses reach awake known full
        exact ⟨_, _, ends, fun other is => nomatch is⟩

/-- What is the case when the owners of the command are asked in turn. -/
structure Asked (origin : Origin) (slot : Int) (text : List Char) (r : Reply) : Prop where
  well : malformed text = false
  caller : origin = .serverConsole ∧ slot = -1 ∨
    origin ≠ .serverConsole ∧ 0 ≤ slot ∧ r.result = .ok

theorem invoke_enters {P : State → Prop} {reason : Reason} (fine : P (s.enter a reason)) :
    ((tryCatch (invoke a reason >>= fun _ => Pure.pure ()) fun _ => Pure.pure () : M Unit) s).Enters
      P (fun _ outcome _ => outcome = .ok ()) 1 := by
  refine ⟨fine, fun r s' => ?_⟩
  refine Tree.enters_bind.mpr (Tree.enters_bind.mpr ?_)
  show Tree.Enters P _ ((ite ((!r.flag) = true) _ _ : M (Bool × Int)) (s'.leave a)) 0
  by_cases flag : (!r.flag) = true
  · rw [if_pos flag]
    exact rfl
  · rw [if_neg flag]
    exact rfl

/-- The first running owner is called, and nobody else. -/
theorem runCommand_enters (reach : Reach s) {origin : Origin} {slot : Int} {text : List Char}
    {r : Reply} (asked : Asked origin slot text r) {name : String} {owners : List Addr}
    (mine : ∀ a ∈ owners, ∃ command, (s.commandsOf a)[name]? = some command) :
    (runCommand (origin == .serverConsole) r.player name (commandArguments text) owners s).Enters
      (Ran name origin slot text r) (fun _ outcome _ => outcome = .ok ()) 1 := by
  induction owners with
  | nil => exact rfl
  | cons a rest ih =>
      have others := ih fun b member => mine b (List.mem_cons_of_mem _ member)
      rw [runCommand, get_bind]
      by_cases running : s.state a = .running
      · rw [if_neg (not_not.mpr running)]
        obtain ⟨command, there⟩ := mine a List.mem_cons_self
        rw [there]
        show ((ite ((!origin == .serverConsole && !s.permissions.allows r.player command.permission)
          = true) _ _ : M Unit) s).Enters _ _ 1
        by_cases refused : (!origin == .serverConsole &&
            !s.permissions.allows r.player command.permission) = true
        · rw [if_pos refused]
          exact fun _ => rfl
        rw [if_neg refused]
        by_cases console : origin = .serverConsole
        · subst console
          have is : slot = -1 := by
            rcases asked.caller with ⟨-, is⟩ | ⟨elsewhere, -⟩
            · exact is
            · exact absurd rfl elsewhere
          exact invoke_enters ⟨asked.well, s, a, 0, command, rfl, running, there,
            Or.inl ⟨rfl, is, rfl⟩⟩
        · have elsewhere : (origin == .serverConsole) = false := beq_eq_false_iff_ne.mpr console
          obtain ⟨-, inside, found⟩ := asked.caller.resolve_left fun here => console here.1
          have permitted : s.permissions.allows r.player command.permission = true := by
            simpa [elsewhere] using refused
          rw [elsewhere, if_neg Bool.false_ne_true]
          obtain ⟨outcome, t, ends, served⟩ := playerHandle_ends reach r.player running
          cases outcome with
          | error x =>
              rw [raise_try (raise_bind ends)]
              exact rfl
          | ok handle =>
              obtain ⟨⟨handles, rfl⟩, known⟩ := served handle rfl
              rw [done_try_bind ends]
              exact invoke_enters ⟨asked.well, _, a, handle, command, rfl, running, there,
                Or.inr ⟨console, inside, found, permitted, known⟩⟩
      · rw [if_pos running]
        exact others

/-- What `Dispatch` answers: whether the message is hidden. -/
def Answers (s : State) (origin : Origin) (slot : Int) (text : List Char) (r : Reply)
    (outcome : Except Raised Bool) : Prop :=
  ∃ hidden, outcome = .ok hidden ∧ (origin.chat = true →
    (hidden = true ↔ ¬ (0 ≤ slot ∧ r.result = .ok) ∨ s.gagged r.player = true ∨ s.Silent text))

/-- What `Dispatch` does for a caller whom it knows, when a command may be named. -/
def answer (server : Bool) (caller : Player) (name : String) (text : List Char)
    (silent missing hidden : Bool) : M Bool := do
  reconcilePlayers
  match (← get).commands[name]? with
  | none =>
      if silent then
        let _ ← host
      return missing
  | some owners =>
      if malformed text then
        let _ ← host
        return hidden
      runCommand server caller name (commandArguments text) (owners.sort (· ≤ ·))
      return hidden

theorem answer_enters (reach : Reach s) {origin : Origin} {slot : Int} (text : List Char)
    {r : Reply} (caller : origin = .serverConsole ∧ slot = -1 ∨
      origin ≠ .serverConsole ∧ 0 ≤ slot ∧ r.result = .ok)
    (name : String) (silent missing hidden : Bool) :
    (answer (origin == .serverConsole) r.player name text silent missing hidden s).Enters
      (Ran name origin slot text r)
      (fun _ outcome _ => outcome = .ok missing ∨ outcome = .ok hidden) 1 := by
  unfold answer
  refine enters_after (reconcilePlayers_runs (E := False) (Within.start reach)) ?_ ?_
  · intro _ s' fine
    rw [get_bind]
    cases there : s'.commands[name]? with
    | none =>
        refine enters_ite (fun _ => ?_) fun _ => ?_
        · exact fun _ => Or.inl rfl
        · exact Or.inl rfl
    | some owners =>
        refine enters_ite (fun _ _ => Or.inr rfl) fun well => ?_
        have asked : Asked origin slot text r := ⟨by simpa using well, caller⟩
        refine Tree.enters_bind.mpr (Tree.Enters.mono (runCommand_enters fine.1.reach asked
          fun a member => ?_) fun n outcome s' ends => ?_)
        · exact fine.1.reach.registers.command there ((Finset.mem_sort _).mp member)
        · subst ends
          exact Or.inr rfl
  · exact fun x s' fine => (fine.2.2 x rfl).elim

/-- The message of a player in the chat. -/
theorem dispatchFor_chat (reach : Reach s)
    (differ : s.publicTrigger = s.silentTrigger → s.publicTrigger = []) {origin : Origin}
    (chat : origin.chat = true) (slot : Int) (text : List Char) (r : Reply) :
    (dispatchFor origin slot text r s).Enters (Ran (s.named origin text) origin slot text r)
      (fun _ outcome _ => Answers s origin slot text r outcome) 1 := by
  have h : (origin == .publicChat || origin == .silentChat) = true := chat
  have server := Origin.chat_server chat
  have console : origin ≠ .serverConsole := beq_eq_false_iff_ne.mp server
  have silent := State.silent_iff differ text
  unfold dispatchFor
  simp only [h, server, Bool.true_and, Bool.false_eq_true, if_false, if_true, Bool.not_true,
    Bool.or_false]
  refine enters_ite (fun stranger => ?_) fun known => ?_
  · refine ⟨true, rfl, fun _ => ⟨fun _ => Or.inl fun both => ?_, fun _ => rfl⟩⟩
    simp [both] at stranger
  have known : 0 ≤ slot ∧ r.result = .ok := by simpa using known
  rw [get_bind]
  refine enters_ite (fun empty => ?_) fun _ => enters_ite (fun none_ => ?_) fun _ => ?_
  · have unheard : ¬ s.Silent text := by
      rintro ⟨filled, first, -⟩
      rw [List.isEmpty_iff.mp empty] at first
      exact filled (List.prefix_nil.mp first)
    exact ⟨_, rfl, fun _ => by simp [known, unheard]⟩
  · have unheard : ¬ s.Silent text := by
      rw [← silent]
      have apart : starts s.silentTrigger text = false :=
        (Bool.not_eq_true' _).mp (Bool.and_eq_true_iff.mp none_).2
      simp [State.silent, apart]
    exact ⟨_, rfl, fun _ => by simp [known, unheard]⟩
  refine enters_ite (fun stranger => ?_) fun _ => ?_
  · exact absurd stranger (by simp [known])
  have asked := answer_enters reach text (Or.inr ⟨console, known⟩)
    (s.named origin text) (s.silent text) (s.gagged r.player || s.silent text)
    (s.gagged r.player || s.silent text)
  have named : s.named origin text = String.ofList ('s' :: 'r' :: '_' :: commandName text
      (if s.silent text = true then s.silentTrigger.length else s.publicTrigger.length)) := by
    unfold State.named State.trigger
    rw [chat]
    cases s.silent text <;> rfl
  rw [server, named] at asked
  rw [named]
  refine Tree.Enters.mono asked fun _ outcome _ ends => ⟨_, or_self_iff.mp ends, fun _ => ?_⟩
  rw [Bool.or_eq_true, silent]
  simp [known]

/-- A line at a console. -/
theorem dispatchFor_console (reach : Reach s) {origin : Origin} (chat : origin.chat = false)
    (slot : Int) (text : List Char) (r : Reply) :
    (dispatchFor origin slot text r s).Enters (Ran (s.named origin text) origin slot text r)
      (fun _ outcome _ => Answers s origin slot text r outcome) 1 := by
  have h : (origin == .publicChat || origin == .silentChat) = false := chat
  have said : ∀ hidden : Bool, Answers s origin slot text r (.ok hidden) :=
    fun hidden => ⟨hidden, rfl, fun is => absurd (chat.symm.trans is) Bool.false_ne_true⟩
  unfold dispatchFor
  simp only [h, Bool.false_and, Bool.false_eq_true, if_false, Bool.not_false, Bool.or_true]
  rw [get_bind]
  refine enters_ite (fun _ => said _) fun _ => enters_ite (fun _ => said _) fun known => ?_
  have caller : origin = .serverConsole ∧ slot = -1 ∨
      origin ≠ .serverConsole ∧ 0 ≤ slot ∧ r.result = .ok := by
    by_cases console : origin = .serverConsole
    · exact Or.inl ⟨console, by simpa [console] using known⟩
    · exact Or.inr ⟨console, by simpa [console] using known⟩
  have asked := answer_enters reach text caller (s.named origin text) false false true
  have named : s.named origin text = String.ofList (commandName text 0) := by
    unfold State.named State.trigger
    rw [chat]
    rfl
  rw [named] at asked
  rw [named]
  refine Tree.Enters.mono asked fun _ outcome _ ends => ?_
  rcases ends with rfl | rfl
  · exact said _
  · exact said _

/-- A text in the chat that no trigger starts is only hidden or not. -/
theorem dispatchFor_plain {origin : Origin} {text : List Char} (chat : origin.chat = true)
    (plain : ¬ s.begun text) (slot : Int) (r : Reply) :
    ∃ hidden, dispatchFor origin slot text r s = .done (.ok hidden) s := by
  obtain ⟨public_, silent⟩ := not_or.mp plain
  have h : (origin == .publicChat || origin == .silentChat) = true := chat
  have server := Origin.chat_server chat
  have none_ : (!(!s.publicTrigger.isEmpty && s.publicTrigger.isPrefixOf text) &&
      !(!s.silentTrigger.isEmpty && s.silentTrigger.isPrefixOf text)) = true := by
    rw [Bool.and_eq_true, Bool.not_eq_true', Bool.not_eq_true']
    exact ⟨Bool.eq_false_iff.mpr public_, Bool.eq_false_iff.mpr silent⟩
  unfold dispatchFor
  simp only [h, server, Bool.true_and, Bool.false_eq_true, if_false, Bool.not_true, Bool.or_false]
  by_cases known : (!(decide (0 ≤ slot) && r.result == .ok)) = true
  · exact ⟨true, congrFun (if_pos known) s⟩
  · rw [if_neg known, get_bind]
    by_cases empty : text.isEmpty = true
    · exact ⟨_, congrFun (if_pos empty) s⟩
    · rw [if_neg empty]
      exact ⟨_, congrFun (if_pos none_) s⟩

/-! ## The settings of a run -/

theorem State.configure_valid {settings : Settings.CoreSettings} (valid : settings.Valid) :
    (s.configure settings).settings.Valid where
  inRange := fun field => by
    cases field with
    | publicTrigger => exact valid.inRange .publicTrigger
    | silentTrigger => exact valid.inRange .silentTrigger
    | activity => exact Settings.CoreSettings.valid_default.inRange .activity
    | debug => exact Settings.CoreSettings.valid_default.inRange .debug
  differ := valid.differ

/-- The triggers change by accepted settings alone. -/
theorem Act.settings_valid {k : Kind} {s' : State} (act : Act k s s')
    (valid : s.settings.Valid) : s'.settings.Valid := by
  cases act with
  | configure settings changed =>
      refine State.configure_valid ?_
      rcases changed with ⟨name, value, one⟩ | ⟨values, all⟩
      · exact (Settings.CoreSettings.set_eq_ok.mp one).valid valid
      · exact (Settings.CoreSettings.setAll_eq_updated.mp all).valid valid
  | _ => exact valid

theorem Onward.settings_valid {s' : State} (onward : Onward s s') (valid : s.settings.Valid) :
    s'.settings.Valid := by
  induction onward with
  | refl => exact valid
  | tail _ step ih =>
      obtain ⟨k, act⟩ := step
      exact act.settings_valid ih

/-! ## Authorisation and what is hidden -/

variable {start : State} {stack : Stack}

/-- Between the calls the settings are valid, however often they were changed. -/
theorem Reached.settings_valid (boot : Boot start) (reached : Reached start s [])
    (valid : start.settings.Valid) : s.settings.Valid :=
  (reached.later boot).onward.settings_valid valid

/-- What `Dispatch` cuts off a text: at a console nothing, in the chat a filled trigger that
starts it; to a text that no trigger starts it does nothing. -/
structure Cuts (s : State) (origin : Origin) (slot : Int) (text : List Char) : Prop where
  console : origin.chat = false → s.trigger origin text = []
  begun : origin.chat = true → s.begun text → starts (s.trigger origin text) text = true
  plain : origin.chat = true → ¬ s.begun text →
    ∀ r, ∃ hidden, dispatchFor origin slot text r s = .done (.ok hidden) s

theorem State.cuts (s : State) (origin : Origin) (slot : Int) (text : List Char) :
    Cuts s origin slot text where
  console := fun chat => if_neg (by simp [chat])
  begun := State.begun_trigger
  plain := fun chat plain r => dispatchFor_plain chat plain slot r

/-- Whatever the others do, a message runs one command at most, for a caller who may run
it; it is hidden when its sender is unknown or gagged or the silent trigger, filled and
not the shorter one of two that match, starts it; no index leaves the text, and nothing
but a trigger that starts it is cut off. -/
theorem commands_authorised (boot : Boot start) (reached : Reached start s stack)
    {settings : Settings.CoreSettings} (valid : settings.Valid)
    (public_ : s.publicTrigger = settings.publicTrigger)
    (silent : s.silentTrigger = settings.silentTrigger) (origin : Origin) (slot : Int)
    (text : List Char) :
    dispatch origin slot text = lookupCaller origin slot >>= dispatchFor origin slot text ∧
      (∀ r, (dispatchFor origin slot text r s).Enters
        (Ran (s.named origin text) origin slot text r)
        (fun _ outcome _ => Answers s origin slot text r outcome) 1) ∧
      (∀ trigger ∈ [[], s.publicTrigger, s.silentTrigger], trigger <+: text →
        ' ' ∉ commandName text trigger.length ∧
          ((' ' ∉ text ∧ text = trigger ++ commandName text trigger.length ∧
              commandArguments text = []) ∨
            text = trigger ++ commandName text trigger.length ++ ' ' :: commandArguments text)) ∧
      Cuts s origin slot text := by
  have reach := reached.reach boot
  have differ : s.publicTrigger = s.silentTrigger → s.publicTrigger = [] := by
    rw [public_, silent]
    exact valid.differ
  refine ⟨rfl, fun r => ?_, fun trigger among matched => text_cut matched ?_,
    s.cuts origin slot text⟩
  · cases chat : origin.chat with
    | true => exact dispatchFor_chat reach differ chat slot text r
    | false => exact dispatchFor_console reach chat slot text r
  · have solid : ∀ value : List Char, Settings.Allowed value → ' ' ∉ value :=
      fun value allowed member => absurd (allowed.2 _ member) (by decide)
    rcases List.mem_cons.mp among with rfl | rest
    · exact List.not_mem_nil
    rcases List.mem_cons.mp rest with rfl | rest
    · exact public_ ▸ solid _ (valid.inRange .publicTrigger)
    · rw [List.mem_singleton.mp rest, silent]
      exact solid _ (valid.inRange .silentTrigger)

/-- A script with a command runs, and the silent trigger has been changed. -/
def greeting : History :=
  registering ++ [.back { cell := 1 },
    .start (.report (.setSetting Settings.Field.silentTrigger.name ['#', '#']))]

theorem commands_authorised_greeting : ∃ s stack, Reached (State.boot 0 ['!'] ['/']) s stack ∧
    (∀ r, (dispatchFor .silentChat 0 "##greet all".toList r s).Enters
      (Ran (s.named .silentChat "##greet all".toList) .silentChat 0 "##greet all".toList r)
      (fun _ outcome _ => Answers s .silentChat 0 "##greet all".toList r outcome) 1) ∧
    ∃ t, handed (dispatchFor .silentChat 0 "##greet all".toList { player := guest } s) = some t ∧
      t.journal.getLast? =
        some (.called 1 (.command "sr_greet" 4097 "all".toList) .running false) := by
  obtain ⟨s, stack, reached, seen⟩ := @History.reached greeting
    (fun s => decide (s.publicTrigger = ['!'] ∧ s.silentTrigger = ['#', '#']) &&
      (handed (dispatchFor .silentChat 0 "##greet all".toList { player := guest } s)).any
        fun t : State => decide (t.journal.getLast? =
          some (.called 1 (.command "sr_greet" 4097 "all".toList) .running false)))
    (by decide +kernel)
  obtain ⟨triggers, ran⟩ := Bool.and_eq_true_iff.mp seen
  obtain ⟨public_, silent⟩ := of_decide_eq_true triggers
  have valid : ({ silentTrigger := ['#', '#'] } : Settings.CoreSettings).Valid := by
    refine ⟨fun field => ?_, fun same => absurd same (by decide)⟩
    cases field <;> simp [Settings.CoreSettings.InRange, Settings.Allowed, Settings.forbidden]
  refine ⟨s, stack, reached, (commands_authorised boot_boot reached valid public_ silent
    .silentChat 0 "##greet all".toList).2.1, ?_⟩
  cases entered : handed (dispatchFor .silentChat 0 "##greet all".toList { player := guest } s) with
  | none =>
      rw [entered] at ran
      cases ran
  | some t =>
      rw [entered] at ran
      exact ⟨t, rfl, of_decide_eq_true ran⟩

/-- An empty silent trigger starts every text, but it is none. -/
theorem empty_trigger_shown : ∃ settings : Settings.CoreSettings, settings.Valid ∧
    settings.silentTrigger <+: "hello".toList ∧ ¬ settings.publicTrigger <+: "hello".toList ∧
    ∃ t, dispatchFor .publicChat 0 "hello".toList { player := guest }
      (State.boot 0 settings.publicTrigger settings.silentTrigger) = .done (.ok false) t := by
  refine ⟨{ silentTrigger := [] }, ⟨?_, ?_⟩, List.nil_prefix, by decide, _, rfl⟩
  · intro field
    cases field <;> simp [Settings.CoreSettings.InRange, Settings.Allowed, Settings.forbidden]
  · exact fun same => absurd same (by decide)

end Source2Root.Foundation
