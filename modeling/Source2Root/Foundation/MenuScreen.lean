import Source2Root.Foundation.Rendering
import Source2Root.Transition

/-!
# A menu on the screen of a player

`ShowMenu` and `MenuInput` for one menu of a script: the buttons of the player, one
after the other, with what the host and the script make of each.  The page is the text
of the last `RenderMenu` that the host took.
-/

set_option autoImplicit false

namespace Source2Root.Foundation

open Markup

/-! ## The source -/

/-- A button, and what `MenuInput` meets: the time since the last one, whether the
script is running and the player allowed, and what the host makes of clearing the
screen and of a new page. -/
structure Moment where
  input : MenuInput
  elapsed : Nat := 0
  running : Bool := true
  allowed : Bool := true
  closed : Bool := true
  rendered : Bool := true
deriving DecidableEq, Repr

/-- Which callback of the script is called. -/
inductive Outcome where
  | none
  | selection (value : Int)
  | parent
deriving DecidableEq, Repr

structure Screen where
  menu : ScriptMenu
  page : Text
  now : Int
  timeout : Int
  expires : Int
deriving DecidableEq, Repr

/-- The end of `ShowMenu`. -/
def ScriptMenu.show (menu : ScriptMenu) (now timeout : Int) : Screen :=
  let menu := { menu with menu := { menu.menu with selected := 0 } }
  { menu, page := menu.menu.html menu.back.isSome, now, timeout, expires := now + timeout }

namespace Screen

/-- `CloseDisplay` -/
def close (s : Screen) (m : Moment) : Option Screen := if m.closed then none else some s

/-- What the selection callback is told. -/
def value (item : MenuItem) (selected : Nat) : Int :=
  if item.value < 0 then selected else item.value

def chosen (s : Screen) : Int :=
  s.menu.menu.items[s.menu.menu.selected]?.elim 0 fun item => value item s.menu.menu.selected

/-- `MenuInput` once the menu has taken the button. -/
def act (s : Screen) (m : Moment) (action : MenuAction) : Option Screen × Outcome :=
  match action with
  | .cancelled => (s.close m, .none)
  | .selected => (s.close m, if m.closed then .selection s.chosen else .none)
  | .changed =>
      if m.rendered then
        (some { s with page := s.menu.menu.html s.menu.back.isSome }, .none)
      else ({ s with expires := s.now }.close m, .none)
  | .none => (some s, .none)

/-- `Foundation::MenuInput` -/
def input (s : Screen) (m : Moment) : Option Screen × Outcome :=
  let s := { s with now := s.now + m.elapsed }
  if !m.running || s.expires ≤ s.now then (s.close m, .none)
  else if !m.allowed then (s.close m, .none)
  else
    let s := { s with expires := s.now + s.timeout }
    if m.input = .back ∧ s.menu.back.isSome = true then
      ({ s with expires := s.now }.close m, if m.closed then .parent else .none)
    else
      let (action, menu) := s.menu.menu.input m.input
      { s with menu := { s.menu with menu } }.act m action

/-- The buttons one after the other, until the menu is gone. -/
def run : Screen → List Moment → Option Screen := Transition.run fun s m => (s.input m).1

end Screen

/-! ## What a button does -/

/-- The page of the selected item, after a button that changed the selection. -/
theorem Menu.input_back {menu : Menu} (inside : menu.selected < menu.items.length) :
    menu.input .back =
      if menu.page = 0 then (.cancelled, menu)
      else (.changed, { menu with selected := (menu.page - 1) * Menu.itemsPerPage }) := by
  have filled : menu.items.isEmpty = false := by
    cases items : menu.items with
    | nil => simp [items] at inside
    | cons item rest => rfl
  have same : min menu.selected (menu.items.length - 1) = menu.selected := by omega
  unfold Menu.input Menu.page
  rw [if_neg (by simp [filled]), same]

/-- Back from a page lands on the first row of the page before, and from the first
page it cancels. -/
theorem Menu.back_page {menu : Menu} (inside : menu.selected < menu.items.length) :
    (0 < menu.page → (menu.input .back).1 = .changed ∧
      (menu.input .back).2.page = menu.page - 1) ∧
    (menu.page = 0 → (menu.input .back).1 = .cancelled) := by
  rw [Menu.input_back inside]
  constructor
  · intro later
    rw [if_neg (by omega)]
    exact ⟨rfl, Nat.mul_div_cancel _ (by decide)⟩
  · intro first
    rw [if_pos first]

/-- A button that changes nothing leaves the menu as it is. -/
theorem Menu.input_same {menu : Menu} (inside : menu.selected < menu.items.length)
    {input : MenuInput} (still : (menu.input input).1 ≠ .changed) :
    (menu.input input).2 = menu := by
  have filled : menu.items.isEmpty = false := by
    cases items : menu.items with
    | nil => simp [items] at inside
    | cons item rest => rfl
  have same : min menu.selected (menu.items.length - 1) = menu.selected := by omega
  unfold Menu.input at still ⊢
  rw [if_neg (by simp [filled])] at still ⊢
  rw [same] at still ⊢
  cases input with
  | up => exact absurd rfl still
  | down => exact absurd rfl still
  | select => rfl
  | back =>
      dsimp only at still ⊢
      split at still
      · rw [if_pos ‹_›]
      · exact absurd rfl still

/-- A button changes nothing but the selection. -/
theorem Menu.input_only (menu : Menu) (input : MenuInput) :
    (menu.input input).2 = { menu with selected := (menu.input input).2.selected } := by
  unfold Menu.input
  split
  · rfl
  · cases input with
    | up => rfl
    | down => rfl
    | select => rfl
    | back =>
        dsimp only
        split <;> rfl

namespace Screen

/-- `MenuInput` gets past its checks. -/
structure Takes (s : Screen) (m : Moment) : Prop where
  running : m.running = true
  allowed : m.allowed = true
  inTime : s.now + m.elapsed < s.expires

variable {s s' : Screen} {m : Moment}

/-- The screen when a button is taken: the menu has its whole time again. -/
def taken (s : Screen) (m : Moment) : Screen :=
  { s with now := s.now + m.elapsed, expires := s.now + m.elapsed + s.timeout }

theorem input_refused (refused : ¬ s.Takes m) :
    s.input m = (close { s with now := s.now + m.elapsed } m, .none) := by
  unfold input
  dsimp only
  by_cases late : (!m.running || decide (s.expires ≤ s.now + m.elapsed)) = true
  · rw [if_pos late]
  · rw [if_neg late]
    by_cases denied : (!m.allowed) = true
    · rw [if_pos denied]
    · refine absurd ⟨?_, by simpa using denied, ?_⟩ refused
      · by_contra stopped
        exact late (by simp [stopped])
      · by_contra expired
        exact late (by simp [not_lt.mp expired])

theorem input_parent (takes : s.Takes m) (back : m.input = .back)
    (parent : s.menu.back.isSome = true) :
    s.input m = (close { s.taken m with expires := (s.taken m).now } m,
      if m.closed then .parent else .none) := by
  unfold input
  dsimp only
  rw [if_neg (by simp [takes.running, takes.inTime]), if_neg (by simp [takes.allowed]),
    if_pos ⟨back, parent⟩]
  rfl

theorem input_menu (takes : s.Takes m) (own : ¬ (m.input = .back ∧ s.menu.back.isSome = true)) :
    s.input m =
      act { s.taken m with menu := { s.menu with menu := (s.menu.menu.input m.input).2 } } m
        (s.menu.menu.input m.input).1 := by
  unfold input
  dsimp only
  rw [if_neg (by simp [takes.running, takes.inTime]), if_neg (by simp [takes.allowed]),
    if_neg own]
  rfl

/-- A screen that some buttons have led to from the start. -/
structure Follows (first : ScriptMenu) (s : Screen) : Prop where
  menu : s.menu = { first with menu := { first.menu with selected := s.menu.menu.selected } }
  inside : s.menu.menu.selected < s.menu.menu.items.length
  rendered : s.now < s.expires → s.page = s.menu.menu.html s.menu.back.isSome

theorem close_eq_some (closed : s.close m = some s') : s' = s := by
  unfold close at closed
  split at closed
  · cases closed
  · exact (Option.some.inj closed).symm

section Follows

variable {first : ScriptMenu}

theorem Follows.show (filled : first.menu.items ≠ []) (now timeout : Int) :
    Follows first (first.show now timeout) where
  menu := rfl
  inside := List.length_pos_iff.mpr filled
  rendered := fun _ => rfl

theorem Follows.filled (follows : Follows first s) : s.menu.menu.items ≠ [] := by
  intro none_
  have inside := follows.inside
  rw [none_] at inside
  exact Nat.not_lt_zero _ inside

/-- The menu that a button leaves is one of the same items. -/
theorem Follows.after (follows : Follows first s) (input : MenuInput) :
    { s.menu with menu := (s.menu.menu.input input).2 } =
      { first with menu := { first.menu with
          selected := (s.menu.menu.input input).2.selected } } := by
  rw [Menu.input_only, follows.menu]

theorem Follows.step (follows : Follows first s) (next : (s.input m).1 = some s') :
    Follows first s' := by
  by_cases takes : s.Takes m
  · have shown : s.page = s.menu.menu.html s.menu.back.isSome := follows.rendered (by
      have inTime := takes.inTime
      omega)
    by_cases parent : m.input = .back ∧ s.menu.back.isSome = true
    · rw [input_parent takes parent.1 parent.2] at next
      rw [close_eq_some next]
      exact ⟨follows.menu, follows.inside, fun inTime => absurd inTime (lt_irrefl _)⟩
    · rw [input_menu takes parent] at next
      have inside : (s.menu.menu.input m.input).2.selected <
          (s.menu.menu.input m.input).2.items.length := by
        rw [Menu.input_items]
        exact Menu.input_selected follows.filled m.input
      -- a button that does not change the selection leaves the page that is shown
      have still : (s.menu.menu.input m.input).1 ≠ .changed → Follows first
          { s.taken m with menu := { s.menu with menu := (s.menu.menu.input m.input).2 } } := by
        intro unchanged
        refine ⟨follows.after m.input, inside, fun _ => ?_⟩
        rw [Menu.input_same follows.inside unchanged]
        exact shown
      cases action : (s.menu.menu.input m.input).1 with
      | none =>
          rw [action] at next
          rw [← Option.some.inj next]
          exact still (by simp [action])
      | cancelled =>
          rw [action] at next
          rw [close_eq_some next]
          exact still (by simp [action])
      | selected =>
          rw [action] at next
          rw [close_eq_some next]
          exact still (by simp [action])
      | changed =>
          rw [action] at next
          unfold act at next
          dsimp only at next
          split at next
          · rw [← Option.some.inj next]
            exact ⟨follows.after m.input, inside, fun _ => rfl⟩
          · rw [close_eq_some next]
            exact ⟨follows.after m.input, inside, fun inTime => absurd inTime (lt_irrefl _)⟩
  · rw [input_refused takes] at next
    rw [close_eq_some next]
    refine ⟨follows.menu, follows.inside, fun inTime => follows.rendered ?_⟩
    have inTime : s.now + m.elapsed < s.expires := inTime
    omega

/-- The page that is shown is that of the selection, after any buttons. -/
theorem Follows.run (filled : first.menu.items ≠ []) {now timeout : Int}
    {history : List Moment} (ran : Screen.run (first.show now timeout) history = some s) :
    Follows first s :=
  Transition.history_induction (P := fun _ s => Follows first s) (Follows.show filled now timeout)
    (fun _ _ _ _ follows next => follows.step next) history s ran

/-- A selection is of the item that the page marks. -/
theorem Follows.selection (follows : Follows first s) {value : Int}
    (reported : (s.input m).2 = .selection value) :
    ∃ item, s.menu.menu.items[s.menu.menu.selected]? = some item ∧ item.enabled = true ∧
      value = Screen.value item s.menu.menu.selected ∧
        s.page = s.menu.menu.html s.menu.back.isSome := by
  by_cases takes : s.Takes m
  · have shown := follows.rendered (by
      have inTime := takes.inTime
      omega)
    by_cases parent : m.input = .back ∧ s.menu.back.isSome = true
    · rw [input_parent takes parent.1 parent.2] at reported
      dsimp only at reported
      split at reported <;> cases reported
    · rw [input_menu takes parent] at reported
      cases action : (s.menu.menu.input m.input).1 with
      | selected =>
          obtain ⟨item, there, enabled⟩ := Menu.input_enabled action
          rw [Menu.input_same follows.inside (by simp [action])] at there
          refine ⟨item, there, enabled, ?_, shown⟩
          rw [action, act, Menu.input_same follows.inside (by simp [action])] at reported
          dsimp only at reported
          split at reported
          · cases reported
            unfold chosen
            dsimp only
            rw [there, Option.elim_some]
          · cases reported
      | none =>
          rw [action] at reported
          cases reported
      | cancelled =>
          rw [action] at reported
          cases reported
      | changed =>
          rw [action, act] at reported
          dsimp only at reported
          split at reported <;> cases reported
  · rw [input_refused takes] at reported
    cases reported

theorem close_of_closed (closed : m.closed = true) (s : Screen) : s.close m = none :=
  if_pos closed

/-- When the host clears the screen, Back leaves a menu only on the page before. -/
theorem Follows.back_left (follows : Follows first s) (back : m.input = .back)
    (closed : m.closed = true) (left : (s.input m).1 = some s') :
    0 < s.menu.menu.page ∧ s'.menu.menu.page = s.menu.menu.page - 1 := by
  by_cases takes : s.Takes m
  · by_cases parent : s.menu.back.isSome = true
    · rw [input_parent takes back parent, close_of_closed closed] at left
      cases left
    · rw [input_menu takes fun own => parent own.2, back] at left
      by_cases first_page : s.menu.menu.page = 0
      · rw [(Menu.back_page follows.inside).2 first_page] at left
        dsimp only [act] at left
        rw [close_of_closed closed] at left
        cases left
      · have later := Nat.pos_of_ne_zero first_page
        obtain ⟨changed, before⟩ := (Menu.back_page follows.inside).1 later
        rw [changed, act] at left
        dsimp only at left
        split at left
        · cases left
          exact ⟨later, before⟩
        · rw [close_of_closed closed] at left
          cases left
  · rw [input_refused takes, close_of_closed closed] at left
    cases left

/-- Back after Back, the menu is gone. -/
theorem Follows.back_ends (history : List Moment) :
    ∀ {s : Screen}, Follows first s → (∀ m ∈ history, m.input = .back ∧ m.closed = true) →
      s.menu.menu.page < history.length → s.run history = none := by
  induction history with
  | nil => exact fun _ _ inside => absurd inside (Nat.not_lt_zero _)
  | cons m rest ih =>
      intro s follows backs inside
      obtain ⟨back, closed⟩ := backs m List.mem_cons_self
      show (s.input m).1.bind (fun s' => s'.run rest) = none
      cases left : (s.input m).1 with
      | none => rfl
      | some s' =>
          obtain ⟨later, before⟩ := follows.back_left back closed left
          refine ih (follows.step left) (fun m member => backs m (List.mem_cons_of_mem _ member)) ?_
          rw [List.length_cons] at inside
          omega

/-- Back in a menu of its own lands on the page before. -/
theorem Follows.back_page (follows : Follows first s) (alone : s.menu.back = none)
    (later : 0 < s.menu.menu.page) (takes : s.Takes m) (back : m.input = .back)
    (rendered : m.rendered = true) :
    ∃ s', (s.input m).1 = some s' ∧ s'.menu.menu.page = s.menu.menu.page - 1 ∧
      s'.page = s'.menu.menu.html s'.menu.back.isSome := by
  obtain ⟨changed, before⟩ := (Menu.back_page follows.inside).1 later
  rw [input_menu takes (by simp [alone]), back, changed, act]
  dsimp only
  rw [if_pos rendered]
  exact ⟨_, rfl, before, rfl⟩

theorem Follows.back_first (follows : Follows first s) (alone : s.menu.back = none)
    (start : s.menu.menu.page = 0) (takes : s.Takes m) (back : m.input = .back)
    (closed : m.closed = true) : s.input m = (none, .none) := by
  rw [input_menu takes (by simp [alone]), back, (Menu.back_page follows.inside).2 start, act]
  dsimp only
  rw [close_of_closed closed]

end Follows

/-! ## Navigation and rendering -/

/-- What holds of a menu on a screen, whatever buttons came before. -/
structure Agrees (first : ScriptMenu) (s : Screen) : Prop where
  items : s.menu.menu.items = first.menu.items
  inside : s.menu.menu.selected < first.menu.items.length
  /-- The page shown is that of the selection; a menu whose time is over takes nothing more. -/
  rendered : s.now < s.expires → s.page = s.menu.menu.html s.menu.back.isSome
  /-- A selection is of an enabled item, the one whose row the last page marks. -/
  selection : ∀ (m : Moment) (value : Int), (s.input m).2 = .selection value →
    ∃ item, first.menu.items[s.menu.menu.selected]? = some item ∧ item.enabled = true ∧
      value = Screen.value item s.menu.menu.selected ∧
      Reads referenced s.page (s.menu.menu.shown s.menu.back.isSome).tokens ∧
      (s.menu.menu.shown s.menu.back.isSome).rows.filter Row.marked = [item.row true]
  /-- The pages partition the list. -/
  cover : (List.range s.menu.menu.pages).flatMap s.menu.menu.itemsOn = first.menu.items
  rows : ∀ hasParent, (s.menu.menu.shown hasParent).rows.map Row.text =
    (s.menu.menu.itemsOn s.menu.menu.page).map fun item => visible item.text.toList
  /-- The page shown has the selected item, and no other page has. -/
  contains : ∀ page, s.menu.menu.selected ∈ s.menu.menu.positions page ↔
    page = s.menu.menu.page
  number : ∀ hasParent, (s.menu.menu.shown hasParent).number ≤
    (s.menu.menu.shown hasParent).count
  /-- What the menu itself makes of Back. -/
  back_input : (0 < s.menu.menu.page → (s.menu.menu.input .back).1 = .changed ∧
      (s.menu.menu.input .back).2.page = s.menu.menu.page - 1) ∧
    (s.menu.menu.page = 0 → (s.menu.menu.input .back).1 = .cancelled)
  back_page : s.menu.back = none → 0 < s.menu.menu.page → ∀ m : Moment, m.input = .back →
    s.Takes m → m.rendered = true → ∃ s', (s.input m).1 = some s' ∧
      s'.menu.menu.page = s.menu.menu.page - 1 ∧
      s'.page = s'.menu.menu.html s'.menu.back.isSome
  back_first : s.menu.back = none → s.menu.menu.page = 0 → ∀ m : Moment, m.input = .back →
    s.Takes m → m.closed = true → s.input m = (none, .none)
  /-- In a menu with a back callback Back closes the menu, on every page, and calls it. -/
  back_parent : s.menu.back.isSome = true → ∀ m : Moment, m.input = .back →
    s.Takes m → m.closed = true → s.input m = (none, .parent)
  back_ends : ∀ history : List Moment, (∀ m ∈ history, m.input = .back ∧ m.closed = true) →
    s.menu.menu.page < history.length → s.run history = none
  /-- The text reads as the page: the texts are there as texts. -/
  reads : ∀ hasParent, Reads referenced (s.menu.menu.html hasParent)
    (s.menu.menu.shown hasParent).tokens
  /-- Other texts have the same markup. -/
  markup : ∀ (other : Menu) (hasParent : Bool), other.selected = s.menu.menu.selected →
    other.items.map MenuItem.enabled = s.menu.menu.items.map MenuItem.enabled →
    (read referenced (other.html hasParent)).map tags =
      (read referenced (s.menu.menu.html hasParent)).map tags

theorem same_colors {menu other : Menu} (hasParent : Bool)
    (selected : other.selected = menu.selected)
    (flags : other.items.map MenuItem.enabled = menu.items.map MenuItem.enabled) :
    (other.shown hasParent).rows.map Row.color = (menu.shown hasParent).rows.map Row.color := by
  have length : other.items.length = menu.items.length := by
    simpa using congrArg List.length flags
  have page : other.page = menu.page := by
    rw [Menu.page, Menu.page, selected]
  rw [rows_color, rows_color, flags, selected, page, Menu.positions, Menu.positions, length]

theorem Follows.agrees {first : ScriptMenu} (follows : Follows first s) : Agrees first s := by
  have items : s.menu.menu.items = first.menu.items := by
    rw [follows.menu]
  refine
    { items
      inside := items ▸ follows.inside
      rendered := follows.rendered
      selection := ?_
      cover := (pages_cover s.menu.menu).trans items
      rows := rows_text s.menu.menu
      contains := ?_
      number := fun _ => page_lt_pages follows.inside
      back_input := Menu.back_page follows.inside
      back_page := fun alone later m back takes rendered =>
        follows.back_page alone later takes back rendered
      back_first := fun alone start m back takes closed =>
        follows.back_first alone start takes back closed
      back_parent := ?_
      back_ends := fun history backs inside => Follows.back_ends history follows backs inside
      reads := html_reads s.menu.menu
      markup := ?_ }
  · intro m value reported
    obtain ⟨item, there, enabled, is, shown⟩ := follows.selection reported
    refine ⟨item, items ▸ there, enabled, is, ?_, rows_marked _ there⟩
    rw [shown]
    exact html_reads s.menu.menu _
  · intro page
    rw [mem_positions_iff]
    exact ⟨fun both => both.2.symm, fun same => ⟨follows.inside, same.symm⟩⟩
  · intro parent m back takes closed
    rw [input_parent takes back parent, close_of_closed closed, if_pos closed]
  · intro other hasParent selected flags
    have here := html_reads s.menu.menu hasParent
    have there := html_reads other hasParent
    unfold Reads at here there
    rw [here, there, Option.map_some, Option.map_some,
      tags_page (same_colors hasParent selected flags)]

/-- After any buttons, what the screen shows and what the buttons do agree. -/
theorem navigation_agrees (first : ScriptMenu) (filled : first.menu.items ≠ [])
    (now timeout : Int) (history : List Moment) (s : Screen)
    (ran : (first.show now timeout).run history = some s) : Agrees first s :=
  (Follows.run filled ran).agrees

/-- Four items, so two pages; the last item is selected. -/
def nested : ScriptMenu where
  menu := { title := "a & b", items := [{ text := "<" }, { enabled := false }, {}, { value := 7 }] }
  callback := 1
  back := some 2

def nestedLast : Screen where
  menu := { nested with menu := { nested.menu with selected := 3 } }
  page := { nested.menu with selected := 3 }.html true
  now := 5
  timeout := 1000
  expires := 1005

theorem nested_last :
    (nested.show 0 1000).run [{ input := .up, elapsed := 5 }] = some nestedLast := by
  decide +kernel

theorem navigation_agrees_nested : Agrees nested nestedLast :=
  navigation_agrees nested (by decide) 0 1000 [{ input := .up, elapsed := 5 }] nestedLast
    nested_last

/-- Back in a menu with a back callback does not land on the page before. -/
theorem parent_back_leaves :
    ¬ ∀ (first : ScriptMenu) (now timeout : Int) (history : List Moment) (s : Screen) (m : Moment),
      first.menu.items ≠ [] → (first.show now timeout).run history = some s → m.input = .back →
      s.Takes m → m.closed = true → m.rendered = true → 0 < s.menu.menu.page →
        ∃ s', (s.input m).1 = some s' ∧ s'.menu.menu.page = s.menu.menu.page - 1 := by
  intro claimed
  obtain ⟨s', left, -⟩ := claimed nested 0 1000 [{ input := .up, elapsed := 5 }] nestedLast
    { input := .back } (by decide) nested_last rfl ⟨rfl, rfl, by decide⟩ rfl rfl (by decide)
  have gone : (nestedLast.input { input := .back }).1 = none := by decide +kernel
  rw [gone] at left
  cases left

end Screen

end Source2Root.Foundation
