import Source2Root.Decimal
import Source2Root.Foundation.Types
import Source2Root.Markup
import Source2Root.Pieces

/-!
# The text of a menu

`Menu::Escape` and `Menu::Html`.  A text is a list of characters; the bytes of a
text, each as the character of its number, are one.  `Page` is what a reader of the
markup makes of the text.
-/

set_option autoImplicit false

namespace Source2Root.Foundation

open Markup

/-! ## The source -/

/-- `Menu::Escape` -/
def Menu.escape (text : Text) : Text :=
  text.flatMap fun c =>
    match c with
    | '&' => "&amp;".toList
    | '<' => "&lt;".toList
    | '>' => "&gt;".toList
    | '"' => "&quot;".toList
    | '\'' => "&#39;".toList
    | _ => if 32 ≤ c.toNat then [c] else []

def Menu.page (menu : Menu) : Nat := menu.selected / itemsPerPage

def Menu.pages (menu : Menu) : Nat :=
  max 1 ((menu.items.length + itemsPerPage - 1) / itemsPerPage)

/-- The positions that the loop of `Menu::Html` visits. -/
def Menu.positions (menu : Menu) (page : Nat) : List Nat :=
  List.range' (page * itemsPerPage)
    (min menu.items.length (page * itemsPerPage + itemsPerPage) - page * itemsPerPage)

def MenuItem.color (item : MenuItem) (selected : Bool) : Text :=
  (if !item.enabled then "#777777" else if selected then "#FFFF88" else "#FFFFFF").toList

/-- The body of the loop. -/
def MenuItem.html (item : MenuItem) (selected : Bool) : Text :=
  "<font color='".toList ++ item.color selected ++ "'>".toList ++
    (if selected then "&gt; " else "  ").toList ++ Menu.escape item.text.toList ++
      "</font><br>".toList

def Menu.hint (menu : Menu) (hasParent : Bool) : Text :=
  (if hasParent then "parent menu"
    else if menu.page ≠ 0 then "previous page" else "close").toList

/-- `Menu::Html` -/
def Menu.html (menu : Menu) (hasParent : Bool) : Text :=
  "<font color='#78DCC8'>".toList ++ Menu.escape menu.title.toList ++ " | Page ".toList ++
    decimal (menu.page + 1) ++ "/".toList ++ decimal menu.pages ++ "</font><br>".toList ++
    (menu.positions menu.page).flatMap (fun i =>
      menu.items[i]?.elim [] fun item => item.html (i == menu.selected)) ++
    "<font color='#BBBBBB'>Forward/Back: move | Use: select<br>Reload: ".toList ++
    menu.hint hasParent ++ "</font>".toList

/-! ## What a reader sees -/

/-- The references that `Menu::Escape` writes. -/
def referenced (name : Text) : Option Char :=
  if name = "amp".toList then some '&'
  else if name = "lt".toList then some '<'
  else if name = "gt".toList then some '>'
  else if name = "quot".toList then some '"'
  else if name = "#39".toList then some '\''
  else none

/-- What is left of a text: it has no control characters. -/
def visible (text : Text) : Text := text.filter fun c => 32 ≤ c.toNat

/-- A character of a text on the screen; those of markup come as references. -/
def written (c : Char) : Markup.Token := if isMarkup c then .reference c else .char c

structure Row where
  color : Text
  marked : Bool
  text : Text
deriving DecidableEq, Repr

structure Page where
  title : Text
  number : Nat
  count : Nat
  rows : List Row
  hint : Text
deriving DecidableEq, Repr

/-- A font with its color. -/
def fontTag (color : Text) : Markup.Token := .tag ("font color='".toList ++ color ++ ['\''])

def endTag : Markup.Token := .tag "/font".toList

def lineTag : Markup.Token := .tag "br".toList

def Row.tokens (row : Row) : List Markup.Token :=
  [fontTag row.color] ++
    (if row.marked then [.reference '>', .char ' '] else [.char ' ', .char ' ']) ++
    row.text.map written ++ [endTag, lineTag]

/-- The line of the title and the lines of the keys do not depend on the items. -/
def Page.tokens (page : Page) : List Markup.Token :=
  [fontTag "#78DCC8".toList] ++ page.title.map written ++ " | Page ".toList.map .char ++
    (decimal page.number).map .char ++ [.char '/'] ++ (decimal page.count).map .char ++
    [endTag, lineTag] ++ page.rows.flatMap Row.tokens ++
    (fontTag "#BBBBBB".toList :: "Forward/Back: move | Use: select".toList.map .char ++
      lineTag :: "Reload: ".toList.map .char) ++
    page.hint.map .char ++ [endTag]

def MenuItem.row (item : MenuItem) (selected : Bool) : Row :=
  { color := item.color selected, marked := selected, text := visible item.text.toList }

def Menu.shown (menu : Menu) (hasParent : Bool) : Page where
  title := visible menu.title.toList
  number := menu.page + 1
  count := menu.pages
  rows := (menu.positions menu.page).filterMap fun i =>
    menu.items[i]?.map fun item => item.row (i == menu.selected)
  hint := menu.hint hasParent

/-! ## The text reads as the page -/

theorem escape_append (first second : Text) :
    Menu.escape (first ++ second) = Menu.escape first ++ Menu.escape second :=
  List.flatMap_append

theorem visible_append (first second : Text) :
    visible (first ++ second) = visible first ++ visible second := List.filter_append ..

/-- A character of markup comes as a reference, and no other does. -/
theorem escape_char (c : Char) :
    Reads referenced (Menu.escape [c]) ((visible [c]).map written) := by
  by_cases special : isMarkup c = true
  · rcases isMarkup_iff.mp special with rfl | rfl | rfl | rfl | rfl <;> decide +kernel
  · have plain : isMarkup c = false := by simpa using special
    have same : Menu.escape [c] = if 32 ≤ c.toNat then [c] else [] := by
      unfold Menu.escape
      rw [List.flatMap_singleton]
      split
      all_goals first
        | rfl
        | cases plain
    by_cases shown : 32 ≤ c.toNat
    · have tokens : (visible [c]).map written = [.char c] := by
        simp [visible, shown, written, plain]
      rw [same, tokens, if_pos shown]
      exact Reads.char plain
    · have tokens : (visible [c]).map written = [] := by
        simp [visible, shown]
      rw [same, tokens, if_neg shown]
      exact Reads.nil

/-- A text comes without markup of its own. -/
theorem escape_reads (text : Text) :
    Reads referenced (Menu.escape text) ((visible text).map written) := by
  induction text with
  | nil => exact Reads.nil
  | cons c rest ih =>
      rw [← List.singleton_append, escape_append, visible_append, List.map_append]
      exact (escape_char c).append ih

theorem decimal_plain (n : Nat) : ∀ c ∈ decimal n, isMarkup c = false := by
  intro c member
  have digit := decimal_digits n c member
  rw [Bool.eq_false_iff]
  intro special
  rcases isMarkup_iff.mp special with rfl | rfl | rfl | rfl | rfl <;> cases digit

theorem row_reads (item : MenuItem) (selected : Bool) :
    Reads referenced (item.html selected) (item.row selected).tokens := by
  have opens : Reads referenced ("<font color='".toList ++ item.color selected ++ "'>".toList)
      [fontTag (item.color selected)] := by
    unfold MenuItem.color
    cases item.enabled with
    | false => cases selected <;> decide +kernel
    | true => cases selected <;> decide +kernel
  have mark : Reads referenced (if selected then "&gt; " else "  ").toList
      (if selected then [.reference '>', .char ' '] else [.char ' ', .char ' ']) := by
    cases selected <;> decide +kernel
  have closes : Reads referenced "</font><br>".toList [endTag, lineTag] := by decide +kernel
  exact ((opens.append mark).append (escape_reads item.text.toList)).append closes

theorem hint_reads (menu : Menu) (hasParent : Bool) :
    Reads referenced (menu.hint hasParent) ((menu.hint hasParent).map .char) := by
  unfold Menu.hint
  split
  · decide +kernel
  · split <;> decide +kernel

theorem rows_reads (menu : Menu) (hasParent : Bool) :
    Reads referenced
      ((menu.positions menu.page).flatMap fun i =>
        menu.items[i]?.elim [] fun item => item.html (i == menu.selected))
      ((menu.shown hasParent).rows.flatMap Row.tokens) := by
  have same : (menu.shown hasParent).rows.flatMap Row.tokens =
      (menu.positions menu.page).flatMap fun i =>
        menu.items[i]?.elim [] fun item => (item.row (i == menu.selected)).tokens := by
    unfold Menu.shown
    dsimp only
    induction menu.positions menu.page with
    | nil => rfl
    | cons i rest ih =>
        rw [List.filterMap_cons, List.flatMap_cons, ← ih]
        cases menu.items[i]? with
        | none => rfl
        | some item => rfl
  rw [same]
  refine Reads.flatMap _ fun i _ => ?_
  cases menu.items[i]? with
  | none => exact Reads.nil
  | some item => exact row_reads item (i == menu.selected)

/-- The text of a menu reads as its page: the only tags are those of the frame, and
the texts are there as texts. -/
theorem html_reads (menu : Menu) (hasParent : Bool) :
    Reads referenced (menu.html hasParent) (menu.shown hasParent).tokens := by
  have opens : Reads referenced "<font color='#78DCC8'>".toList [fontTag "#78DCC8".toList] := by
    decide +kernel
  have label : Reads referenced " | Page ".toList (" | Page ".toList.map .char) := by
    decide +kernel
  have slash : Reads referenced "/".toList [.char '/'] := by decide +kernel
  have closes : Reads referenced "</font><br>".toList [endTag, lineTag] := by decide +kernel
  have keys : Reads referenced
      "<font color='#BBBBBB'>Forward/Back: move | Use: select<br>Reload: ".toList
      (fontTag "#BBBBBB".toList :: "Forward/Back: move | Use: select".toList.map .char ++
        lineTag :: "Reload: ".toList.map .char) := by decide +kernel
  have ends : Reads referenced "</font>".toList [endTag] := by decide +kernel
  have title := (opens.append (escape_reads menu.title.toList)).append label
  have number := title.append (Reads.plain (decimal_plain (menu.page + 1)))
  have count := (number.append slash).append (Reads.plain (decimal_plain menu.pages))
  have rows := (count.append closes).append (rows_reads menu hasParent)
  exact ((rows.append keys).append (hint_reads menu hasParent)).append ends

example :
    Menu.html
      { title := "<b>", items := [{ text := "a" }, { text := "b\n&", enabled := false }] } false =
    ("<font color='#78DCC8'>&lt;b&gt; | Page 1/1</font><br>" ++
      "<font color='#FFFF88'>&gt; a</font><br><font color='#777777'>  b&amp;</font><br>" ++
      "<font color='#BBBBBB'>Forward/Back: move | Use: select<br>Reload: close</font>").toList := by
  decide +kernel

/-! ## The tags of the frame -/

theorem tags_append (first second : List Markup.Token) :
    tags (first ++ second) = tags first ++ tags second := List.filterMap_append ..

theorem tags_written (text : Text) : tags (text.map written) = [] := by
  induction text with
  | nil => rfl
  | cons c rest ih =>
      have none_ : tags [written c] = [] := by
        unfold written
        split <;> rfl
      rw [List.map_cons, ← List.singleton_append, tags_append, none_, ih, List.nil_append]

theorem tags_chars (text : Text) : tags (text.map .char) = [] := by
  induction text with
  | nil => rfl
  | cons c rest ih => exact ih

def fontName (color : Text) : Text := "font color='".toList ++ color ++ ['\'']

theorem tags_row (row : Row) :
    tags row.tokens = [fontName row.color, "/font".toList, "br".toList] := by
  unfold Row.tokens
  rw [tags_append, tags_append, tags_append, tags_written]
  cases row.marked <;> rfl

theorem tags_rows (rows : List Row) :
    tags (rows.flatMap Row.tokens) =
      (rows.map Row.color).flatMap fun color =>
        [fontName color, "/font".toList, "br".toList] := by
  induction rows with
  | nil => rfl
  | cons row rest ih =>
      rw [List.flatMap_cons, tags_append, tags_row, ih, List.map_cons, List.flatMap_cons]

/-- The tags of a page are those of the frame; of the rows only the colors matter. -/
theorem tags_page {page other : Page}
    (same : page.rows.map Row.color = other.rows.map Row.color) :
    tags page.tokens = tags other.tokens := by
  unfold Page.tokens
  simp only [tags_append, tags_written, tags_chars, tags_rows, same]

/-! ## The rows of a page -/

/-- The items on a page. -/
def Menu.itemsOn (menu : Menu) (page : Nat) : List MenuItem :=
  (menu.positions page).filterMap (menu.items[·]?)

/-- The pages together are the list, each item on one of them. -/
theorem pages_cover (menu : Menu) :
    (List.range menu.pages).flatMap menu.itemsOn = menu.items := by
  have cut : menu.itemsOn = fun page =>
      (menu.items.drop (page * Menu.itemsPerPage)).take Menu.itemsPerPage := by
    funext page
    exact Pieces.piece_eq menu.items (page * Menu.itemsPerPage) Menu.itemsPerPage
  rw [cut]
  refine Pieces.pieces_cover menu.items ?_
  unfold Menu.pages Menu.itemsPerPage
  omega

theorem mem_positions_iff (menu : Menu) (page position : Nat) :
    position ∈ menu.positions page ↔
      position < menu.items.length ∧ position / Menu.itemsPerPage = page :=
  Pieces.mem_piece_iff (by decide)

theorem page_lt_pages {menu : Menu} (inside : menu.selected < menu.items.length) :
    menu.page < menu.pages := by
  unfold Menu.page Menu.pages Menu.itemsPerPage
  omega

theorem rows_text (menu : Menu) (hasParent : Bool) :
    (menu.shown hasParent).rows.map Row.text =
      (menu.itemsOn menu.page).map fun item => visible item.text.toList := by
  unfold Menu.shown Menu.itemsOn
  rw [List.map_filterMap, List.map_filterMap]
  refine List.filterMap_congr fun i _ => ?_
  cases menu.items[i]? with
  | none => rfl
  | some item => rfl

/-- The colors of the rows come from the flags of the items and the selection. -/
theorem rows_color (menu : Menu) (hasParent : Bool) :
    (menu.shown hasParent).rows.map Row.color =
      (menu.positions menu.page).filterMap fun i =>
        (menu.items.map MenuItem.enabled)[i]?.map fun enabled =>
          MenuItem.color { enabled } (i == menu.selected) := by
  unfold Menu.shown
  rw [List.map_filterMap]
  refine List.filterMap_congr fun i _ => ?_
  rw [List.getElem?_map]
  cases menu.items[i]? with
  | none => rfl
  | some item => rfl

/-- Exactly one row is marked: the row of the selected item. -/
theorem rows_marked {menu : Menu} {item : MenuItem} (hasParent : Bool)
    (there : menu.items[menu.selected]? = some item) :
    (menu.shown hasParent).rows.filter Row.marked = [item.row true] := by
  have inside : menu.selected < menu.items.length := (List.getElem?_eq_some_iff.mp there).1
  have member := (mem_positions_iff menu menu.page menu.selected).mpr ⟨inside, rfl⟩
  obtain ⟨before, after, split⟩ := List.append_of_mem member
  have distinct : (menu.positions menu.page).Nodup := List.nodup_range'
  rw [split, List.nodup_middle, List.nodup_cons, List.mem_append, not_or] at distinct
  obtain ⟨⟨not_before, not_after⟩, -⟩ := distinct
  -- the rows of the other positions are not marked
  have unmarked : ∀ positions : List Nat, menu.selected ∉ positions →
      (positions.filterMap fun i => menu.items[i]?.map fun item =>
        item.row (i == menu.selected)).filter Row.marked = [] := by
    intro positions absent
    rw [List.filter_eq_nil_iff]
    intro row is_row marked
    obtain ⟨i, at_i, found⟩ := List.mem_filterMap.mp is_row
    obtain ⟨other, -, rfl⟩ := Option.map_eq_some_iff.mp found
    have same : i = menu.selected := eq_of_beq marked
    exact absent (same ▸ at_i)
  unfold Menu.shown
  dsimp only
  rw [split, List.filterMap_append, List.filterMap_cons, there, List.filter_append,
    unmarked before not_before]
  simp only [Option.map_some, beq_self_eq_true, List.nil_append]
  rw [List.filter_cons_of_pos rfl, unmarked after not_after]

end Source2Root.Foundation
