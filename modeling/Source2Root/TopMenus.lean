import Mathlib
import Source2Root.Json

/-!
# Shared top menus

`extensions/topmenus/catalog.cpp`: the objects that plugins register in a menu, and
the pages that are built of them.  An object is named by its sequence number.  One that
was destroyed is closed first, and stays in the list until the next removal of closed
objects.  An access callback may change the menu, by any of its operations.

The revision is not followed past 64 bits.
-/

set_option autoImplicit false

namespace Source2Root.TopMenus

inductive Kind where
  | category
  | item
deriving DecidableEq, Repr

inductive Access where
  | hidden
  | enabled
  | disabled
deriving DecidableEq, Repr

structure Object where
  key : Text
  category : Text
  label : Text
  permission : Text
  plugin : Text
  owner : Nat
  sequence : Nat
  order : Int
  kind : Kind
  live : Bool := true
deriving DecidableEq

structure Menu where
  title : Text
  revision : Nat := 1
  nextSequence : Nat := 1
  objects : List Object := []
deriving DecidableEq

/-! ## Checks of texts -/

def isLower (c : Char) : Bool := 'a' ≤ c && c ≤ 'z'
def isUpper (c : Char) : Bool := 'A' ≤ c && c ≤ 'Z'
def isNumber (c : Char) : Bool := '0' ≤ c && c ≤ '9'

/-- `Key` -/
def checkKey (value : Text) (empty : Bool) : Except String Unit :=
  if (!empty && value.isEmpty) || 64 < value.length || value.any (fun c =>
      !(isLower c || isUpper c || isNumber c || c == '_' || c == '-' || c == '.')) then
    .error "Top menu names accept 1..64 letters, digits, dots, underscores or hyphens."
  else .ok ()

/-- `Label` -/
def checkLabel (value : Text) : Except String Unit :=
  if value.isEmpty || 96 < value.length || value.any (fun c => c.toNat < 32 || c.toNat == 127) then
    .error "Top menu labels require 1..96 printable bytes."
  else .ok ()

/-- `Permission` -/
def checkPermission (value : Text) : Except String Unit :=
  if value.isEmpty then .ok ()
  else if 96 < value.length || value.head? == some '.' || value.getLast? == some '.' ||
      (value.zip value.tail).any (fun pair => pair.1 == '.' && pair.2 == '.') ||
      value.any (fun c => !(isLower c || isNumber c || c == '_' || c == '-' || c == '.')) then
    .error "Invalid top menu permission name."
  else .ok ()

/-! ## The operations -/

namespace Menu

/-- `std::erase_if` of the objects that are closed -/
def purge (m : Menu) : Menu := { m with objects := m.objects.filter fun object => object.live }

/-- The object of a sequence number, changed while it is in the list. -/
def edit (sequence : Nat) (f : Object → Object) (m : Menu) : Menu :=
  { m with
    objects := m.objects.map fun object => if object.sequence = sequence then f object else object
    revision := m.revision + 1 }

def find (sequence : Nat) (m : Menu) : Option Object :=
  m.objects.find? fun object => object.live && object.sequence == sequence

/-- `Object::Close`, and the destructor of an object -/
def close (sequence : Nat) (m : Menu) : Menu :=
  match m.find sequence with
  | none => m
  | some _ => m.edit sequence fun object => { object with live := false }

/-- `Object::SetLabel` -/
def setLabel (sequence : Nat) (value : Text) (m : Menu) : Except String Menu := do
  checkLabel value
  match m.find sequence with
  | none => throw "Top menu object is closed."
  | some object =>
      if object.label ≠ value then
        return m.edit sequence fun object => { object with label := value }
      else return m

/-- `Object::SetOrder` -/
def setOrder (sequence : Nat) (value : Int) (m : Menu) : Except String Menu :=
  match m.find sequence with
  | none => throw "Top menu object is closed."
  | some object =>
      if object.order ≠ value then
        return m.edit sequence fun object => { object with order := value }
      else return m

/-- `Menu::SetTitle` -/
def setTitle (value : Text) (m : Menu) : Except String Menu := do
  checkLabel value
  if m.title ≠ value then return { m with title := value, revision := m.revision + 1 }
  else return m

/-- The arguments of `Menu::Add`. -/
structure Registration where
  kind : Kind
  key : Text
  category : Text
  label : Text
  permission : Text
  plugin : Text
  owner : Nat
  order : Int

/-- The checks of `Menu::Add` before it removes closed objects. -/
def Registration.check (r : Registration) : Except String Unit := do
  checkKey r.key false
  checkKey r.category true
  checkLabel r.label
  checkPermission r.permission
  if r.owner = 0 ∨ r.plugin.isEmpty ∨ (r.kind = .category ∧ ¬ r.category.isEmpty) then
    throw "Invalid top menu registration."

/-- The new object. -/
def Registration.object (r : Registration) (sequence : Nat) : Object :=
  { key := r.key, category := r.category, label := r.label, permission := r.permission,
    plugin := r.plugin, owner := r.owner, sequence, order := r.order, kind := r.kind }

/-- `Menu::Add`: its outcome and the menu it leaves. -/
def add (r : Registration) (m : Menu) : Except String Object × Menu :=
  match r.check with
  | .error message => (.error message, m)
  | .ok () =>
      let m := m.purge
      if 256 ≤ m.objects.length ∨ m.nextSequence = 2 ^ 64 - 1 then
        (.error "Top menu object limit (256) reached.", m)
      else if m.objects.any (fun object => object.key == r.key &&
          (object.plugin != r.plugin || object.owner == r.owner || object.kind != r.kind ||
            object.category != r.category)) then
        (.error "Top menu object name is already registered.", m)
      else
        let object := r.object m.nextSequence
        (.ok object, { m with
          objects := m.objects ++ [object]
          nextSequence := m.nextSequence + 1
          revision := m.revision + 1 })

end Menu

/-- What plugins do to a menu; `build` is the part of a build that changes it. -/
inductive Operation where
  | add (r : Menu.Registration)
  | close (sequence : Nat)
  | setLabel (sequence : Nat) (value : Text)
  | setOrder (sequence : Nat) (value : Int)
  | setTitle (value : Text)
  | build

/-- An operation that throws has changed nothing but the list of closed objects. -/
def Menu.apply (m : Menu) : Operation → Menu
  | .add r => (m.add r).2
  | .close sequence => m.close sequence
  | .setLabel sequence value => ((m.setLabel sequence value).toOption).getD m
  | .setOrder sequence value => ((m.setOrder sequence value).toOption).getD m
  | .setTitle value => ((m.setTitle value).toOption).getD m
  | .build => m.purge

def Menu.perform (m : Menu) (operations : List Operation) : Menu := operations.foldl Menu.apply m

/-! ## The active objects -/

/-- `latest[object->key]` and the assignment to it. -/
def insertLatest (object : Object) : List Object → List Object
  | [] => [object]
  | current :: rest =>
      if current.key = object.key then
        if current.sequence < object.sequence then object :: rest else current :: rest
      else current :: insertLatest object rest

/-- The order of the rows. -/
def before (a b : Object) : Bool :=
  if a.order ≠ b.order then a.order < b.order
  else if a.label ≠ b.label then a.label < b.label
  else a.key < b.key

/-- The objects whose registrations count: live, of a running generation. -/
def Menu.running (running : Nat → Bool) (m : Menu) : List Object :=
  m.objects.filter fun object => object.live && running object.owner

/-- `Menu::Active`; no two of its objects have one key, so that any sorting gives this. -/
def Menu.active (running : Nat → Bool) (m : Menu) : List Object :=
  ((m.running running).foldl (fun latest object => insertLatest object latest) []).mergeSort
    fun a b => !before b a

/-! ## Pages -/

structure Row where
  label : Text
  enabled : Bool
  object : Option Object := none
  page : Int := -1
  back : Bool := false
  empty : Bool := false
deriving DecidableEq

structure Page where
  title : Text
  category : Text
  rows : List Row
  page : Nat
  revision : Nat
deriving DecidableEq

/-- The `std::map` of the decisions. -/
abbrev Visibility := List (Text × Access)

def Visibility.emplace (key : Text) (access : Access) (visibility : Visibility) : Visibility :=
  match visibility.lookup key with
  | some _ => visibility
  | none => visibility ++ [(key, access)]

/-- The access callback: its decision, and what it does to the menu. -/
abbrev Callback := Object → Menu → Access × List Operation

def changed : String := "Top menu changed during its access callback."

section Build
variable (access : Callback) (revision : Nat)

/-- The first loop of `Menu::Build`. -/
def decideCategories : List Object → Visibility → Menu → Except String Visibility × Menu
  | [], visibility, m => (.ok visibility, m)
  | object :: rest, visibility, m =>
      if object.kind = .category then
        let answer := access object m
        let m := m.perform answer.2
        if m.revision ≠ revision then (.error changed, m)
        else decideCategories rest (visibility.emplace object.key answer.1) m
      else decideCategories rest visibility m

/-- The category of an item is empty or enabled. -/
def allowedCategory (visibility : Visibility) (object : Object) : Bool :=
  object.category.isEmpty || visibility.lookup object.category == some .enabled

/-- The second loop of `Menu::Build`. -/
def decideItems : List Object → Visibility → Menu → Except String Visibility × Menu
  | [], visibility, m => (.ok visibility, m)
  | object :: rest, visibility, m =>
      if object.kind = .item then
        let answer :=
          if allowedCategory visibility object then access object m else (.hidden, [])
        let m := m.perform answer.2
        if m.revision ≠ revision then (.error changed, m)
        else decideItems rest (visibility.emplace object.key answer.1) m
      else decideItems rest visibility m

end Build

/-- `visibility.at`; every active object has its entry. -/
def decision (visibility : Visibility) (object : Object) : Access :=
  (visibility.lookup object.key).getD .hidden

def visible (visibility : Visibility) (object : Object) : Bool :=
  decision visibility object != .hidden

/-- The loop that collects the rows to show. -/
def shown (category : Text) (active : List Object) (visibility : Visibility) : List Object :=
  active.filter fun object =>
    visible visibility object &&
      ((object.kind == .item && object.category == category) ||
        (object.kind == .category && category.isEmpty && active.any fun child =>
          child.kind == .item && child.category == object.key && visible visibility child))

def perPage : Nat := 28

/-- The row of an object. -/
def objectRow (visibility : Visibility) (object : Object) : Row :=
  { label := object.label, enabled := decision visibility object == .enabled,
    object := some object }

/-- A row that is there when the condition holds. -/
def rowIf (condition : Bool) (row : Row) : List Row := if condition then [row] else []

/-- The rows of a page of the objects to show. -/
def rows (category : Text) (shown : List Object) (visibility : Visibility) (page : Nat) :
    List Row :=
  ((shown.drop (page * perPage)).take perPage).map (objectRow visibility) ++
    rowIf shown.isEmpty
      { label := "No available actions".toList, enabled := false, empty := true } ++
    rowIf (page != 0)
      { label := "Previous page".toList, enabled := true, page := (page : Int) - 1 } ++
    rowIf (page * perPage + perPage < shown.length)
      { label := "Next page".toList, enabled := true, page := page + 1 } ++
    rowIf (!category.isEmpty)
      { label := "Back to categories".toList, enabled := true, back := true }

/-- The page of the last rows. -/
def lastPage (shown : List Object) : Nat :=
  if shown.isEmpty then 0 else (shown.length - 1) / perPage

/-- The title of a page: the menu's, or that of a category that is enabled. -/
def pageTitle (title category : Text) (active : List Object) (visibility : Visibility) :
    Except String Text :=
  if category.isEmpty then .ok title
  else
    match active.find? fun object => object.key == category && object.kind == .category &&
        decision visibility object == .enabled with
    | none => .error "Top menu category is no longer available."
    | some object => .ok object.label

/-- `Menu::Build`: its outcome and the menu it leaves. -/
def Menu.build (category : Text) (requested : Nat) (running : Nat → Bool) (access : Callback)
    (m : Menu) : Except String Page × Menu :=
  match checkKey category true with
  | .error message => (.error message, m)
  | .ok () =>
      let active := m.active running
      match decideCategories access m.revision active [] m.purge with
      | (.error message, m') => (.error message, m')
      | (.ok categories, m') =>
          match decideItems access m.revision active categories m' with
          | (.error message, m') => (.error message, m')
          | (.ok visibility, m') =>
              match pageTitle m.title category active visibility with
              | .error message => (.error message, m')
              | .ok title =>
                  let shown := shown category active visibility
                  let page := min requested (lastPage shown)
                  (.ok { title, category, rows := rows category shown visibility page, page,
                         revision := m.revision }, m')

end Source2Root.TopMenus
