import Source2Root.Decimal
import Source2Root.Python.Utf8

/-!
# The json module of Python

`json.loads` with hooks that refuse a repeated key and the constants `NaN` and
`Infinity`, and `json.dumps` with `indent=2`, `ensure_ascii` and `sort_keys`.  A
`dict` is its items in the order of the keys: nothing here tells in which order
they were added.  A number with a fraction or an exponent keeps its decimal form.
-/

set_option autoImplicit false

namespace Source2Root.Python

/-! ## Dictionaries -/

abbrev Dict (α : Type) := List (Str × α)

namespace Dict

variable {α : Type}

def find (key : Str) : Dict α → Option α
  | [] => none
  | (k, a) :: rest => if k = key then some a else find key rest

def assign (key : Str) (a : α) : Dict α → Dict α
  | [] => [(key, a)]
  | (k, b) :: rest =>
      if key < k then (key, a) :: (k, b) :: rest
      else if key = k then (key, a) :: rest
      else (k, b) :: assign key a rest

def remove (key : Str) (items : Dict α) : Dict α := items.filter fun item => !decide (item.1 = key)

def Ordered (items : Dict α) : Prop := items.Pairwise fun a b => a.1 < b.1

theorem ordered_keys {items : Dict α} (keys : List Str) (named : items.map Prod.fst = keys)
    (sorted : keys.Pairwise fun a b => a < b) : Ordered items := by
  rw [← named, List.pairwise_map] at sorted
  exact sorted

@[simp] theorem find_nil (key : Str) : find key ([] : Dict α) = none := rfl

theorem find_cons (key k : Str) (a : α) (rest : Dict α) :
    find key ((k, a) :: rest) = if k = key then some a else find key rest := rfl

@[simp] theorem find_assign_self (key : Str) (a : α) (items : Dict α) :
    find key (assign key a items) = some a := by
  induction items with
  | nil => simp [assign, find]
  | cons item rest ih =>
      obtain ⟨k, b⟩ := item
      by_cases before : key < k
      · simp [assign, before, find]
      · by_cases same : key = k
        · simp [assign, same, find]
        · simp [assign, before, same, Ne.symm same, find, ih]

theorem find_assign_other {key other : Str} (different : other ≠ key) (a : α) (items : Dict α) :
    find other (assign key a items) = find other items := by
  induction items with
  | nil => simp [assign, find, Ne.symm different]
  | cons item rest ih =>
      obtain ⟨k, b⟩ := item
      by_cases before : key < k
      · simp [assign, before, find, Ne.symm different]
      · by_cases same : key = k
        · subst same
          simp [assign, find, Ne.symm different]
        · simp [assign, before, same, find, ih]

@[simp] theorem find_remove_self (key : Str) (items : Dict α) :
    find key (remove key items) = none := by
  induction items with
  | nil => rfl
  | cons item rest ih =>
      obtain ⟨k, b⟩ := item
      rw [remove] at ih ⊢
      by_cases same : k = key
      · simp [same, ih]
      · simp [same, find, ih]

theorem find_remove_other {key other : Str} (different : other ≠ key) (items : Dict α) :
    find other (remove key items) = find other items := by
  induction items with
  | nil => rfl
  | cons item rest ih =>
      obtain ⟨k, b⟩ := item
      rw [remove] at ih ⊢
      by_cases same : k = key
      · simp [same, find, Ne.symm different, ih]
      · simp [same, find, ih]

theorem mem_of_find {key : Str} {a : α} {items : Dict α} (found : find key items = some a) :
    (key, a) ∈ items := by
  induction items with
  | nil => cases found
  | cons first rest ih =>
      obtain ⟨k, b⟩ := first
      by_cases same : k = key
      · rw [find, if_pos same, Option.some.injEq] at found
        rw [same, found]
        exact List.mem_cons_self ..
      · rw [find, if_neg same] at found
        exact List.mem_cons_of_mem _ (ih found)

theorem find_of_mem {key : Str} {a : α} {items : Dict α} : Ordered items →
    (key, a) ∈ items → find key items = some a := by
  induction items with
  | nil => exact fun _ nothing => nomatch nothing
  | cons first rest ih =>
      obtain ⟨k, b⟩ := first
      intro ordered inside
      obtain ⟨before, later⟩ := List.pairwise_cons.mp ordered
      rcases List.mem_cons.mp inside with same | inside
      · cases same
        simp [find]
      · have different : k ≠ key := (before _ inside).ne
        rw [find, if_neg different, ih later inside]

theorem mem_assign {key : Str} {a : α} {items : Dict α} {item : Str × α}
    (inside : item ∈ assign key a items) : item = (key, a) ∨ item ∈ items := by
  induction items with
  | nil => simpa [assign] using inside
  | cons first rest ih =>
      obtain ⟨k, b⟩ := first
      by_cases before : key < k
      · simpa [assign, before] using inside
      · by_cases same : key = k
        · subst same
          simp only [assign, before, if_false, if_true, List.mem_cons] at inside
          exact inside.imp_right fun later => List.mem_cons_of_mem _ later
        · simp only [assign, before, same, if_false, List.mem_cons] at inside
          rcases inside with rfl | later
          · exact Or.inr (List.mem_cons_self ..)
          · exact (ih later).imp_right (List.mem_cons_of_mem _)

theorem ordered_assign (key : Str) (a : α) {items : Dict α} : Ordered items →
    Ordered (assign key a items) := by
  induction items with
  | nil => exact fun _ => List.pairwise_singleton _ _
  | cons first rest ih =>
      obtain ⟨k, b⟩ := first
      intro ordered
      obtain ⟨before, later⟩ := List.pairwise_cons.mp ordered
      by_cases less : key < k
      · rw [assign, if_pos less]
        refine List.pairwise_cons.mpr ⟨List.forall_mem_cons.mpr ⟨less, ?_⟩, ordered⟩
        exact fun item inside => less.trans (before item inside)
      · by_cases same : key = k
        · subst same
          rw [assign, if_neg less, if_pos rfl]
          exact List.pairwise_cons.mpr ⟨before, later⟩
        · rw [assign, if_neg less, if_neg same]
          refine List.pairwise_cons.mpr ⟨?_, ih later⟩
          intro item inside
          rcases mem_assign inside with rfl | inside
          · exact lt_of_le_of_ne (not_lt.mp less) (Ne.symm same)
          · exact before item inside

theorem ordered_remove (key : Str) {items : Dict α} (ordered : Ordered items) :
    Ordered (remove key items) :=
  List.Pairwise.filter _ ordered

/-- A new key adds an item. -/
theorem length_assign {key : Str} (a : α) {items : Dict α} (absent : find key items = none) :
    (assign key a items).length = items.length + 1 := by
  induction items with
  | nil => rfl
  | cons first rest ih =>
      obtain ⟨k, b⟩ := first
      by_cases same : k = key
      · simp [find, same] at absent
      · rw [find, if_neg same] at absent
        by_cases less : key < k
        · simp [assign, less]
        · simp [assign, less, Ne.symm same, ih absent]

end Dict

/-! ## Values -/

inductive Value where
  | null
  | boolean (b : Bool)
  | integer (n : Int)
  | number (mantissa exponent : Int)
  | string (text : Str)
  | array (items : List Value)
  | object (members : List (Str × Value))
deriving Inhabited

namespace Value

abbrev Members := Dict Value

/-- `value.get(key)` of a `dict`. -/
def get (key : Str) : Value → Option Value
  | .object members => Dict.find key members
  | .null | .boolean _ | .integer _ | .number _ _ | .string _ | .array _ => none

/-- A decimal that the nearest double of is finite. -/
def finiteNumber (mantissa exponent : Int) : Bool :=
  (mantissa.natAbs : Rat) * (10 : Rat) ^ exponent < 2 ^ 1024 - 2 ^ 970

mutual

/-- How deep the values stand in one another. -/
def depth : Value → Nat
  | .array items => depthItems items
  | .object members => depthMembers members
  | .null | .boolean _ | .integer _ | .number _ _ | .string _ => 0

def depthItems : List Value → Nat
  | [] => 0
  | v :: rest => max (v.depth + 1) (depthItems rest)

def depthMembers : Members → Nat
  | [] => 0
  | m :: rest => max (depthMember m + 1) (depthMembers rest)

def depthMember : Str × Value → Nat
  | (_, v) => v.depth

end

mutual

/-- No number of the value is an infinity. -/
def finite : Value → Bool
  | .number mantissa exponent => finiteNumber mantissa exponent
  | .array items => finiteItems items
  | .object members => finiteMembers members
  | .null | .boolean _ | .integer _ | .string _ => true

def finiteItems : List Value → Bool
  | [] => true
  | v :: rest => v.finite && finiteItems rest

def finiteMembers : Members → Bool
  | [] => true
  | m :: rest => finiteMember m && finiteMembers rest

def finiteMember : Str × Value → Bool
  | (_, v) => v.finite

end

mutual

/-- `==`; numbers with a fraction are compared by their decimal form. -/
def same : Value → Value → Bool
  | .null, .null => true
  | .boolean a, .boolean b => a == b
  | .integer m, .integer n => m == n
  | .number m e, .number n f => m == n && e == f
  | .string s, .string t => s == t
  | .array items, .array others => sameItems items others
  | .object members, .object others => sameMembers members others
  | _, _ => false

def sameItems : List Value → List Value → Bool
  | [], [] => true
  | v :: rest, w :: others => v.same w && sameItems rest others
  | _, _ => false

def sameMembers : Members → Members → Bool
  | [], [] => true
  | m :: rest, n :: others => sameMember m n && sameMembers rest others
  | _, _ => false

def sameMember : Str × Value → Str × Value → Bool
  | (k, v), (j, w) => k == j && v.same w

end

mutual

theorem same_refl : ∀ v : Value, v.same v = true
  | .null => by simp [same]
  | .boolean _ => by simp [same]
  | .integer _ => by simp [same]
  | .number _ _ => by simp [same]
  | .string _ => by simp [same]
  | .array items => by rw [same]; exact sameItems_refl items
  | .object members => by rw [same]; exact sameMembers_refl members

theorem sameItems_refl : ∀ items : List Value, sameItems items items = true
  | [] => by simp [sameItems]
  | v :: rest => by simp [sameItems, same_refl v, sameItems_refl rest]

theorem sameMembers_refl : ∀ members : Members, sameMembers members members = true
  | [] => by simp [sameMembers]
  | m :: rest => by simp [sameMembers, sameMember_refl m, sameMembers_refl rest]

theorem sameMember_refl : ∀ m : Str × Value, sameMember m m = true
  | (k, v) => by simp [sameMember, same_refl v]

end

end Value

/-! ## Reading -/

def space (c : Nat) : Bool := c = 32 || c = 9 || c = 10 || c = 13

def skip (text : Str) : Str := text.dropWhile space

def isDigit (c : Nat) : Bool := 48 ≤ c && c ≤ 57

/-- `int` of decimal digits. -/
def intOf (digits : Str) : Nat := digits.foldl (fun n c => 10 * n + (c - 48)) 0

def hexDigit (c : Nat) : Option Nat :=
  if 48 ≤ c ∧ c ≤ 57 then some (c - 48)
  else if 65 ≤ c ∧ c ≤ 70 then some (c - 55)
  else if 97 ≤ c ∧ c ≤ 102 then some (c - 87)
  else none

/-- What stands for the character after a backslash. -/
def escaped (c : Nat) : Option Nat :=
  if c = 34 ∨ c = 92 ∨ c = 47 then some c
  else if c = 98 then some 8
  else if c = 102 then some 12
  else if c = 110 then some 10
  else if c = 114 then some 13
  else if c = 116 then some 9
  else none

/-- The units of a string up to its closing quote, and what comes after it. -/
def scanUnits : Str → Option (Str × Str)
  | [] => none
  | c :: rest =>
      if c = 34 then some ([], rest)
      else if c < 32 then none
      else if c = 92 then
        match rest with
        | [] => none
        | e :: rest =>
            if e = 117 then
              match rest with
              | h :: i :: j :: k :: rest =>
                  match hexDigit h, hexDigit i, hexDigit j, hexDigit k with
                  | some h, some i, some j, some k =>
                      (scanUnits rest).map fun found =>
                        ((((h * 16 + i) * 16 + j) * 16 + k) :: found.1, found.2)
                  | _, _, _, _ => none
              | _ => none
            else
              match escaped e with
              | some unit => (scanUnits rest).map fun found => (unit :: found.1, found.2)
              | none => none
      else (scanUnits rest).map fun found => (c :: found.1, found.2)

/-- An escaped pair of surrogates is one character. -/
def joined : Str → Str
  | [] => []
  | [c] => [c]
  | c :: d :: rest =>
      if (0xd800 ≤ c ∧ c < 0xdc00) ∧ (0xdc00 ≤ d ∧ d < 0xe000) then
        (0x10000 + (c - 0xd800) * 1024 + (d - 0xdc00)) :: joined rest
      else c :: joined (d :: rest)

def scanString (text : Str) : Option (Str × Str) :=
  (scanUnits text).map fun found => (joined found.1, found.2)

/-- The digits after a point, if there are any. -/
def scanFraction : Str → Str × Str
  | [] => ([], [])
  | c :: rest =>
      if c = 46 ∧ (rest.takeWhile isDigit) ≠ [] then rest.span isDigit else ([], c :: rest)

/-- The exponent of a number, if there is one. -/
def scanExponent : Str → Option Int × Str
  | [] => (none, [])
  | c :: rest =>
      if c = 69 ∨ c = 101 then
        let minus := rest.head? = some 45
        let digits := if minus ∨ rest.head? = some 43 then rest.tail else rest
        if digits.takeWhile isDigit ≠ [] then
          let value : Int := intOf (digits.takeWhile isDigit)
          (some (if minus then -value else value), digits.dropWhile isDigit)
        else (none, c :: rest)
      else (none, c :: rest)

/-- A number; `int` refuses more than 4300 digits. -/
def scanUnsigned (sign : Int) (text : Str) : Option (Value × Str) :=
  let whole := if text.head? = some 48 then [48] else text.takeWhile isDigit
  if whole = [] then none
  else
    let (fraction, text) := scanFraction (text.drop whole.length)
    let (exponent, text) := scanExponent text
    if fraction = [] ∧ exponent = none then
      if whole.length ≤ 4300 then some (.integer (sign * intOf whole), text) else none
    else
      some (.number (sign * intOf (whole ++ fraction)) (exponent.getD 0 - fraction.length), text)

def scanNumber (text : Str) : Option (Value × Str) :=
  if text.head? = some 45 then scanUnsigned (-1) text.tail else scanUnsigned 1 text

/-- The place of a new key among the items; a repeated key is refused. -/
def insertMember (key : Str) (v : Value) : Value.Members → Option Value.Members
  | [] => some [(key, v)]
  | (k, other) :: rest =>
      if key < k then some ((key, v) :: (k, other) :: rest)
      else if key = k then none
      else (insertMember key v rest).map fun items => (k, other) :: items

/-- The hook for the items of an object. -/
def pairs : Value.Members → Option Value.Members
  | [] => some []
  | (key, v) :: rest => (pairs rest).bind (insertMember key v)

def expect (c : Nat) : Str → Option Str
  | [] => none
  | d :: rest => if d = c then some rest else none

mutual

/-- One value and what comes after it, within `n` calls. -/
def scanValue (n : Nat) (text : Str) : Option (Value × Str) :=
  match n, text with
  | 0, _ => none
  | _ + 1, [] => none
  | n + 1, c :: rest =>
      if c = 34 then (scanString rest).map fun found => (.string found.1, found.2)
      else if c = 123 then
        if (skip rest).head? = some 125 then some (.object [], (skip rest).tail)
        else
          (scanMembers n (skip rest)).bind fun found =>
            (pairs found.1).map fun items => (.object items, found.2)
      else if c = 91 then
        if (skip rest).head? = some 93 then some (.array [], (skip rest).tail)
        else (scanItems n (skip rest)).map fun found => (.array found.1, found.2)
      else if (str "null").isPrefixOf (c :: rest) then some (.null, rest.drop 3)
      else if (str "true").isPrefixOf (c :: rest) then some (.boolean true, rest.drop 3)
      else if (str "false").isPrefixOf (c :: rest) then some (.boolean false, rest.drop 4)
      else scanNumber (c :: rest)

/-- The items of an array from one of them on. -/
def scanItems (n : Nat) (text : Str) : Option (List Value × Str) :=
  match n with
  | 0 => none
  | n + 1 =>
      (scanValue n text).bind fun found =>
        match skip found.2 with
        | [] => none
        | c :: rest =>
            if c = 93 then some ([found.1], rest)
            else if c = 44 then
              (scanItems n (skip rest)).map fun more => (found.1 :: more.1, more.2)
            else none

/-- The items of an object from one of them on. -/
def scanMembers (n : Nat) (text : Str) : Option (Value.Members × Str) :=
  match n with
  | 0 => none
  | n + 1 =>
      (expect 34 text).bind fun text => (scanString text).bind fun key =>
      (expect 58 (skip key.2)).bind fun text => (scanValue n (skip text)).bind fun found =>
        match skip found.2 with
        | [] => none
        | c :: rest =>
            if c = 125 then some ([(key.1, found.1)], rest)
            else if c = 44 then
              (scanMembers n (skip rest)).map fun more => ((key.1, found.1) :: more.1, more.2)
            else none

end

/-- `json.loads`; two calls for each character are enough. -/
def loads (text : Str) : Option Value :=
  if text.head? = some 0xfeff then none
  else
    (scanValue (2 * text.length + 1) (skip text)).bind fun found =>
      if skip found.2 = [] then some found.1 else none

/-! ## Writing -/

/-- `str` of a number that is not negative. -/
def decimal (n : Nat) : Str := (Source2Root.decimal n).map Char.toNat

def decimalInt (n : Int) : Str := if n < 0 then 45 :: decimal n.natAbs else decimal n.natAbs

def hexChar (n : Nat) : Nat := if n % 16 < 10 then 48 + n % 16 else 87 + n % 16

/-- A unit of UTF-16 as `ensure_ascii` writes it. -/
def unitEscape (n : Nat) : Str :=
  [92, 117, hexChar (n / 4096), hexChar (n / 256), hexChar (n / 16), hexChar n]

def escape (c : Nat) : Str :=
  if c = 34 ∨ c = 92 then [92, c]
  else if c = 8 then [92, 98]
  else if c = 12 then [92, 102]
  else if c = 10 then [92, 110]
  else if c = 13 then [92, 114]
  else if c = 9 then [92, 116]
  else if 32 ≤ c ∧ c ≤ 126 then [c]
  else if c < 0x10000 then unitEscape c
  else unitEscape (0xd800 + (c - 0x10000) / 1024) ++ unitEscape (0xdc00 + (c - 0x10000) % 1024)

def quoted (text : Str) : Str := 34 :: (text.flatMap escape ++ [34])

def newline (level : Nat) : Str := 10 :: List.replicate (2 * level) 32

mutual

/-- `json.dumps` of a value that stands `level` deep.  Of a double, which Python
writes shortest, the decimal form it came from is written. -/
def dumps (level : Nat) : Value → Str
  | .null => str "null"
  | .boolean true => str "true"
  | .boolean false => str "false"
  | .integer n => decimalInt n
  | .number mantissa exponent => decimalInt mantissa ++ 101 :: decimalInt exponent
  | .string text => quoted text
  | .array [] => str "[]"
  | .array (v :: rest) =>
      91 :: (newline (level + 1) ++ dumps (level + 1) v ++ dumpsItems level rest)
  | .object [] => str "{}"
  | .object (m :: rest) =>
      123 :: (newline (level + 1) ++ dumpsMember (level + 1) m ++ dumpsMembers level rest)

def dumpsItems (level : Nat) : List Value → Str
  | [] => newline level ++ [93]
  | v :: rest => 44 :: (newline (level + 1) ++ dumps (level + 1) v ++ dumpsItems level rest)

def dumpsMembers (level : Nat) : Value.Members → Str
  | [] => newline level ++ [125]
  | m :: rest =>
      44 :: (newline (level + 1) ++ dumpsMember (level + 1) m ++ dumpsMembers level rest)

def dumpsMember (level : Nat) : Str × Value → Str
  | (key, v) => quoted key ++ 58 :: 32 :: dumps level v

end

end Source2Root.Python
