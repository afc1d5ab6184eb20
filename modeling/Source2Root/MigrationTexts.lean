import Source2Root.PermissionsExact
import Source2Root.Migration
import Source2Root.Python.JsonRoundTrip

/-!
# What the migration writes

The two texts that the migration writes, byte by byte, are printings of entries: each
group and each administrator is one object, and every word stands in quotes.
-/

set_option autoImplicit false

namespace Source2Root.Python

/-! ## The bytes of a text -/

def pointBytes (c : Nat) : Text := (encodePoint c).getD []

/-- The encoding of a text that has one. -/
def bytes (text : Str) : Text := text.flatMap pointBytes

@[simp] theorem bytes_nil : bytes [] = [] := rfl

@[simp] theorem bytes_cons (c : Nat) (text : Str) :
    bytes (c :: text) = pointBytes c ++ bytes text := rfl

@[simp] theorem bytes_append (s t : Str) : bytes (s ++ t) = bytes s ++ bytes t :=
  List.flatMap_append

theorem encode_eq_some {text : Str} : ∀ {raw : Text}, encode text = some raw ↔
    (∀ c ∈ text, encodePoint c ≠ none) ∧ raw = bytes text := by
  induction text with
  | nil =>
      intro raw
      rw [encode, Option.some.injEq]
      exact ⟨fun same => ⟨List.forall_mem_nil _, same.symm⟩, fun both => both.2.symm⟩
  | cons c rest ih =>
      intro raw
      rw [encode, List.forall_mem_cons, bytes_cons, pointBytes]
      cases here : encodePoint c with
      | none => simp
      | some first =>
          cases later : encode rest with
          | none =>
              have absent : ¬encode rest = some (bytes rest) := by
                rw [later]
                exact (Option.some_ne_none _).symm
              exact iff_of_false (Option.some_ne_none _).symm fun both =>
                absent (ih.mpr ⟨both.1.2, rfl⟩)
          | some more =>
              obtain ⟨each, rfl⟩ := ih.mp later
              rw [Option.bind_some, Option.map_some, Option.some.injEq]
              exact ⟨fun same => ⟨⟨Option.some_ne_none _, each⟩, same.symm⟩,
                fun both => both.2.symm⟩

theorem pointBytes_ascii {c : Nat} (ascii : c < 128) : pointBytes c = [byte c] := by
  rw [pointBytes, encodePoint, if_pos ascii]
  rfl

/-- Every byte of a character beyond ASCII is beyond ASCII. -/
theorem pointBytes_high {c : Nat} (high : 128 ≤ c) : ∀ b ∈ pointBytes c, 128 ≤ b.toNat := by
  have continuation (n : Nat) : 128 ≤ (tail n).toNat := by
    rw [tail_toNat]
    exact Nat.le_add_right ..
  have lead {n : Nat} (low : 128 ≤ n) (small : n < 256) : 128 ≤ (byte n).toNat := by
    rwa [byte_toNat small]
  unfold pointBytes encodePoint
  rw [if_neg (by omega)]
  split_ifs
  · simp only [Option.getD_some, List.forall_mem_cons]
    exact ⟨lead (by omega) (by omega), continuation _, nofun⟩
  · exact nofun
  · simp only [Option.getD_some, List.forall_mem_cons]
    exact ⟨lead (by omega) (by omega), continuation _, continuation _, nofun⟩
  · simp only [Option.getD_some, List.forall_mem_cons]
    exact ⟨lead (by omega) (by omega), continuation _, continuation _, continuation _, nofun⟩
  · exact nofun

theorem bytes_ascii {text : Str} (ascii : Ascii text) : bytes text = text.map byte :=
  ((encode_eq_some.mp (encode_ascii ascii)).2).symm

theorem bytes_ne_nil {text : Str} (known : encode text ≠ none) (filled : text ≠ []) :
    bytes text ≠ [] := by
  intro empty
  obtain ⟨raw, encoded⟩ := Option.ne_none_iff_exists'.mp known
  obtain ⟨-, rfl⟩ := encode_eq_some.mp encoded
  rw [empty] at encoded
  exact filled (encode_injective encoded rfl)

/-- A change of bytes that leaves all but ASCII alone is one of characters. -/
theorem bytes_map {change : Nat → Nat} {change' : Char → Char}
    (low : ∀ c < 128, change c < 128 ∧ change' (byte c) = byte (change c))
    (high : ∀ c, 128 ≤ c → change c = c) (high' : ∀ b : Char, 128 ≤ b.toNat → change' b = b)
    (text : Str) : bytes (text.map change) = (bytes text).map change' := by
  induction text with
  | nil => rfl
  | cons c rest ih =>
      rw [List.map_cons, bytes_cons, bytes_cons, List.map_append, ih]
      congr 1
      by_cases ascii : c < 128
      · obtain ⟨small, same⟩ := low c ascii
        rw [pointBytes_ascii small, pointBytes_ascii ascii, List.map_singleton, same]
      · rw [high c (Nat.not_lt.mp ascii)]
        have same : (pointBytes c).map change' = (pointBytes c).map id := List.map_congr_left
          fun b inside => high' b (pointBytes_high (Nat.not_lt.mp ascii) b inside)
        rw [same, List.map_id]

end Source2Root.Python

namespace Source2Root.Migration

open Python
open KeyValues (Word Gap Filler Layout Printing Entries KeyValue)

/-! ## Words -/

theorem byte_cases {P : Nat → Prop} [DecidablePred P]
    (each : (List.range 128).all (fun c => decide (P c)) = true) : ∀ c < 128, P c := by
  intro c small
  exact of_decide_eq_true (List.all_eq_true.mp each c (List.mem_range.mpr small))

theorem bytes_lower (text : Str) : bytes (lower text) = Admins.lower (bytes text) := by
  refine bytes_map (byte_cases (by decide +kernel)) ?_ ?_ text
  · intro c high
    exact if_neg fun both => by omega
  · intro b high
    exact if_neg fun both => by omega

/-- A text that `text` lets through. -/
structure Fit (limit : Nat) (s : Str) : Prop where
  known : encode s ≠ none
  filled : s ≠ []
  short : (bytes s).length ≤ limit
  clean : s.any control = false

theorem text_eq_some {value : Option Value} {limit : Nat} {s : Str} :
    text value limit = some s ↔ value = some (.string s) ∧ Fit limit s := by
  unfold text
  split
  · rename_i s'
    constructor
    · intro found
      obtain ⟨raw, encoded, accepted⟩ := Option.bind_eq_some_iff.mp found
      split at accepted
      · rename_i fine
        cases accepted
        obtain ⟨filled, short, clean⟩ := fine
        obtain ⟨-, rfl⟩ := encode_eq_some.mp encoded
        exact ⟨rfl, by simp [encoded], filled, short, clean⟩
      · cases accepted
    · rintro ⟨same, known, filled, short, clean⟩
      cases same
      obtain ⟨raw, encoded⟩ := Option.ne_none_iff_exists'.mp known
      obtain ⟨-, rfl⟩ := encode_eq_some.mp encoded
      rw [encoded, Option.bind_some, if_pos ⟨filled, short, clean⟩]
  · rename_i other
    refine iff_of_false nofun fun both => ?_
    exact other s both.1

theorem forbidden_of_bytes {s : Str} (clean : s.any control = false) :
    ∀ b ∈ bytes s, KeyValues.forbidden b = false := by
  intro b inside
  obtain ⟨c, member, within⟩ := List.mem_flatMap.mp inside
  have fine : control c = false := by simpa using List.any_eq_false.mp clean c member
  by_cases ascii : c < 128
  · rw [pointBytes_ascii ascii, List.mem_singleton] at within
    subst within
    rw [KeyValues.forbidden, byte_toNat (by omega)]
    exact fine
  · have high := pointBytes_high (Nat.not_lt.mp ascii) b within
    simp only [KeyValues.forbidden, Bool.or_eq_false_iff, decide_eq_false_iff_not,
      beq_eq_false_iff_ne]
    omega

theorem Fit.printable {limit : Nat} {s : Str} (fit : Fit limit s) :
    Admins.printable (bytes s) = true := by
  rw [Admins.printable, Bool.not_eq_true', List.any_eq_false]
  intro b inside
  rw [forbidden_of_bytes fit.clean b inside]
  exact Bool.false_ne_true

theorem Fit.bytes_filled {limit : Nat} {s : Str} (fit : Fit limit s) : bytes s ≠ [] :=
  bytes_ne_nil fit.known fit.filled

theorem Fit.word {limit : Nat} {s : Str} (fit : Fit limit s) (small : limit ≤ KeyValues.maxToken)
    (next : Text) : (Word.quoted (bytes s)).Fine next := by
  refine ⟨fit.short.trans small, fun b inside => ?_⟩
  rw [KeyValues.expressible, forbidden_of_bytes fit.clean b inside]
  rfl

/-- A character as `quote` writes it. -/
def quotePoint (c : Nat) : Str := if c = 92 then [92, 92] else if c = 34 then [92, 34] else [c]

theorem quote_eq (s : Str) : quote s = 34 :: (s.flatMap quotePoint ++ [34]) := by
  unfold quote
  simp only [List.flatMap_assoc]
  congr 3
  funext c
  unfold quotePoint
  by_cases slash : c = 92
  · simp [slash]
  · simp [slash]

theorem bytes_quotePoint {c : Nat} (fine : control c = false) :
    bytes (quotePoint c) = (pointBytes c).flatMap KeyValues.escape := by
  by_cases ascii : c < 128
  · rw [pointBytes_ascii ascii, List.flatMap_singleton]
    exact byte_cases (P := fun c => control c = false →
      bytes (quotePoint c) = KeyValues.escape (byte c)) (by decide +kernel) c ascii fine
  · have plain : quotePoint c = [c] := by
      rw [quotePoint, if_neg (by omega), if_neg (by omega)]
    have single : ∀ b ∈ pointBytes c, KeyValues.escape b = [b] := by
      intro b inside
      have high := pointBytes_high (Nat.not_lt.mp ascii) b inside
      refine KeyValues.escape_plain ?_ ?_ ?_
      · rintro rfl
        exact absurd high (by decide)
      · rintro rfl
        exact absurd high (by decide)
      · simp only [KeyValues.forbidden, Bool.or_eq_false_iff, decide_eq_false_iff_not,
          beq_eq_false_iff_ne]
        omega
    rw [plain, bytes_cons, bytes_nil, List.append_nil, List.flatMap_congr single]
    exact (List.flatMap_singleton' _).symm

/-- The core reads back what `quote` writes. -/
theorem bytes_quote {s : Str} (clean : s.any control = false) :
    bytes (quote s) = (Word.quoted (bytes s)).text := by
  have inner : bytes (s.flatMap quotePoint) = (bytes s).flatMap KeyValues.escape := by
    induction s with
    | nil => rfl
    | cons c rest ih =>
        obtain ⟨here, later⟩ := Bool.or_eq_false_iff.mp (List.any_cons ▸ clean)
        rw [List.flatMap_cons, bytes_append, bytes_quotePoint here, ih later, bytes_cons,
          List.flatMap_append]
  rw [quote_eq, bytes_cons, bytes_append, inner]
  rfl

theorem bytes_decimal (n : Nat) : bytes (Python.decimal n) = Source2Root.decimal n := by
  rw [bytes_ascii (decimal_ascii n), Python.decimal, List.map_map]
  exact (List.map_congr_left fun c _ => Char.ofNat_toNat c).trans (List.map_id _)

theorem decimal_clean (n : Nat) : (Python.decimal n).any control = false := by
  rw [List.any_eq_false]
  intro c inside
  have digit := Python.decimal_digits n c inside
  simp only [Python.isDigit, Bool.and_eq_true, decide_eq_true_eq] at digit
  simp only [control, Bool.or_eq_true, decide_eq_true_eq, beq_iff_eq]
  omega

/-! ## Lines -/

/-- A line with the end of the one before. -/
def led (line : Str) : Text := '\n' :: bytes line

def gap (n : Nat) : Gap := .blank '\n' :: List.replicate n (.blank ' ')

def space : Gap := [.blank ' ']

theorem gap_fine (n : Nat) : (gap n).Fine := by
  intro filler inside
  rcases List.mem_cons.mp inside with rfl | inside
  · rfl
  · rw [List.eq_of_mem_replicate inside]
    rfl

theorem space_fine : space.Fine := by
  intro filler inside
  rw [List.mem_singleton.mp inside]
  rfl

theorem gap_text (n : Nat) : (gap n).text = '\n' :: List.replicate n ' ' := by
  have blanks (k : Nat) :
      (List.replicate k (Filler.blank ' ')).flatMap Filler.text = List.replicate k ' ' := by
    induction k with
    | zero => rfl
    | succ k ih =>
        rw [List.replicate_succ, List.flatMap_cons, ih]
        rfl
  rw [gap, Gap.text, List.flatMap_cons, blanks]
  rfl

@[simp] theorem gap_length (n : Nat) : (gap n).text.length = n + 1 := by
  rw [gap_text, List.length_cons, List.length_replicate]

theorem led_indent (n : Nat) (line : Str) : led (indent n line) = (gap n).text ++ bytes line := by
  have blanks : bytes (List.replicate n 32) = List.replicate n ' ' := by
    induction n with
    | zero => rfl
    | succ n ih =>
        rw [List.replicate_succ, bytes_cons, ih]
        rfl
  rw [led, indent, bytes_append, blanks, gap_text]
  rfl

theorem joinLines_cons (first : Str) (rest : List Str) :
    bytes (joinLines (first :: rest)) = bytes first ++ rest.flatMap led := by
  induction rest generalizing first with
  | nil => simp [joinLines]
  | cons second rest ih =>
      have split : joinLines (first :: second :: rest) =
          first ++ (10 :: joinLines (second :: rest)) := by
        simp [joinLines, List.intercalate]
      rw [split, bytes_append, bytes_cons, ih, List.flatMap_cons, led]
      rfl

/-! ## Groups -/

def permissionLayout : List Str → Layout
  | [] => .done (gap 8)
  | permission :: rest =>
      .value (gap 12) (.quoted (bytes permission)) space (.quoted ['1']) (permissionLayout rest)

/-- Whether a group lists its permissions; the root group does not. -/
def Group.lists (group : Group) : Bool := lower group.name ≠ str "root" ∧ group.permissions ≠ []

def Group.listLayout (group : Group) : Layout :=
  if group.lists = true then
    .object (gap 8) (.quoted "permissions".toList) (gap 8) (permissionLayout group.permissions)
      (.done (gap 4))
  else .done (gap 4)

def Group.inside (group : Group) : Layout :=
  .value (gap 8) (.quoted "immunity".toList) space (.quoted (Source2Root.decimal group.immunity))
    group.listLayout

def groupLayout : List Group → Layout
  | [] => .done (gap 0)
  | group :: rest =>
      .object (gap 4) (.quoted (bytes group.name)) (gap 4) group.inside (groupLayout rest)

/-- A group that the migration may write. -/
structure Group.Fine (group : Group) : Prop where
  name : Fit 64 group.name
  permissions : ∀ permission ∈ group.permissions, Fit 96 permission
  immunity : group.immunity ≤ 2147483647

theorem permissionLayout_text {permissions : List Str}
    (fine : ∀ permission ∈ permissions, Fit 96 permission) (after : Text) :
    (permissionLayout permissions).text ('\x7d' :: after) =
      (permissions.map (fun value => indent 12 (quote value ++ str " \"1\"")) ++
        [indent 8 (str "\x7d")]).flatMap led ++ after := by
  induction permissions with
  | nil =>
      rw [permissionLayout, Layout.text, List.map_nil, List.nil_append, List.flatMap_singleton,
        led_indent, List.append_assoc]
      rfl
  | cons permission rest ih =>
      obtain ⟨here, later⟩ := List.forall_mem_cons.mp fine
      rw [permissionLayout, Layout.text, ih later, List.map_cons, List.cons_append,
        List.flatMap_cons, led_indent, bytes_append, bytes_quote here.clean]
      simp only [List.append_assoc]
      rfl

theorem Group.inside_text {group : Group} (fine : group.Fine) (after : Text) :
    group.inside.text ('\x7d' :: after) =
      (group.lines.drop 2).flatMap led ++ after := by
  have immunity : led (indent 8 (str "\"immunity\" " ++ quote (Python.decimal group.immunity))) =
      (gap 8).text ++ ((Word.quoted "immunity".toList).text ++ (space.text ++
        (Word.quoted (Source2Root.decimal group.immunity)).text)) := by
    rw [led_indent, bytes_append, bytes_quote (decimal_clean _), bytes_decimal]
    rfl
  have closing : (gap 4).text ++ '\x7d' :: after = led (indent 4 (str "\x7d")) ++ after := by
    rw [led_indent, List.append_assoc]
    rfl
  rw [Group.inside, Layout.text, Group.lines, List.drop_succ_cons, List.drop_succ_cons,
    List.drop_zero, List.flatMap_cons, immunity, List.flatMap_append, List.flatMap_singleton]
  unfold Group.listLayout
  by_cases lists : group.lists = true
  · have lists' : lower group.name ≠ str "root" ∧ group.permissions ≠ [] := by
      simpa [Group.lists] using lists
    have opening : led (indent 8 (str "\"permissions\"")) ++ led (indent 8 (str "\x7b")) =
        (gap 8).text ++ ((Word.quoted "permissions".toList).text ++
          ((gap 8).text ++ ['\x7b'])) := by
      rw [led_indent, led_indent, List.append_assoc]
      rfl
    rw [if_pos lists, if_pos lists', Layout.text, Layout.text, closing,
      permissionLayout_text fine.permissions, List.flatMap_cons, List.flatMap_cons,
      ← List.append_assoc (led _) (led _), opening]
    simp only [List.append_assoc]
    rfl
  · have lists' : ¬(lower group.name ≠ str "root" ∧ group.permissions ≠ []) := by
      simpa [Group.lists] using lists
    rw [if_neg lists, if_neg lists', Layout.text, closing]
    simp only [List.append_assoc, List.flatMap_nil, List.nil_append]

theorem groupLayout_text {groups : List Group} (fine : ∀ group ∈ groups, group.Fine)
    (after : Text) :
    (groupLayout groups).text ('\x7d' :: after) =
      (groups.flatMap Group.lines ++ [str "\x7d"]).flatMap led ++ after := by
  induction groups with
  | nil => rfl
  | cons group rest ih =>
      obtain ⟨here, later⟩ := List.forall_mem_cons.mp fine
      have lines : group.lines = indent 4 (quote group.name) :: indent 4 (str "\x7b") ::
          group.lines.drop 2 := rfl
      rw [groupLayout, Layout.text, ih later, Group.inside_text here, List.flatMap_cons, lines,
        List.cons_append, List.cons_append, List.cons_append, List.cons_append, List.flatMap_cons,
        List.flatMap_cons, led_indent, led_indent, bytes_quote here.name.clean]
      simp only [List.append_assoc, List.flatMap_append, ← lines]
      rfl

/-! ## Administrators -/

def Admin.inside (admin : Admin) : Layout :=
  .value (gap 8) (.quoted "identity".toList) space (.quoted (Source2Root.decimal admin.account))
    (.value (gap 8) (.quoted "group".toList) space (.quoted (bytes admin.group))
      (.value (gap 8) (.quoted "immunity".toList) space
        (.quoted (Source2Root.decimal admin.immunity)) (.done (gap 4))))

def adminLayout : List Admin → Layout
  | [] => .done (gap 0)
  | admin :: rest =>
      .object (gap 4) (.quoted (bytes admin.label)) (gap 4) admin.inside (adminLayout rest)

/-- An administrator that the migration may write. -/
structure Admin.Fine (admin : Admin) : Prop where
  label : Fit 128 admin.label
  group : Fit 64 admin.group
  account : individualBase < admin.account ∧ admin.account ≤ individualBase + 0xffffffff
  immunity : admin.immunity ≤ 2147483647

theorem Admin.inside_text {admin : Admin} (fine : admin.Fine) (after : Text) :
    admin.inside.text ('\x7d' :: after) = (admin.lines.drop 2).flatMap led ++ after := by
  have number (n : Nat) : bytes (quote (Python.decimal n)) =
      (Word.quoted (Source2Root.decimal n)).text := by
    rw [bytes_quote (decimal_clean n), bytes_decimal]
  simp only [Admin.inside, Layout.text, Admin.lines, List.drop_succ_cons, List.drop_zero,
    List.flatMap_cons, List.flatMap_nil, List.append_nil, led_indent, bytes_append, number,
    bytes_quote fine.group.clean, List.append_assoc]
  rfl

theorem adminLayout_text {admins : List Admin} (fine : ∀ admin ∈ admins, admin.Fine)
    (after : Text) :
    (adminLayout admins).text ('\x7d' :: after) =
      (admins.flatMap Admin.lines ++ [str "\x7d"]).flatMap led ++ after := by
  induction admins with
  | nil => rfl
  | cons admin rest ih =>
      obtain ⟨here, later⟩ := List.forall_mem_cons.mp fine
      have lines : admin.lines = indent 4 (quote admin.label) :: indent 4 (str "\x7b") ::
          admin.lines.drop 2 := rfl
      rw [adminLayout, Layout.text, ih later, Admin.inside_text here, List.flatMap_cons, lines,
        List.cons_append, List.cons_append, List.cons_append, List.cons_append, List.flatMap_cons,
        List.flatMap_cons, led_indent, led_indent, bytes_quote here.label.clean]
      simp only [List.append_assoc, List.flatMap_append, ← lines]
      rfl

/-! ## Files -/

/-- One object that the lines of a file are in. -/
def filePrinting (name : Text) (inside : Layout) : Printing where
  layout := .object [] (.quoted name) (gap 0) inside (.done [.blank '\n'])

theorem file_text {first : Str} {name : Text} {lines : List Str} {inside : Layout}
    (named : bytes first = (Word.quoted name).text)
    (written : ∀ after, inside.text ('\x7d' :: after) =
      (lines ++ [str "\x7d"]).flatMap led ++ after) :
    bytes (joinLines (first :: str "\x7b" :: (lines ++ [str "\x7d", []]))) =
      (filePrinting name inside).text := by
  have ended : lines ++ [str "\x7d", []] = (lines ++ [str "\x7d"]) ++ [[]] := by
    rw [List.append_assoc]
    rfl
  have body : (filePrinting name inside).text = (Word.quoted name).text ++ ((gap 0).text ++
      '\x7b' :: inside.text ('\x7d' :: ['\n'])) := rfl
  rw [joinLines_cons, named, body, written, ended, List.flatMap_cons, List.flatMap_append]
  rfl

theorem groupText_bytes {m : Outcome} (fine : ∀ group ∈ m.groups, group.Fine) :
    bytes m.groupText = (filePrinting "Groups".toList (groupLayout m.groups)).text :=
  file_text rfl (groupLayout_text fine)

theorem adminText_bytes {m : Outcome} (fine : ∀ admin ∈ m.admins, admin.Fine) :
    bytes m.adminText = (filePrinting "Admins".toList (adminLayout m.admins)).text :=
  file_text rfl (adminLayout_text fine)

/-! ## Limits -/

/-- Sixteen bytes for each entry, and some more, before the text that follows. -/
def Spread (more : Nat) (layout : Layout) : Prop :=
  ∀ after, 16 * layout.entries.count + more + after.length ≤ (layout.text after).length

theorem spread_done {gap : Gap} {more : Nat} (wide : more ≤ gap.text.length) :
    Spread more (.done gap) := by
  intro after
  simp only [Layout.entries, Entries.count, Layout.text, List.length_append]
  omega

theorem spread_value {before between : Gap} {name word : Word} {rest : Layout} {more last : Nat}
    (spread : Spread last rest)
    (wide : 16 + more ≤ before.text.length + name.text.length + between.text.length +
      word.text.length + last) : Spread more (.value before name between word rest) := by
  intro after
  have later := spread after
  simp only [Layout.entries, Entries.count, Layout.text, List.length_append]
  omega

theorem spread_object {before between : Gap} {name : Word} {children rest : Layout}
    {more inner last : Nat} (inside : Spread inner children) (spread : Spread last rest)
    (wide : 14 + more ≤ before.text.length + name.text.length + between.text.length + inner +
      last) :
    Spread more (.object before name between children rest) := by
  intro after
  have within := inside ('\x7d' :: rest.text after)
  have later := spread after
  simp only [Layout.entries, Entries.count, Layout.text, List.length_append,
    List.length_cons] at within ⊢
  omega

theorem quoted_length {value : Text} {n : Nat} (long : n ≤ value.length) :
    2 + n ≤ (Word.quoted value).text.length := by
  have wide : value.length ≤ (value.flatMap KeyValues.escape).length := by
    clear long
    induction value with
    | nil => exact Nat.le_refl _
    | cons c rest ih =>
        have one : 1 ≤ (KeyValues.escape c).length := by
          unfold KeyValues.escape
          split_ifs <;> simp
        rw [List.flatMap_cons, List.length_append, List.length_cons]
        omega
  simp only [Word.text, List.length_cons, List.length_append, List.length_nil]
  omega

theorem spread_field {indented last : Nat} {name word : Text} {rest : Layout} {n : Nat}
    (spread : Spread last rest) (long : n ≤ name.length) {k : Nat}
    (wide : 10 + k ≤ indented + n + last) :
    Spread k (.value (gap indented) (.quoted name) space (.quoted word) rest) := by
  have first := quoted_length long
  have second := quoted_length (Nat.zero_le word.length)
  have between : space.text.length = 1 := rfl
  refine spread_value spread ?_
  rw [gap_length, between]
  omega

theorem spread_entry {indented inner last : Nat} {name : Text} {children rest : Layout} {n : Nat}
    (inside : Spread inner children) (spread : Spread last rest) (long : n ≤ name.length)
    {k : Nat} (wide : 10 + k ≤ 2 * indented + n + inner + last) :
    Spread k (.object (gap indented) (.quoted name) (gap indented) children rest) := by
  have first := quoted_length long
  refine spread_object inside spread ?_
  rw [gap_length]
  omega

theorem permissionLayout_spread (permissions : List Str) :
    Spread 9 (permissionLayout permissions) := by
  induction permissions with
  | nil => exact spread_done (gap_length 8).ge
  | cons permission rest ih => exact spread_field ih (Nat.zero_le _) (by decide)

theorem Group.inside_spread (group : Group) : Spread 11 group.inside := by
  have list : Spread 5 group.listLayout := by
    unfold Group.listLayout
    split
    · exact spread_entry (n := 0) (permissionLayout_spread _) (spread_done (gap_length 4).ge)
        (Nat.zero_le _) (by decide)
    · exact spread_done (gap_length 4).ge
  exact spread_field (n := 8) list (by decide) (by decide)

theorem groupLayout_spread (groups : List Group) : Spread 1 (groupLayout groups) := by
  induction groups with
  | nil => exact spread_done (gap_length 0).ge
  | cons group rest ih => exact spread_entry group.inside_spread ih (Nat.zero_le _) (by decide)

theorem adminLayout_spread (admins : List Admin) : Spread 1 (adminLayout admins) := by
  induction admins with
  | nil => exact spread_done (gap_length 0).ge
  | cons admin rest ih =>
      have inside : Spread 8 admin.inside :=
        spread_field (n := 8) (spread_field (n := 5) (spread_field (n := 8)
          (spread_done (gap_length 4).ge) (by decide) (k := 8) (by decide)) (by decide)
            (k := 8) (by decide)) (by decide) (by decide)
      exact spread_entry inside ih (Nat.zero_le _) (by decide)

/-- A file that is not too long has not too many entries. -/
theorem file_few {name : Text} {inside : Layout} (spread : Spread 1 inside)
    (long : 6 ≤ name.length)
    (small : (filePrinting name inside).text.length ≤ KeyValues.maxFile) :
    (filePrinting name inside).entries.count ≤ KeyValues.maxEntries := by
  have body : (filePrinting name inside).text = (Word.quoted name).text ++ ((gap 0).text ++
      '\x7b' :: inside.text ('\x7d' :: ['\n'])) := rfl
  have count : (filePrinting name inside).entries.count = 1 + inside.entries.count + 0 := rfl
  have first := quoted_length long
  have bound := spread ('\x7d' :: ['\n'])
  simp only [body, List.length_append, List.length_cons, List.length_nil, gap_length,
    KeyValues.maxFile] at small bound
  simp only [count, KeyValues.maxEntries]
  omega

/-! ## The entries of the files -/

theorem number_word {n : Nat} (small : n < 10 ^ 20) (next : Text) :
    (Word.quoted (Source2Root.decimal n)).Fine next := by
  have short := decimal_length small (by decide)
  refine ⟨short.trans (by decide), fun c inside => ?_⟩
  have digit := Source2Root.decimal_digits n c inside
  simp only [isDigit, Bool.and_eq_true, decide_eq_true_eq] at digit
  have clean : KeyValues.forbidden c = false := by
    simp only [KeyValues.forbidden, Bool.or_eq_false_iff, decide_eq_false_iff_not,
      beq_eq_false_iff_ne]
    omega
  rw [KeyValues.expressible, clean]
  rfl

/-- The words that the migration writes of itself. -/
def literals : List Text :=
  ["immunity".toList, "permissions".toList, "identity".toList, "group".toList, ['1']]

theorem literal_word {value : Text} (known : value ∈ literals) (next : Text) :
    (Word.quoted value).Fine next := by
  have each : ∀ value ∈ literals, value.length ≤ 16 ∧
      ∀ c ∈ value, KeyValues.expressible c = true := by
    simp [literals, KeyValues.expressible, KeyValues.forbidden]
  exact ⟨(each value known).1.trans (by decide), (each value known).2⟩

theorem permissionLayout_fine {permissions : List Str}
    (fine : ∀ permission ∈ permissions, Fit 96 permission) (depth : Nat) (after : Text) :
    (permissionLayout permissions).Fine depth after := by
  induction permissions with
  | nil => exact gap_fine 8
  | cons permission rest ih =>
      obtain ⟨here, later⟩ := List.forall_mem_cons.mp fine
      exact ⟨gap_fine 12, here.bytes_filled, here.word (by decide) _, space_fine,
        literal_word (by decide) _, ih later⟩

theorem Group.inside_fine {group : Group} (fine : group.Fine) {depth : Nat} (low : depth ≤ 14)
    (after : Text) : group.inside.Fine depth after := by
  refine ⟨gap_fine 8, by decide, literal_word (by decide) _, space_fine,
    number_word (Nat.lt_of_le_of_lt fine.immunity (by decide)) _, ?_⟩
  unfold Group.listLayout
  split
  · exact ⟨gap_fine 8, by decide, literal_word (by decide) _, gap_fine 8,
      Nat.lt_of_le_of_lt low (by decide), permissionLayout_fine fine.permissions _ _, gap_fine 4⟩
  · exact gap_fine 4

theorem groupLayout_fine {groups : List Group} (fine : ∀ group ∈ groups, group.Fine)
    (after : Text) : (groupLayout groups).Fine 1 after := by
  induction groups with
  | nil => exact gap_fine 0
  | cons group rest ih =>
      obtain ⟨here, later⟩ := List.forall_mem_cons.mp fine
      exact ⟨gap_fine 4, here.name.bytes_filled, here.name.word (by decide) _, gap_fine 4,
        by decide, Group.inside_fine here (by decide) _, ih later⟩

theorem Admin.inside_fine {admin : Admin} (fine : admin.Fine) (depth : Nat) (after : Text) :
    admin.inside.Fine depth after := by
  have account : admin.account < 10 ^ 20 := Nat.lt_of_le_of_lt fine.account.2 (by decide)
  have immunity : admin.immunity < 10 ^ 20 := Nat.lt_of_le_of_lt fine.immunity (by decide)
  exact ⟨gap_fine 8, by decide, literal_word (by decide) _, space_fine, number_word account _,
    gap_fine 8, by decide, literal_word (by decide) _, space_fine, fine.group.word (by decide) _,
    gap_fine 8, by decide, literal_word (by decide) _, space_fine, number_word immunity _,
    gap_fine 4⟩

theorem adminLayout_fine {admins : List Admin} (fine : ∀ admin ∈ admins, admin.Fine)
    (after : Text) : (adminLayout admins).Fine 1 after := by
  induction admins with
  | nil => exact gap_fine 0
  | cons admin rest ih =>
      obtain ⟨here, later⟩ := List.forall_mem_cons.mp fine
      exact ⟨gap_fine 4, here.label.bytes_filled, here.label.word (by decide) _, gap_fine 4,
        by decide, Admin.inside_fine here _ _, ih later⟩

/-- What the core reads of a file: the entries in its one object. -/
theorem file_holds {name : String} {inside : Layout} {raw : Text} (spread : Spread 1 inside)
    (long : 6 ≤ name.toList.length) (word : (Word.quoted name.toList).Fine [])
    (fine : ∀ after, inside.Fine 1 after) (unmarked : name.toList.head? ≠ none)
    (written : raw = (filePrinting name.toList inside).text)
    (small : raw.length ≤ KeyValues.maxFile) :
    Admins.Holds name (.ok raw) inside.entries.items := by
  subst written
  have blank : Gap.Fine [Filler.blank '\n'] := by
    intro filler member
    rw [List.mem_singleton.mp member]
    rfl
  have filled : name.toList ≠ [] := fun empty => unmarked (by rw [empty]; rfl)
  refine ⟨filePrinting name.toList inside, name.toList, inside.entries, ?_, rfl, small, rfl, rfl,
    rfl⟩
  exact ⟨⟨nofun, filled, word, gap_fine 0, by decide, fine _, blank⟩, Or.inl rfl, fun _ => rfl,
    file_few spread long small⟩

end Source2Root.Migration
