import Source2Root.Python.JsonRoundTrip
import Source2Root.Snapshots

/-!
# What the store saves, it accepts

An index that meets the conditions of `state` is read back as it was saved, and
the directory of a fresh manifest, once it is whole, passes `verify`.
-/

set_option autoImplicit false

namespace Source2Root.Snapshots

open Source2Root.Python (Str Dict Value str Printable quoted newline dumps dumpsItems dumpsMember
  dumpsMembers)

theorem require_ok {condition : Prop} [Decidable condition] {message : String} {u : Unit} :
    require condition message = .ok u ↔ condition := by
  unfold require
  split <;> simp_all

theorem require_true {condition : Prop} [Decidable condition] (holds : condition)
    (message : String) : require condition message = .ok () :=
  if_pos holds

theorem ok_bind {α β : Type} (a : α) (f : α → Except String β) :
    ((.ok a : Except String α) >>= f) = f a := rfl

/-! ## How long an index is -/

@[simp] theorem newline_length (level : Nat) : (newline level).length = 2 * level + 1 := by
  simp [newline]

theorem quoted_length {text : Str} (printable : Printable text) :
    (quoted text).length ≤ 2 * text.length + 2 := by
  have body : ∀ {text : Str}, Printable text →
      (text.flatMap Python.escape).length ≤ 2 * text.length := by
    intro text
    induction text with
    | nil => exact fun _ => le_rfl
    | cons c rest ih =>
        intro printable
        obtain ⟨here, later⟩ := List.forall_mem_cons.mp printable
        have one : (Python.escape c).length ≤ 2 := by
          by_cases special : c = 34 ∨ c = 92
          · rw [Python.escape, if_pos special]
            rfl
          · simp only [Python.escape, if_neg special, if_pos here]
            repeat rw [if_neg (by omega)]
            simp
        have more := ih later
        rw [List.flatMap_cons, List.length_append, List.length_cons]
        omega
  have short := body printable
  rw [quoted, List.length_cons, List.length_append, List.length_singleton]
  omega

theorem array_length {level bound : Nat} : ∀ {items : List Value},
    (∀ v ∈ items, (dumps (level + 1) v).length ≤ bound) →
    (dumps level (.array items)).length ≤ items.length * (2 * level + 4 + bound) + 2 * level + 2 := by
  have rest : ∀ {items : List Value}, (∀ v ∈ items, (dumps (level + 1) v).length ≤ bound) →
      (dumpsItems level items).length ≤ items.length * (2 * level + 4 + bound) + 2 * level + 2 := by
    intro items
    induction items with
    | nil =>
        intro _
        simp [dumpsItems]
    | cons v more ih =>
        intro short
        obtain ⟨here, later⟩ := List.forall_mem_cons.mp short
        have tail := ih later
        simp only [dumpsItems, List.length_cons, List.length_append, newline_length, Nat.add_mul]
          at tail ⊢
        omega
  intro items short
  cases items with
  | nil => simp [dumps, str]
  | cons v more =>
      obtain ⟨here, later⟩ := List.forall_mem_cons.mp short
      have tail := rest later
      simp only [dumps, List.length_cons, List.length_append, newline_length, Nat.add_mul] at tail ⊢
      omega

theorem object_length {level bound : Nat} : ∀ {members : Dict Value},
    (∀ m ∈ members, (dumpsMember (level + 1) m).length ≤ bound) →
    (dumps level (.object members)).length
      ≤ members.length * (2 * level + 4 + bound) + 2 * level + 2 := by
  have rest : ∀ {members : Dict Value},
      (∀ m ∈ members, (dumpsMember (level + 1) m).length ≤ bound) →
      (dumpsMembers level members).length
        ≤ members.length * (2 * level + 4 + bound) + 2 * level + 2 := by
    intro members
    induction members with
    | nil =>
        intro _
        simp [dumpsMembers]
    | cons m more ih =>
        intro short
        obtain ⟨here, later⟩ := List.forall_mem_cons.mp short
        have tail := ih later
        simp only [dumpsMembers, List.length_cons, List.length_append, newline_length, Nat.add_mul]
          at tail ⊢
        omega
  intro members short
  cases members with
  | nil => simp [dumps, str]
  | cons m more =>
      obtain ⟨here, later⟩ := List.forall_mem_cons.mp short
      have tail := rest later
      simp only [dumps, List.length_cons, List.length_append, newline_length, Nat.add_mul] at tail ⊢
      omega

/-! ## Documents -/

theorem digest_printable {text : Str} (hash : isDigest text = true) :
    Printable text ∧ text.length = 64 := by
  simp only [isDigest, Bool.and_eq_true, decide_eq_true_eq, List.all_eq_true, Bool.or_eq_true]
    at hash
  refine ⟨fun c inside => ?_, hash.1⟩
  have class_ := hash.2 c inside
  omega

theorem version_printable {text : Str} (version : isVersion text = true) :
    Printable text ∧ text.length ≤ 64 := by
  simp only [isVersion, letterOrDigit, lowerOrDigit, Bool.and_eq_true, decide_eq_true_eq,
    List.all_eq_true, Bool.or_eq_true] at version
  refine ⟨fun c inside => ?_, version.1.1⟩
  have class_ := version.2 c inside
  omega

theorem filename_printable {name : Str} (accepted : filename name = .ok ()) :
    Printable name ∧ name.length ≤ 68 := by
  obtain ⟨_, shape, -⟩ := bind_eq_ok.mp accepted
  obtain ⟨short, -, class_, ext⟩ := require_ok.mp shape
  have whole : name = stem name ++ name.drop (stem name).length :=
    (List.prefix_iff_eq_append.mp (List.takeWhile_prefix _)).symm
  have ending : Printable (name.drop (stem name).length) ∧
      (name.drop (stem name).length).length ≤ 5 := by
    rcases ext with json | tsv
    · rw [json]
      exact ⟨by decide, by decide⟩
    · rw [tsv]
      exact ⟨by decide, by decide⟩
  constructor
  · rw [whole]
    refine List.forall_mem_append.mpr ⟨fun c inside => ?_, ending.1⟩
    have here := List.all_eq_true.mp class_ c inside
    simp only [lowerOrDigit, Bool.and_eq_true, decide_eq_true_eq, Bool.or_eq_true] at here
    omega
  · have bound := ending.2
    rw [whole, List.length_append]
    omega

section
variable {lib : Library} {config : Config}

/-- A document that `state` accepts. -/
structure Document.Fine (config : Config) (doc : Document) : Prop where
  few : doc.releases.length ≤ releaseLimit
  ordered : Dict.Ordered doc.releases
  keyed : ∀ r ∈ doc.releases, ∃ n, 1 ≤ n ∧ n ≤ 2 ^ 63 - 1 ∧ r.1 = Python.decimal n
  hashed : ∀ r ∈ doc.releases, isDigest r.2.sha256 = true ∧ isVersion r.2.version = true
  highest : doc.highest = highestOf doc.releases
  selected : ∀ n ∈ doc.selected, config.minimumSequence ≤ n ∧
    (Dict.find (Python.decimal n) doc.releases).isSome
  previous : ∀ n ∈ doc.previous, config.minimumSequence ≤ n ∧
    (Dict.find (Python.decimal n) doc.releases).isSome

theorem Document.empty_fine : Document.empty.Fine config where
  few := by decide
  ordered := List.Pairwise.nil
  keyed := fun r nothing => nomatch nothing
  hashed := fun r nothing => nomatch nothing
  highest := rfl
  selected := fun n nothing => nomatch nothing
  previous := fun n nothing => nomatch nothing

theorem decimal_printable (n : Nat) : Printable (Python.decimal n) := by
  intro c inside
  have digit := Python.decimal_digits n c inside
  simp only [Python.isDigit, Bool.and_eq_true, decide_eq_true_eq] at digit
  omega

theorem decimal_inj {m n : Nat} (same : Python.decimal m = Python.decimal n) : m = n := by
  rw [← Python.intOf_decimal m, same, Python.intOf_decimal]

theorem le_highest {releases : Dict Record} {r : Str × Record} (inside : r ∈ releases) :
    Python.intOf r.1 ≤ highestOf releases := by
  induction releases with
  | nil => cases inside
  | cons first rest ih =>
      rw [highestOf, List.foldr_cons]
      rcases List.mem_cons.mp inside with rfl | later
      · exact le_max_left _ _
      · exact (ih later).trans (le_max_right _ _)

theorem highest_mem {releases : Dict Record} : releases ≠ [] →
    ∃ r ∈ releases, Python.intOf r.1 = highestOf releases := by
  induction releases with
  | nil => exact fun empty => absurd rfl empty
  | cons first rest ih =>
      intro _
      rw [highestOf, List.foldr_cons]
      change ∃ r ∈ first :: rest, Python.intOf r.1 = max (Python.intOf first.1) (highestOf rest)
      rcases le_total (highestOf rest) (Python.intOf first.1) with less | more
      · exact ⟨first, List.mem_cons_self .., (max_eq_left less).symm⟩
      · by_cases empty : rest = []
        · subst empty
          exact ⟨first, List.mem_cons_self .., by simp [highestOf]⟩
        · obtain ⟨r, inside, top⟩ := ih empty
          exact ⟨r, List.mem_cons_of_mem _ inside, by rw [top, max_eq_right more]⟩

theorem Document.Fine.bounded {doc : Document} (fine : doc.Fine config) :
    doc.highest ≤ 2 ^ 63 - 1 := by
  rw [fine.highest]
  by_cases empty : doc.releases = []
  · rw [empty]
    decide
  · obtain ⟨r, inside, top⟩ := highest_mem empty
    obtain ⟨n, -, small, key⟩ := fine.keyed r inside
    rwa [← top, key, Python.intOf_decimal]

theorem Document.Fine.selection_le {doc : Document} (fine : doc.Fine config) {n : Nat}
    (found : (Dict.find (Python.decimal n) doc.releases).isSome) : n ≤ 2 ^ 63 - 1 := by
  obtain ⟨record, found⟩ := Option.isSome_iff_exists.mp found
  obtain ⟨m, -, small, key⟩ := fine.keyed _ (Dict.mem_of_find found)
  rwa [decimal_inj key]

theorem plain_items {items : List Value} : (∀ v ∈ items, v.Plain) → Value.PlainItems items := by
  induction items with
  | nil => exact fun _ => trivial
  | cons v rest ih =>
      intro plain
      obtain ⟨here, later⟩ := List.forall_mem_cons.mp plain
      exact ⟨here, ih later⟩

theorem plain_members {members : Dict Value} : (∀ m ∈ members, Value.PlainMember m) →
    Value.PlainMembers members := by
  induction members with
  | nil => exact fun _ => trivial
  | cons m rest ih =>
      intro plain
      obtain ⟨here, later⟩ := List.forall_mem_cons.mp plain
      exact ⟨here, ih later⟩

theorem Config.product_printable (config : Config) :
    Printable config.product ∧ config.product.length ≤ 11 := by
  have known := config.known.1
  simp only [List.mem_cons, List.not_mem_nil, or_false] at known
  rcases known with name | name <;>
    · rw [name]
      exact ⟨by decide, by decide⟩

theorem Config.game_printable (config : Config) :
    Printable config.game ∧ config.game.length ≤ 3 := by
  rw [config.known.2.1]
  exact ⟨by decide, by decide⟩

theorem Config.platform_printable (config : Config) :
    Printable config.platform ∧ config.platform.length ≤ 14 := by
  have known := config.known.2.2
  simp only [List.mem_cons, List.not_mem_nil, or_false] at known
  rcases known with name | name <;>
    · rw [name]
      exact ⟨by decide, by decide⟩

theorem trust_printable (lib : Library) (config : Config) :
    Printable ((config.ca.map lib.sha256).getD (str "system")) ∧
      ((config.ca.map lib.sha256).getD (str "system")).length ≤ 64 := by
  cases config.ca with
  | none => exact ⟨(by decide : Printable (str "system")), (by decide : (str "system").length ≤ 64)⟩
  | some raw =>
      obtain ⟨printable, length⟩ := digest_printable (lib.hexdigest raw)
      exact ⟨printable, length.le⟩

theorem url_printable (config : Config) : Printable config.url := by
  intro c inside
  have bounds := config.printable.2 c inside
  omega

theorem identity_plain (lib : Library) (config : Config) : (identity lib config).Plain := by
  refine ⟨Dict.ordered_keys [str "ca_sha256", str "files", str "game", str "platform",
    str "product", str "url"] rfl (by decide), plain_members ?_⟩
  intro m inside
  simp only [List.mem_cons, List.not_mem_nil, or_false] at inside
  rcases inside with rfl | rfl | rfl | rfl | rfl | rfl
  · exact ⟨by decide, (trust_printable lib config).1⟩
  · refine ⟨by decide, plain_items ?_⟩
    intro v listed
    obtain ⟨name, sorted, rfl⟩ := List.mem_map.mp listed
    have known := config.filenames.2.2 name (List.mem_mergeSort.mp sorted)
    exact (filename_printable known).1
  · exact ⟨by decide, config.game_printable.1⟩
  · exact ⟨by decide, config.platform_printable.1⟩
  · exact ⟨by decide, config.product_printable.1⟩
  · exact ⟨by decide, url_printable config⟩

theorem selection_plain {selection : Option Nat} (small : ∀ n ∈ selection, n ≤ 2 ^ 63 - 1) :
    (Document.selection selection).Plain := by
  cases selection with
  | none => trivial
  | some n =>
      have bound := small n rfl
      exact ⟨Int.natCast_nonneg n, by omega⟩

theorem ordered_map {α β : Type} (f : α → β) {items : Dict α} (ordered : Dict.Ordered items) :
    Dict.Ordered (items.map fun item => (item.1, f item.2)) :=
  List.pairwise_map.mpr ordered

theorem Document.Fine.plain {doc : Document} (fine : doc.Fine config) :
    (doc.value lib config).Plain := by
  have small := fine.bounded
  refine ⟨Dict.ordered_keys [str "highest", str "previous", str "releases", str "schema",
    str "selected", str "source"] rfl (by decide), plain_members ?_⟩
  intro m inside
  simp only [List.mem_cons, List.not_mem_nil, or_false] at inside
  rcases inside with rfl | rfl | rfl | rfl | rfl | rfl
  · exact ⟨by decide, Int.natCast_nonneg _, by omega⟩
  · refine ⟨by decide, selection_plain fun n selected => ?_⟩
    exact fine.selection_le (fine.previous n selected).2
  · refine ⟨by decide, ordered_map _ fine.ordered, plain_members ?_⟩
    intro m listed
    obtain ⟨r, stored, rfl⟩ := List.mem_map.mp listed
    obtain ⟨n, -, -, key⟩ := fine.keyed r stored
    obtain ⟨hash, version⟩ := fine.hashed r stored
    refine ⟨?_, Dict.ordered_keys [str "sha256", str "version"] rfl (by decide), ⟨by decide, ?_⟩,
      ⟨by decide, ?_⟩, trivial⟩
    · rw [key]
      exact decimal_printable n
    · exact (digest_printable hash).1
    · exact (version_printable version).1
  · exact ⟨by decide, by decide, by decide⟩
  · refine ⟨by decide, selection_plain fun n selected => ?_⟩
    exact fine.selection_le (fine.selected n selected).2
  · exact ⟨by decide, identity_plain lib config⟩

theorem dumpsMember_length {level width bound : Nat} {name : Str} {v : Value}
    (printable : Printable name) (short : name.length ≤ width)
    (value : (dumps level v).length ≤ bound) :
    (dumpsMember level (name, v)).length ≤ 2 * width + 4 + bound := by
  have quoted := quoted_length printable
  rw [dumpsMember, List.length_append, List.length_cons, List.length_cons]
  omega

theorem string_length {level bound : Nat} {text : Str}
    (printable : Printable text ∧ text.length ≤ bound) :
    (dumps level (.string text)).length ≤ 2 * bound + 2 := by
  have short := quoted_length printable.1
  have bounded := printable.2
  rw [dumps]
  omega

theorem integer_length {level n : Nat} (small : n ≤ 2 ^ 63 - 1) :
    (dumps level (.integer n)).length ≤ 19 := by
  rw [dumps, Python.decimalInt, if_neg (by omega), Int.natAbs_natCast]
  exact Python.decimal_length (by omega) (by decide)

theorem selection_length {level : Nat} {selection : Option Nat}
    (small : ∀ n ∈ selection, n ≤ 2 ^ 63 - 1) :
    (dumps level (Document.selection selection)).length ≤ 19 := by
  cases selection with
  | none => exact (by decide : (str "null").length ≤ 19)
  | some n => exact integer_length (small n rfl)

theorem identity_length (lib : Library) (config : Config) :
    (dumps 1 (identity lib config)).length ≤ 9999 := by
  have names : (dumps 2 (.array ((config.files.mergeSort fun a b => decide (a ≤ b)).map
      .string))).length ≤ 32 * 146 + 6 := by
    have each := @array_length 2 138 ((config.files.mergeSort fun a b => decide (a ≤ b)).map .string)
      (by
        intro v listed
        obtain ⟨name, sorted, rfl⟩ := List.mem_map.mp listed
        exact string_length (filename_printable
          (config.filenames.2.2 name (List.mem_mergeSort.mp sorted))))
    have few := config.filenames.1.2
    rw [List.length_map, List.length_mergeSort] at each
    omega
  have trust := @string_length 2 64 _ (trust_printable lib config)
  have game := @string_length 2 3 _ config.game_printable
  have platform := @string_length 2 14 _ config.platform_printable
  have product := @string_length 2 11 _ config.product_printable
  have url := @string_length 2 2048 _ ⟨url_printable config, config.printable.1⟩
  have m1 := @dumpsMember_length 2 9 _ (str "ca_sha256") _ (by decide) (by decide) trust
  have m2 := @dumpsMember_length 2 5 _ (str "files") _ (by decide) (by decide) names
  have m3 := @dumpsMember_length 2 4 _ (str "game") _ (by decide) (by decide) game
  have m4 := @dumpsMember_length 2 8 _ (str "platform") _ (by decide) (by decide) platform
  have m5 := @dumpsMember_length 2 7 _ (str "product") _ (by decide) (by decide) product
  have m6 := @dumpsMember_length 2 3 _ (str "url") _ (by decide) (by decide) url
  simp only [identity, dumps, dumpsMembers, List.length_cons, List.length_append, newline_length,
    List.length_nil, Nat.reduceAdd]
  omega

theorem Document.Fine.releases_length {doc : Document} (fine : doc.Fine config) :
    (dumps 1 (.object (doc.releases.map fun r => (r.1, Document.record r.2)))).length ≤ 5999 := by
  have each := @object_length 1 360 (doc.releases.map fun r => (r.1, Document.record r.2))
    (by
      intro m listed
      obtain ⟨r, stored, rfl⟩ := List.mem_map.mp listed
      obtain ⟨n, -, small, key⟩ := fine.keyed r stored
      obtain ⟨hash, version⟩ := fine.hashed r stored
      have fields := @object_length 2 148 [(str "sha256", .string r.2.sha256),
          (str "version", .string r.2.version)]
        (by
          intro m inside
          simp only [List.mem_cons, List.not_mem_nil, or_false] at inside
          rcases inside with rfl | rfl
          · have text := @string_length 3 64 _
              ⟨(digest_printable hash).1, (digest_printable hash).2.le⟩
            exact (@dumpsMember_length 3 6 _ (str "sha256") _ (by decide) (by decide) text).trans (by decide)
          · have text := @string_length 3 64 _ (version_printable version)
            exact (@dumpsMember_length 3 7 _ (str "version") _ (by decide) (by decide) text).trans (by decide))
      have digits : (Python.decimal n).length ≤ 19 :=
        Python.decimal_length (by omega) (by decide)
      exact (@dumpsMember_length 2 19 _ r.1 (Document.record r.2)
        (by rw [key]; exact decimal_printable n) (by rw [key]; exact digits) fields).trans
          (by simp))
  have few := fine.few
  rw [releaseLimit] at few
  rw [List.length_map] at each
  omega

theorem Document.Fine.encoded_length {doc : Document} (fine : doc.Fine config) :
    (doc.encoded lib config).length ≤ indexLimit := by
  have top := @integer_length 1 _ fine.bounded
  have previous := @selection_length 1 doc.previous
    fun n selected => fine.selection_le (fine.previous n selected).2
  have selected := @selection_length 1 doc.selected
    fun n selected => fine.selection_le (fine.selected n selected).2
  have m1 := @dumpsMember_length 1 7 _ (str "highest") _ (by decide) (by decide) top
  have m2 := @dumpsMember_length 1 8 _ (str "previous") _ (by decide) (by decide) previous
  have m3 := @dumpsMember_length 1 8 _ (str "releases") _ (by decide) (by decide)
    fine.releases_length
  have m4 := @dumpsMember_length 1 6 _ (str "schema") _ (by decide) (by decide)
    (@integer_length 1 1 (by decide))
  have m5 := @dumpsMember_length 1 8 _ (str "selected") _ (by decide) (by decide) selected
  have m6 := @dumpsMember_length 1 6 _ (str "source") _ (by decide) (by decide)
    (identity_length lib config)
  simp only [Document.encoded, Document.value, dumps, dumpsMembers, List.length_cons,
    List.length_append, newline_length, List.length_nil, List.length_map, indexLimit, zero_add]
  simp only [Nat.cast_one] at m4
  omega

/-! ## Reading an index back -/

theorem depthItems_strings (texts : List Str) :
    Value.depthItems (texts.map .string) ≤ 1 := by
  induction texts with
  | nil => exact Nat.zero_le _
  | cons text rest ih =>
      rw [List.map_cons, Value.depthItems, Value.depth]
      omega

theorem depthMembers_records (releases : Dict Record) :
    Value.depthMembers (releases.map fun r => (r.1, Document.record r.2)) ≤ 2 := by
  induction releases with
  | nil => exact Nat.zero_le _
  | cons r rest ih =>
      rw [List.map_cons, Value.depthMembers]
      have one : Value.depthMember (r.1, Document.record r.2) = 1 := by
        simp [Value.depthMember, Document.record, Value.depth, Value.depthMembers]
      omega

theorem Document.value_depth (doc : Document) : (doc.value lib config).depth ≤ 32 := by
  have names := depthItems_strings (config.files.mergeSort fun a b => decide (a ≤ b))
  have records := depthMembers_records doc.releases
  have choice : ∀ selection : Option Nat, (Document.selection selection).depth = 0 := by
    intro selection
    cases selection <;> rfl
  simp only [Document.value, identity, Value.depth, Value.depthMembers, Value.depthMember, choice]
  omega

mutual

theorem finite_plain : ∀ v : Value, v.Plain → v.finite = true
  | .null, _ => by simp [Value.finite]
  | .boolean _, _ => by simp [Value.finite]
  | .integer _, _ => by simp [Value.finite]
  | .number _ _, plain => plain.elim
  | .string _, _ => by simp [Value.finite]
  | .array items, plain => by rw [Value.finite]; exact finiteItems_plain items plain
  | .object members, plain => by rw [Value.finite]; exact finiteMembers_plain members plain.2

theorem finiteItems_plain : ∀ items : List Value, Value.PlainItems items →
    Value.finiteItems items = true
  | [], _ => by simp [Value.finiteItems]
  | v :: rest, plain => by
      simp [Value.finiteItems, finite_plain v plain.1, finiteItems_plain rest plain.2]

theorem finiteMembers_plain : ∀ members : Dict Value, Value.PlainMembers members →
    Value.finiteMembers members = true
  | [], _ => by simp [Value.finiteMembers]
  | m :: rest, plain => by
      simp [Value.finiteMembers, finiteMember_plain m plain.1, finiteMembers_plain rest plain.2]

theorem finiteMember_plain : ∀ m : Str × Value, Value.PlainMember m →
    Value.finiteMember m = true
  | (_, v), plain => by simp [Value.finiteMember, finite_plain v plain.2]

end

theorem decode_encoded {doc : Document} (fine : doc.Fine config) :
    decode (doc.encoded lib config) = .ok (doc.value lib config) := by
  have short : (doc.encoded lib config).length ≤ manifestLimit :=
    fine.encoded_length.trans (by decide)
  have plain : (doc.value lib config).Plain := fine.plain
  have ascii := (Python.dumps_ascii 0 _ plain).append (by decide : Python.Ascii [10])
  have text : Python.decode (doc.encoded lib config) = some (dumps 0 (doc.value lib config) ++ [10]) :=
    Python.decode_ascii ascii
  rw [decode, require_true short, ok_bind, text, Option.bind_some, Python.loads_dumps plain]
  simp only [require_true doc.value_depth, require_true (finite_plain _ plain), ok_bind]
  rfl

theorem recordOf_record {r : Record} (hash : isDigest r.sha256 = true) :
    recordOf (Document.record r) = .ok r := by
  have found : keys (Document.record r) [str "sha256", str "version"]
      = .ok [(str "sha256", .string r.sha256), (str "version", .string r.version)] := rfl
  have checked : digest (.string r.sha256) = .ok r.sha256 := by
    rw [digest, text, ok_bind, require_true hash]
    rfl
  have sha : field [(str "sha256", .string r.sha256), (str "version", .string r.version)] "sha256"
      = .string r.sha256 := rfl
  rw [recordOf, found, ok_bind, sha, checked, ok_bind]
  rfl

theorem isSequence_decimal {n : Nat} (positive : 1 ≤ n) (small : n ≤ 2 ^ 63 - 1) :
    isSequence (Python.decimal n) = true := by
  have short : (Python.decimal n).length ≤ 19 := Python.decimal_length (by omega) (by decide)
  have head := Python.decimal_head (Nat.pos_iff_ne_zero.mp positive)
  simp only [isSequence, Bool.and_eq_true, decide_eq_true_eq, List.all_eq_true]
  refine ⟨⟨short, Python.decimal_digits n⟩, ?_⟩
  cases written : Python.decimal n with
  | nil => exact absurd written (Python.decimal_ne_nil n)
  | cons c rest =>
      rw [written, List.head?_cons] at head
      simp only [List.head?_cons, Option.any_some, decide_eq_true_eq]
      exact fun zero => head (by rw [zero])

theorem recordsOf_records {releases : Dict Record} :
    (∀ r ∈ releases, ∃ n, 1 ≤ n ∧ n ≤ 2 ^ 63 - 1 ∧ r.1 = Python.decimal n) →
    (∀ r ∈ releases, isDigest r.2.sha256 = true ∧ isVersion r.2.version = true) →
    recordsOf (releases.map fun r => (r.1, Document.record r.2)) = .ok releases := by
  induction releases with
  | nil => exact fun _ _ => rfl
  | cons r rest ih =>
      intro keyed hashed
      obtain ⟨⟨n, positive, small, key⟩, laterKeys⟩ := List.forall_mem_cons.mp keyed
      obtain ⟨here, laterHashes⟩ := List.forall_mem_cons.mp hashed
      have sequence : isSequence r.1 = true := by
        rw [key]
        exact isSequence_decimal positive small
      have range : Python.intOf r.1 ≤ 2 ^ 63 - 1 := by
        rwa [key, Python.intOf_decimal]
      rw [List.map_cons, recordsOf, require_true sequence, ok_bind, require_true range, ok_bind,
        recordOf_record here.1, ok_bind, ih laterKeys laterHashes]
      rfl

theorem selectionOf_selection {releases : Dict Record} {selection : Option Nat}
    (found : ∀ n ∈ selection, (Dict.find (Python.decimal n) releases).isSome) :
    selectionOf releases (Document.selection selection) = .ok selection := by
  cases selection with
  | none => rfl
  | some n =>
      have here := found n rfl
      simp [Document.selection, selectionOf, here]

/-- A saved index is accepted, as what was saved. -/
theorem state_encoded {d : Disk} {doc : Document} (fine : doc.Fine config)
    (saved : d.index = some (doc.encoded lib config)) : state lib config d = .ok doc := by
  obtain ⟨fields, found, schema, source, top, selected, previous, releases⟩ :
      ∃ fields, keys (doc.value lib config) [str "schema", str "source", str "highest",
          str "selected", str "previous", str "releases"] = .ok fields ∧
        field fields "schema" = .integer 1 ∧ field fields "source" = identity lib config ∧
        field fields "highest" = .integer doc.highest ∧
        field fields "selected" = Document.selection doc.selected ∧
        field fields "previous" = Document.selection doc.previous ∧
        field fields "releases" = .object (doc.releases.map fun r => (r.1, Document.record r.2)) :=
    ⟨_, rfl, rfl, rfl, rfl, rfl, rfl, rfl⟩
  have owner : (Value.integer 1).same (.integer 1) = true ∧
      (identity lib config).same (identity lib config) = true :=
    ⟨Value.same_refl _, Value.same_refl _⟩
  have range : integer (.integer doc.highest) 0 = .ok doc.highest := by
    have small := fine.bounded
    rw [integer, if_pos (by omega)]
    rfl
  have few : (doc.releases.map fun r => (r.1, Document.record r.2)).length ≤ releaseLimit := by
    rw [List.length_map]
    exact fine.few
  rw [state, saved]
  simp only [require_true fine.encoded_length, decode_encoded fine, found, ok_bind, schema, source,
    require_true owner, top, range, releases, members, require_true few,
    recordsOf_records fine.keyed fine.hashed, require_true fine.highest, selected, previous,
    selectionOf_selection fun n chosen => (fine.selected n chosen).2,
    selectionOf_selection fun n chosen => (fine.previous n chosen).2]
  rfl

/-! ## Fresh manifests -/

theorem integer_ok {v : Value} {least n : Nat} :
    integer v least = .ok n ↔ v = .integer n ∧ least ≤ n ∧ n ≤ 2 ^ 63 - 1 := by
  constructor
  · intro read
    cases v with
    | integer m =>
        rw [integer] at read
        by_cases range : (least : Int) ≤ m ∧ m ≤ 2 ^ 63 - 1
        · rw [if_pos range, Except.ok.injEq] at read
          have positive : (m.toNat : Int) = m := Int.toNat_of_nonneg (by omega)
          rw [← read, positive]
          exact ⟨rfl, by omega, by omega⟩
        · rw [if_neg range] at read
          cases read
    | null | boolean _ | number _ _ | string _ | array _ | object _ => cases read
  · rintro ⟨rfl, low, high⟩
    rw [integer, if_pos (by omega)]
    rfl

theorem entry_ok {names : List Str} {total : Nat} {v : Value} {e : Entry}
    (read : entry lib config names total v = .ok e) :
    e.name ∉ names ∧ e.content.length ≤ fileLimit := by
  obtain ⟨fields, -, read⟩ := bind_eq_ok.mp read
  obtain ⟨name, -, read⟩ := bind_eq_ok.mp read
  obtain ⟨_, -, read⟩ := bind_eq_ok.mp read
  obtain ⟨_, listed, read⟩ := bind_eq_ok.mp read
  obtain ⟨content, -, read⟩ := bind_eq_ok.mp read
  obtain ⟨_, -, read⟩ := bind_eq_ok.mp read
  have new := (require_ok.mp listed).2
  cases encoded : Python.encode content with
  | none =>
      rw [encoded] at read
      cases read
  | some raw =>
      rw [encoded] at read
      obtain ⟨_, sizes, read⟩ := bind_eq_ok.mp read
      obtain ⟨_, -, read⟩ := bind_eq_ok.mp read
      obtain ⟨_, -, read⟩ := bind_eq_ok.mp read
      have short := (require_ok.mp sizes).2.1
      by_cases json : (str ".json").isSuffixOf name = true
      · rw [if_pos json] at read
        obtain ⟨_, -, read⟩ := bind_eq_ok.mp read
        obtain ⟨_, -, read⟩ := bind_eq_ok.mp read
        cases read
        exact ⟨new, short⟩
      · rw [if_neg json] at read
        obtain ⟨_, -, read⟩ := bind_eq_ok.mp read
        cases read
        exact ⟨new, short⟩

/-- The files of a manifest have different names and are small enough to be read back. -/
theorem entries_ok {values : List Value} : ∀ {names : List Str} {total : Nat} {files : List Entry},
    entries lib config names total values = .ok files →
    (∀ e ∈ files, e.name ∉ names ∧ e.content.length ≤ fileLimit) ∧
      (files.map Entry.name).Nodup := by
  induction values with
  | nil =>
      intro names total files read
      cases read
      exact ⟨fun e nothing => (nomatch nothing), List.nodup_nil⟩
  | cons v rest ih =>
      intro names total files read
      obtain ⟨first, one, read⟩ := bind_eq_ok.mp read
      obtain ⟨more, others, read⟩ := bind_eq_ok.mp read
      cases read
      have here := entry_ok one
      obtain ⟨later, different⟩ := ih others
      constructor
      · refine List.forall_mem_cons.mpr ⟨here, fun e inside => ?_⟩
        exact ⟨fun old => (later e inside).1 (List.mem_cons_of_mem _ old), (later e inside).2⟩
      · refine List.nodup_cons.mpr ⟨fun repeated => ?_, different⟩
        obtain ⟨e, inside, same⟩ := List.mem_map.mp repeated
        exact (later e inside).1 (by rw [same]; exact List.mem_cons_self ..)

structure Manifest.Sound (config : Config) (value : Manifest) : Prop where
  range : 1 ≤ value.sequence ∧ value.sequence ≤ 2 ^ 63 - 1
  version : isVersion value.version = true
  sizes : ∀ e ∈ value.files, e.content.length ≤ fileLimit
  different : (value.files.map Entry.name).Nodup
  complete : (∀ name ∈ config.files, name ∈ value.files.map Entry.name) ∧
    ∀ e ∈ value.files, e.name ∈ config.files

/-- A manifest that is accepted as a fresh one is accepted at any later time. -/
theorem manifest_fresh {raw : Text} {now : Int} {value : Manifest}
    (read : manifest lib config raw (some now) = .ok value) :
    manifest lib config raw none = .ok value ∧ raw.length ≤ manifestLimit ∧
      config.minimumSequence ≤ value.sequence ∧ value.Sound config := by
  obtain ⟨json, decoded, read⟩ := bind_eq_ok.mp read
  obtain ⟨_, size, -⟩ := bind_eq_ok.mp decoded
  obtain ⟨fields, known, read⟩ := bind_eq_ok.mp read
  obtain ⟨_, schema, read⟩ := bind_eq_ok.mp read
  obtain ⟨_, product, read⟩ := bind_eq_ok.mp read
  obtain ⟨_, game, read⟩ := bind_eq_ok.mp read
  obtain ⟨_, platform, read⟩ := bind_eq_ok.mp read
  obtain ⟨sequence, numbered, read⟩ := bind_eq_ok.mp read
  obtain ⟨version, named, read⟩ := bind_eq_ok.mp read
  obtain ⟨_, label, read⟩ := bind_eq_ok.mp read
  obtain ⟨issuedAt, first, read⟩ := bind_eq_ok.mp read
  obtain ⟨expiresAt, last, read⟩ := bind_eq_ok.mp read
  rw [Option.isSome_some, if_pos rfl] at numbered
  obtain ⟨number, least, most⟩ := integer_ok.mp numbered
  have minimum := config.minimum.1
  have again : integer (field fields "sequence") 1 = .ok sequence :=
    integer_ok.mpr ⟨number, by omega, most⟩
  cases issued : lib.timestamp issuedAt with
  | none =>
      simp only [issued] at read
      cases read
  | some issue =>
      cases expired : lib.timestamp expiresAt with
      | none =>
          simp only [issued, expired] at read
          cases read
      | some expiry =>
          simp only [issued, expired] at read
          obtain ⟨_, validity, read⟩ := bind_eq_ok.mp read
          obtain ⟨_, -, read⟩ := bind_eq_ok.mp read
          obtain ⟨values, listed, read⟩ := bind_eq_ok.mp read
          obtain ⟨_, few, read⟩ := bind_eq_ok.mp read
          obtain ⟨files, opened, read⟩ := bind_eq_ok.mp read
          obtain ⟨_, whole, read⟩ := bind_eq_ok.mp read
          cases read
          obtain ⟨each, different⟩ := entries_ok opened
          refine ⟨?_, require_ok.mp size, least, {
            range := ⟨minimum.trans least, most⟩
            version := require_ok.mp label
            sizes := fun e inside => (each e inside).2
            different := different
            complete := require_ok.mp whole }⟩
          have untimed : ∀ now ∈ (none : Option Int), issue ≤ now + 5 * 60 ∧ now < expiry :=
            fun _ nothing => nomatch nothing
          simp only [manifest, decoded, known, schema, product, game, platform, Option.isSome_none,
            Bool.false_eq_true, if_false, again, named, label, first, last, issued, expired, validity,
            require_true untimed, listed, few, opened, whole, ok_bind]
          rfl

end

/-! ## Whole directories -/

/-- The files of a snapshot are there, and no others. -/
structure Holding (files : List Entry) (data : Dict Text) : Prop where
  found : ∀ e ∈ files, Dict.find e.name data = some e.content
  only : ∀ f ∈ data, f.1 ∈ files.map Entry.name

/-- Writing the files one after another into a directory that has none of them. -/
theorem after_files {files : List Entry} {manifest : Option Text} : ∀ {d : Disk} {data : Dict Text},
    d.staging = some { manifest, data := some data } → (files.map Entry.name).Nodup →
    ∃ done, CrashSafe.after Effect.apply (files.flatMap fun e =>
        [.create (.file e.name), .write (.file e.name) e.content]) d
          = { d with staging := some { manifest, data := some done } } ∧
      (∀ e ∈ files, Dict.find e.name done = some e.content) ∧
      (∀ name, name ∉ files.map Entry.name → Dict.find name done = Dict.find name data) ∧
      ∀ f ∈ done, f.1 ∈ files.map Entry.name ∨ f ∈ data := by
  induction files with
  | nil =>
      intro d data staged _
      refine ⟨data, ?_, fun e nothing => (nomatch nothing), fun _ _ => rfl, fun f inside => .inr inside⟩
      rw [List.flatMap_nil, CrashSafe.after_nil, ← staged]
  | cons e rest ih =>
      intro d data staged different
      obtain ⟨new, later⟩ := List.nodup_cons.mp different
      have written : Effect.apply (.write (.file e.name) e.content)
          (Effect.apply (.create (.file e.name)) d)
          = { d with staging := some {
              manifest
              data := some (Dict.assign e.name e.content (Dict.assign e.name [] data)) } } := by
        simp [Effect.apply, Directory.put, staged]
      obtain ⟨done, all, found, others, only⟩ :=
        @ih { d with staging := some {
          manifest, data := some (Dict.assign e.name e.content (Dict.assign e.name [] data)) } }
          _ rfl later
      refine ⟨done, ?_, ?_, ?_, ?_⟩
      · rw [List.flatMap_cons, CrashSafe.after_append, CrashSafe.after_cons, CrashSafe.after_cons,
          CrashSafe.after_nil, written, all]
      · refine List.forall_mem_cons.mpr ⟨?_, found⟩
        rw [others e.name new, Dict.find_assign_self]
      · intro name absent
        rw [List.map_cons, List.mem_cons, not_or] at absent
        rw [others name absent.2, Dict.find_assign_other absent.1, Dict.find_assign_other absent.1]
      · intro f inside
        rw [List.map_cons]
        rcases only f inside with listed | there
        · exact .inl (List.mem_cons_of_mem _ listed)
        · rcases Dict.mem_assign there with rfl | there
          · exact .inl (List.mem_cons_self ..)
          · rcases Dict.mem_assign there with rfl | there
            · exact .inl (List.mem_cons_self ..)
            · exact .inr there

theorem after_contents {raw : Text} {value : Manifest} {d : Disk}
    (staged : d.staging = some { manifest := none, data := none })
    (different : (value.files.map Entry.name).Nodup) :
    ∃ data, CrashSafe.after Effect.apply (contents raw value) d
        = { d with staging := some { manifest := some raw, data := some data } } ∧
      Holding value.files data := by
  have begun : CrashSafe.after Effect.apply [.create .data, .create .manifest, .write .manifest raw] d
      = { d with staging := some { manifest := some raw, data := some [] } } := by
    simp [Effect.apply, Directory.put, staged]
  obtain ⟨data, done, found, -, only⟩ := @after_files value.files (some raw)
    { d with staging := some { manifest := some raw, data := some [] } } [] rfl different
  refine ⟨data, ?_, found, fun f inside => ?_⟩
  · rw [contents, CrashSafe.after_append, begun, done]
  · exact (only f inside).resolve_right (fun nothing => nomatch nothing)

section
variable {lib : Library} {config : Config}

theorem readFile_some {limit : Nat} {raw : Text} (short : raw.length ≤ limit) :
    readFile limit (some raw) = .ok raw := by
  rw [readFile, require_true short]
  rfl

theorem verifyEntries_found {data : Dict Text} {files : List Entry} :
    (∀ e ∈ files, Dict.find e.name data = some e.content) →
    (∀ e ∈ files, e.content.length ≤ fileLimit) → verifyEntries data files = .ok () := by
  induction files with
  | nil => exact fun _ _ => rfl
  | cons e rest ih =>
      intro found sizes
      obtain ⟨here, later⟩ := List.forall_mem_cons.mp found
      obtain ⟨short, others⟩ := List.forall_mem_cons.mp sizes
      rw [verifyEntries, here]
      simp only [readFile_some short, ok_bind]
      rw [require_true trivial, ok_bind, ih later others]

/-- The directory that was made for a fresh manifest passes. -/
theorem verify_whole {raw : Text} {now : Int} {value : Manifest} {data : Dict Text}
    (read : manifest lib config raw (some now) = .ok value) (holding : Holding value.files data) :
    verifyDirectory lib config (some { manifest := some raw, data := some data }) value.sequence
      { sha256 := lib.sha256 raw, version := value.version } = .ok value := by
  obtain ⟨again, size, -, sound⟩ := manifest_fresh read
  have same : (∀ name ∈ config.files, (Dict.find name data).isSome) ∧
      ∀ f ∈ data, f.1 ∈ config.files := by
    constructor
    · intro name configured
      obtain ⟨e, listed, rfl⟩ := List.mem_map.mp (sound.complete.1 name configured)
      rw [holding.found e listed]
      rfl
    · intro f inside
      obtain ⟨e, listed, name⟩ := List.mem_map.mp (holding.only f inside)
      rw [← name]
      exact sound.complete.2 e listed
  rw [verifyDirectory]
  simp only [Option.bind_some, readFile_some size, ok_bind]
  rw [require_true trivial, ok_bind, again, ok_bind, require_true ⟨rfl, rfl⟩, ok_bind,
    require_true same, ok_bind, verifyEntries_found holding.found sound.sizes]
  rfl

end

end Source2Root.Snapshots
