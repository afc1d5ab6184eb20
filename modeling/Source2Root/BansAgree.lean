import Mathlib
import Source2Root.BansAtomic

/-!
# Memory, text and file of the ban store agree

A save edits the document of the remembered text.  Read back, the new text gives
the map the save was asked for (`edit_collect`, `encode_spec`), and what the
store does not know in the document stays (`Kept`).  What the JSON library has
to do for that is in `Faithful`.
-/

set_option autoImplicit false

namespace Source2Root.Bans

/-- `dump` and `parse` are inverse on ordered documents, with the newline that
the store appends; brackets outside strings are those of the document; and the
text of an empty store is read. -/
structure Library.Faithful (library : Library) : Prop where
  dumped : ∀ document text, document.Canonical → library.dump document = some text →
    library.parse (text ++ ['\n']) = .ok document
  nesting : ∀ text document, library.parse text = .ok document →
    (nestsTooDeep false false 0 text = true ↔ 16 < document.depth)
  initial : library.parse initialContents = .ok (documentOf [])

/-! ## What a parsed file holds -/

/-- The map holds an entry under its own account, and one that passes the checks. -/
def Holds (account : Nat) (ban : Ban) : Prop :=
  ban.account = account ∧ validSteamIdentity account = true ∧ ban.fine = true

theorem parseSteamIdentity_valid {text : Text} {account : Nat}
    (parsed : parseSteamIdentity text = .ok account) : validSteamIdentity account = true := by
  unfold parseSteamIdentity at parsed
  split at parsed
  · cases parsed
  · split at parsed
    · cases parsed
      assumption
    · cases parsed

theorem accountOf_valid {entry : Json} {account : Nat} (read : accountOf entry = .ok account) :
    validSteamIdentity account = true := by
  obtain ⟨_, -, read⟩ := bind_eq_ok.mp read
  split at read
  · split at read
    · rename_i parsed
      cases read
      exact parseSteamIdentity_valid parsed
    · cases read
  · cases read

theorem parseBan_spec {entry : Json} {ban : Ban} (parsed : parseBan entry = .ok ban) :
    accountOf entry = .ok ban.account ∧ Holds ban.account ban := by
  obtain ⟨account, read, parsed⟩ := bind_eq_ok.mp parsed
  obtain ⟨_, -, parsed⟩ := bind_eq_ok.mp parsed
  obtain ⟨created, -, parsed⟩ := bind_eq_ok.mp parsed
  obtain ⟨_, -, parsed⟩ := bind_eq_ok.mp parsed
  obtain ⟨reason, -, parsed⟩ := bind_eq_ok.mp parsed
  obtain ⟨_, -, parsed⟩ := bind_eq_ok.mp parsed
  obtain ⟨actor, -, parsed⟩ := bind_eq_ok.mp parsed
  obtain ⟨_, -, parsed⟩ := bind_eq_ok.mp parsed
  obtain ⟨expires, -, parsed⟩ := bind_eq_ok.mp parsed
  simp only at parsed
  split at parsed
  · rename_i fine
    cases parsed
    exact ⟨read, rfl, accountOf_valid read, fine⟩
  · cases parsed

/-- The map of a list of entries: every entry parsed, under an account of its own. -/
structure Collected (items : List Json) (before after : BanMap) : Prop where
  size : after.size = before.size + items.length
  found : ∀ account ban, after[account]? = some ban ↔
    before[account]? = some ban ∨ ∃ entry ∈ items, parseBan entry = .ok ban ∧ ban.account = account
  each : ∀ entry ∈ items, ∃ ban, parseBan entry = .ok ban
  accounts : ∃ accounts : List Nat, items.map accountOf = accounts.map .ok ∧ accounts.Nodup ∧
    ∀ account ∈ accounts, before.contains account = false

theorem collect_spec : ∀ {items : List Json} {before after : BanMap},
    collect items before = .ok after → Collected items before after := by
  intro items
  induction items with
  | nil =>
      intro before after collected
      cases collected
      exact ⟨rfl, by simp, by simp, [], rfl, List.nodup_nil, by simp⟩
  | cons entry rest ih =>
      intro before after collected
      obtain ⟨ban, parsed, collected⟩ := bind_eq_ok.mp collected
      split at collected
      · cases collected
      · rename_i fresh
        have absent : before.contains ban.account = false := Bool.eq_false_of_not_eq_true fresh
        obtain ⟨size, found, each, accounts, read, nodup, outside⟩ := ih collected
        have later : ∀ account ∈ accounts, account ≠ ban.account ∧
            before.contains account = false := by
          intro account member
          have unseen := outside account member
          rw [Std.ExtTreeMap.contains_insert] at unseen
          simp only [Bool.or_eq_false_iff, beq_eq_false_iff_ne, ne_eq, compare_eq_iff_eq] at unseen
          exact ⟨Ne.symm unseen.1, unseen.2⟩
        refine ⟨?_, ?_, ?_, ban.account :: accounts, ?_, ?_, ?_⟩
        · rw [size, Std.ExtTreeMap.size_insert, if_neg (by rw [absent]; decide), List.length_cons]
          omega
        · intro account other
          rw [found, Std.ExtTreeMap.getElem?_insert]
          by_cases here : ban.account = account
          · subst here
            have gone : before[ban.account]? = none := by
              rw [Std.ExtTreeMap.getElem?_eq_none_of_contains_eq_false absent]
            have self : compare ban.account ban.account = .eq := Std.ReflCmp.compare_self
            simp only [if_pos self, Option.some.injEq, gone, reduceCtorEq, false_or,
              List.mem_cons, exists_eq_or_imp]
            constructor
            · rintro (rfl | listed)
              · exact Or.inl ⟨parsed, rfl⟩
              · exact Or.inr listed
            · rintro (⟨again, -⟩ | listed)
              · exact Or.inl (Except.ok.inj (parsed.symm.trans again))
              · exact Or.inr listed
          · rw [if_neg (by simpa using here)]
            simp only [List.mem_cons, exists_eq_or_imp]
            refine or_congr_right ⟨Or.inr, ?_⟩
            rintro (⟨again, same⟩ | listed)
            · cases parsed.symm.trans again
              exact absurd same here
            · exact listed
        · exact List.forall_mem_cons.mpr ⟨⟨ban, parsed⟩, each⟩
        · rw [List.map_cons, List.map_cons, read, (parseBan_spec parsed).1]
        · exact List.nodup_cons.mpr ⟨fun member => (later _ member).1 rfl, nodup⟩
        · intro account member
          rcases List.mem_cons.mp member with rfl | inside
          · exact absent
          · exact (later account inside).2

/-- A file that `ParseBans` accepts. -/
structure Accepted (library : Library) (contents : Text) (bans : BanMap) (tree : Json)
    (members : Json.Members) (items : List Json) : Prop where
  parsed : library.parse contents = .ok tree
  small : contents.length ≤ sizeLimit
  shallow : tree.value.depth ≤ 16
  document : tree.value = .object members
  schema : ∃ schema, Json.find "schema".toList members = some schema ∧ schema.isOne = true
  listed : Json.find "bans".toList members = some (.array items)
  few : items.length ≤ entryLimit
  collected : collect items ∅ = .ok bans

theorem at_eq_ok {key : String} {json part : Json} :
    at_ key json = .ok part ↔ json.member key.toList = some part := by
  unfold at_
  cases json.member key.toList with
  | none => simp
  | some found => simp

theorem parseBans_accepted {library : Library} {contents : Text} {bans : BanMap}
    (parsed : parseBans library contents = .ok bans) :
    ∃ tree members items, Accepted library contents bans tree members items := by
  obtain ⟨document, read, parsed⟩ := bind_eq_ok.mp parsed
  unfold parseJson at read
  split at read
  · cases read
  · rename_i small
    split at read
    · cases read
    · split at read
      · cases read
      · cases read
      · rename_i tree found
        split at read
        · cases read
        · rename_i shallow
          split at read
          · cases read
          · cases read
            unfold parseDocument at parsed
            split at parsed
            · rename_i members document
              obtain ⟨schema, here, parsed⟩ := bind_eq_ok.mp parsed
              split at parsed
              · rename_i one
                obtain ⟨list, listed, parsed⟩ := bind_eq_ok.mp parsed
                split at parsed
                · rename_i items
                  split at parsed
                  · cases parsed
                  · rename_i few
                    rw [document] at here listed
                    exact ⟨tree, members, items, found, not_lt.mp small,
                      (Json.depth_value tree).trans (not_lt.mp shallow), document,
                      ⟨schema, at_eq_ok.mp here, one⟩, at_eq_ok.mp listed, not_lt.mp few, parsed⟩
                · cases parsed
              · cases parsed
            · cases parsed

theorem parseBans_holds {library : Library} {contents : Text} {bans : BanMap}
    (parsed : parseBans library contents = .ok bans) :
    bans.size ≤ entryLimit ∧ ∀ account ban, bans[account]? = some ban → Holds account ban := by
  obtain ⟨tree, members, items, accepted⟩ := parseBans_accepted parsed
  have collected := collect_spec accepted.collected
  constructor
  · rw [collected.size]
    simpa using accepted.few
  · intro account ban there
    rcases (collected.found account ban).mp there with nothing | ⟨entry, -, read, rfl⟩
    · simp at nothing
    · exact (parseBan_spec read).2

/-! ## What an edited document holds -/

/-- The members of an entry that the store writes. -/
def fields : List Text :=
  ["steamid".toList, "created_utc".toList, "expires_utc".toList, "reason".toList, "actor".toList]

theorem not_prefix_of_digit {c first : Char} {rest word : Text} (digit : isDigit c = true)
    (letter : isDigit first = false) : (first :: word).isPrefixOf (c :: rest) = false := by
  have different : (first == c) = false := by
    apply beq_eq_false_iff_ne.mpr
    rintro rfl
    exact absurd (digit.symm.trans letter) (by decide)
  simp [List.isPrefixOf, different]

theorem parseSteamIdentity_decimal {account : Nat} (valid : validSteamIdentity account = true) :
    parseSteamIdentity (decimal account) = .ok account := by
  have fits : account < 2 ^ 64 := by
    have bounds : IndividualBase < account ∧ account ≤ IndividualBase + 4294967295 := by
      simpa [validSteamIdentity] using valid
    unfold IndividualBase at bounds
    omega
  have number := fromChars_decimal fits
  have digits := decimal_digits account
  have read : readSteamIdentity (decimal account) = .ok account := by
    cases shape : decimal account with
    | nil => exact absurd shape (decimal_ne_nil account)
    | cons c rest =>
        rw [shape] at digits number
        have digit := digits c (List.mem_cons_self ..)
        have steam : "STEAM_".toList.isPrefixOf (c :: rest) = false :=
          not_prefix_of_digit digit (by decide)
        have bracket : "[U:".toList.isPrefixOf (c :: rest) = false :=
          not_prefix_of_digit digit (by decide)
        rw [readSteamIdentity, steam, bracket]
        simp [steamNumber, number]
  rw [parseSteamIdentity, read]
  simp only
  rw [if_pos valid]

theorem readUtc_utc {time : Timestamp} {text : Text} (written : utc time = .ok text) :
    readUtc (.string text) = .ok time := by
  unfold utc at written
  split at written
  · rename_i formatted
    cases written
    have read := Utc.parse_format formatted
    simp [readUtc, textOf, read, bind, Except.bind]
  · cases written

theorem readExpiry_encodeExpiry {expires : Option Timestamp} {json : Json}
    (written : encodeExpiry expires = .ok json) : readExpiry json = .ok expires := by
  cases expires with
  | none =>
      cases written
      rfl
  | some time =>
      simp only [encodeExpiry] at written
      cases formatted : utc time with
      | error e => simp [formatted, Except.map] at written
      | ok text =>
          simp only [formatted, Except.map, Except.ok.injEq] at written
          rw [← written, readExpiry, readUtc_utc formatted]
          · rfl
          · simp

theorem encodeExpiry_flat {expires : Option Timestamp} {json : Json}
    (written : encodeExpiry expires = .ok json) : json.Canonical ∧ json.depth = 0 := by
  cases expires with
  | none =>
      cases written
      exact ⟨trivial, rfl⟩
  | some time =>
      simp only [encodeExpiry] at written
      cases formatted : utc time with
      | error e => simp [formatted, Except.map] at written
      | ok text =>
          simp only [formatted, Except.map, Except.ok.injEq] at written
          rw [← written]
          exact ⟨trivial, rfl⟩

/-- An entry that a save writes, over the one it found. -/
structure Rewritten (base members : Json.Members) (account : Nat) (ban : Ban) : Prop where
  parsed : parseBan (.object members) = .ok ban
  identified : accountOf (.object members) = .ok account
  others : ∀ key ∉ fields, Json.find key members = Json.find key base
  canonical : (Json.object base).Canonical → (Json.object members).Canonical
  shallow : ∀ n, (Json.object base).depth ≤ n + 1 → (Json.object members).depth ≤ n + 1

theorem encodeBan_spec {original : Std.ExtTreeMap Nat Json} {account : Nat} {ban : Ban}
    {entry : Json} (encoded : encodeBan original account ban = .ok entry)
    (holds : Holds account ban) :
    ∃ base members, original.getD account (.object []) = .object base ∧
      entry = .object members ∧ Rewritten base members account ban := by
  obtain ⟨created, createdOk, encoded⟩ := bind_eq_ok.mp encoded
  obtain ⟨expiry, expiryOk, encoded⟩ := bind_eq_ok.mp encoded
  obtain ⟨expiryCanonical, expiryFlat⟩ := encodeExpiry_flat expiryOk
  obtain ⟨same, valid, fine⟩ := holds
  split at encoded
  · rename_i base found
    cases encoded
    have steamid := parseSteamIdentity_decimal valid
    refine ⟨base, _, found, rfl, ?_⟩
    have identified : accountOf (.object (Json.assign "actor".toList (.string ban.actor)
        (Json.assign "reason".toList (.string ban.reason)
          (Json.assign "expires_utc".toList expiry
            (Json.assign "created_utc".toList (.string created)
              (Json.assign "steamid".toList (.string (decimal account)) base)))))) =
        .ok account := by
      refine bind_eq_ok.mpr ⟨.string (decimal account), at_eq_ok.mpr ?_, ?_⟩
      · rw [Json.member, Json.find_assign_other (by decide), Json.find_assign_other (by decide),
          Json.find_assign_other (by decide), Json.find_assign_other (by decide),
          Json.find_assign_self]
      · simp [steamid]
    constructor
    · refine bind_eq_ok.mpr ⟨account, identified, ?_⟩
      refine bind_eq_ok.mpr ⟨.string created, at_eq_ok.mpr ?_, ?_⟩
      · rw [Json.member, Json.find_assign_other (by decide), Json.find_assign_other (by decide),
          Json.find_assign_other (by decide), Json.find_assign_self]
      refine bind_eq_ok.mpr ⟨ban.created, readUtc_utc createdOk, ?_⟩
      refine bind_eq_ok.mpr ⟨.string ban.reason, at_eq_ok.mpr ?_, ?_⟩
      · rw [Json.member, Json.find_assign_other (by decide), Json.find_assign_self]
      refine bind_eq_ok.mpr ⟨ban.reason, rfl, ?_⟩
      refine bind_eq_ok.mpr ⟨.string ban.actor, at_eq_ok.mpr (Json.find_assign_self _ _ _), ?_⟩
      refine bind_eq_ok.mpr ⟨ban.actor, rfl, ?_⟩
      refine bind_eq_ok.mpr ⟨expiry, at_eq_ok.mpr ?_, ?_⟩
      · rw [Json.member, Json.find_assign_other (by decide), Json.find_assign_other (by decide),
          Json.find_assign_self]
      refine bind_eq_ok.mpr ⟨ban.expires, readExpiry_encodeExpiry expiryOk, ?_⟩
      have whole : ({ account, created := ban.created, expires := ban.expires
                      reason := ban.reason, actor := ban.actor } : Ban) = ban := by
        rw [← same]
      simp only [whole]
      rw [if_pos fine]
    · exact identified
    · intro key other
      simp only [fields, List.mem_cons, List.not_mem_nil, or_false, not_or] at other
      obtain ⟨noId, noCreated, noExpires, noReason, noActor⟩ := other
      rw [Json.find_assign_other noActor, Json.find_assign_other noReason,
        Json.find_assign_other noExpires, Json.find_assign_other noCreated,
        Json.find_assign_other noId]
    · intro canonical
      have plain (text : Text) : (Json.string text).Canonical := trivial
      apply Json.canonical_assign _ (plain _)
      apply Json.canonical_assign _ (plain _)
      apply Json.canonical_assign _ expiryCanonical
      apply Json.canonical_assign _ (plain _)
      exact Json.canonical_assign canonical (plain _)
    · intro n shallow
      apply Json.depth_assign _ (Nat.zero_le n)
      apply Json.depth_assign _ (Nat.zero_le n)
      apply Json.depth_assign _ (expiryFlat ▸ Nat.zero_le n)
      apply Json.depth_assign _ (Nat.zero_le n)
      exact Json.depth_assign shallow (Nat.zero_le n)
  · cases encoded

/-- The entry of an account, for `find?`. -/
def isOf (account : Nat) (entry : Json) : Bool :=
  match accountOf entry with
  | .ok found => found == account
  | .error _ => false

theorem isOf_iff {account : Nat} {entry : Json} :
    isOf account entry = true ↔ accountOf entry = .ok account := by
  unfold isOf
  cases accountOf entry with
  | error e => simp
  | ok found => simp

theorem originals_spec : ∀ {items : List Json} {found original : Std.ExtTreeMap Nat Json},
    originals items found = .ok original →
    ∀ account, original[account]? = found[account]?.or (items.find? (isOf account)) := by
  intro items
  induction items with
  | nil =>
      intro found original done account
      cases done
      simp
  | cons entry rest ih =>
      intro found original done account
      unfold originals at done
      split at done
      · cases done
      · rename_i owner read
        rw [ih done account, Std.ExtTreeMap.getElem?_insertIfNew, List.find?_cons]
        by_cases here : owner = account
        · subst here
          rw [isOf_iff.mpr read]
          by_cases known : owner ∈ found
          · simp [known]
          · simp [known]
        · have other : isOf account entry = false := by
            apply Bool.eq_false_of_not_eq_true
            intro same
            cases read.symm.trans (isOf_iff.mp same)
            exact here rfl
          rw [other, if_neg (by simp [here])]

/-- How a save writes the entry of one account. -/
def Written (original : Std.ExtTreeMap Nat Json) (p : Nat × Ban) (entry : Json) : Prop :=
  ∃ base members, original.getD p.1 (.object []) = .object base ∧
    entry = .object members ∧ Rewritten base members p.1 p.2

theorem encodeAll_spec {original : Std.ExtTreeMap Nat Json} : ∀ {list : List (Nat × Ban)}
    {entries : List Json}, encodeAll original list = .ok entries →
    (∀ p ∈ list, Holds p.1 p.2) → List.Forall₂ (Written original) list entries := by
  intro list
  induction list with
  | nil =>
      intro entries done _
      cases done
      exact .nil
  | cons p rest ih =>
      intro entries done holds
      obtain ⟨entry, encoded, done⟩ := bind_eq_ok.mp done
      obtain ⟨later, more, done⟩ := bind_eq_ok.mp done
      cases done
      exact .cons (encodeBan_spec encoded (holds p (List.mem_cons_self ..)))
        (ih more fun q member => holds q (List.mem_cons_of_mem _ member))

/-- Entries of different accounts are collected. -/
theorem collect_succeeds : ∀ {list : List (Nat × Ban)} {entries : List Json} (before : BanMap),
    List.Forall₂ (fun p entry => parseBan entry = .ok p.2 ∧ p.2.account = p.1) list entries →
    (list.map Prod.fst).Nodup → (∀ p ∈ list, before.contains p.1 = false) →
    ∃ after, collect entries before = .ok after := by
  intro list
  induction list with
  | nil =>
      intro entries before parsed _ _
      cases parsed
      exact ⟨before, rfl⟩
  | cons p rest ih =>
      intro entries before parsed nodup fresh
      cases parsed with
      | cons head tail =>
          rename_i entry later
          obtain ⟨here, rests⟩ := List.nodup_cons.mp nodup
          obtain ⟨after, done⟩ := ih (before.insert p.1 p.2) tail rests (by
            intro q member
            rw [Std.ExtTreeMap.contains_insert, fresh q (List.mem_cons_of_mem _ member)]
            have other : p.1 ≠ q.1 := fun same => here (same ▸ List.mem_map_of_mem member)
            simp [other])
          refine ⟨after, bind_eq_ok.mpr ⟨p.2, head.1, ?_⟩⟩
          rw [head.2, fresh p (List.mem_cons_self ..)]
          exact done

theorem paired_left {α β : Type} {R : α → β → Prop} {as : List α} {bs : List β}
    (pairs : List.Forall₂ R as bs) {a : α} (member : a ∈ as) : ∃ b ∈ bs, R a b := by
  induction pairs with
  | nil => cases member
  | cons related _ ih =>
      rename_i first other _ _ _
      rcases List.mem_cons.mp member with rfl | inside
      · exact ⟨other, List.mem_cons_self .., related⟩
      · obtain ⟨b, listed, more⟩ := ih inside
        exact ⟨b, List.mem_cons_of_mem _ listed, more⟩

theorem paired_right {α β : Type} {R : α → β → Prop} {as : List α} {bs : List β}
    (pairs : List.Forall₂ R as bs) {b : β} (member : b ∈ bs) : ∃ a ∈ as, R a b :=
  paired_left pairs.flip member

theorem collect_toList {candidate : BanMap} {entries : List Json}
    (parsed : List.Forall₂ (fun p entry => parseBan entry = .ok p.2 ∧ p.2.account = p.1)
      candidate.toList entries) : collect entries ∅ = .ok candidate := by
  have nodup : (candidate.toList.map Prod.fst).Nodup := by
    apply List.pairwise_map.mpr
    refine Std.ExtTreeMap.distinct_keys_toList.imp ?_
    intro p q different same
    exact different (by simp [same])
  obtain ⟨after, collected⟩ := collect_succeeds ∅ parsed nodup (by simp)
  have spec := collect_spec collected
  rw [collected]
  refine congrArg Except.ok (Std.ExtTreeMap.ext_getElem? fun account => Option.ext fun ban => ?_)
  rw [spec.found]
  constructor
  · rintro (nothing | ⟨entry, member, read, rfl⟩)
    · simp at nothing
    · obtain ⟨⟨account, other⟩, listed, here, same⟩ := paired_right parsed member
      cases read.symm.trans here
      exact Std.ExtTreeMap.mem_toList_iff_getElem?_eq_some.mp (same ▸ listed)
  · intro there
    have listed := Std.ExtTreeMap.mem_toList_iff_getElem?_eq_some.mpr there
    obtain ⟨entry, member, read, same⟩ := paired_left parsed listed
    exact Or.inr ⟨entry, member, read, same⟩

/-! ## The text of a save -/

/-- The document of a text; the null document when there is none. -/
def documentIn (library : Library) (contents : Text) : Json :=
  match library.parse contents with
  | .ok tree => tree.value
  | .error _ => .null

def entryOf (document : Json) (account : Nat) : Option Json :=
  match document.member "bans".toList with
  | some (.array items) => items.find? (isOf account)
  | _ => none

/-- A member of the entry of an account. -/
def note (document : Json) (account : Nat) (key : Text) : Option Json :=
  (entryOf document account).bind (Json.member key)

/-- What the store does not write is in the new document as it was in the old. -/
structure Kept (before after : Json) (stayed : Nat → Prop) : Prop where
  top : ∀ key, key ≠ "bans".toList → after.member key = before.member key
  notes : ∀ account, stayed account → ∀ key ∉ fields,
    note after account key = note before account key

theorem original_part {items : List Json} {original : Std.ExtTreeMap Nat Json}
    (done : originals items ∅ = .ok original) {P : Json → Prop} (parts : ∀ json ∈ items, P json)
    (empty : P (.object [])) (account : Nat) : P (original.getD account (.object [])) := by
  rw [Std.ExtTreeMap.getD_eq_getD_getElem?, originals_spec done]
  cases found : items.find? (isOf account) with
  | none => simpa using empty
  | some entry => simpa using parts entry (List.mem_of_find?_eq_some found)

/-- The document of an accepted text, edited. -/
structure Edited (items : List Json) (members : Json.Members) (candidate : BanMap)
    (document : Json) (original : Std.ExtTreeMap Nat Json) (entries : List Json) : Prop where
  originals : originals items ∅ = .ok original
  written : List.Forall₂ (Written original) candidate.toList entries
  document : document = .object (Json.assign "bans".toList (.array entries) members)

theorem edit_spec {library : Library} {contents : Text} {bans candidate : BanMap} {tree : Json}
    {members : Json.Members} {items : List Json}
    (accepted : Accepted library contents bans tree members items)
    (holds : ∀ account ban, candidate[account]? = some ban → Holds account ban) {document : Json}
    (edited : edit tree.value candidate = .ok document) :
    ∃ original entries, Edited items members candidate document original entries := by
  rw [accepted.document] at edited
  obtain ⟨found, listed, edited⟩ := bind_eq_ok.mp edited
  simp only [itemsOf, Json.member, accepted.listed, Except.ok.injEq] at listed
  subst listed
  obtain ⟨original, done, edited⟩ := bind_eq_ok.mp edited
  obtain ⟨entries, encoded, edited⟩ := bind_eq_ok.mp edited
  refine ⟨original, entries, done, encodeAll_spec encoded ?_, (Except.ok.inj edited).symm⟩
  intro p member
  exact holds p.1 p.2 (Std.ExtTreeMap.mem_toList_iff_getElem?_eq_some.mp member)

theorem Edited.ordered {library : Library} {contents : Text} {bans candidate : BanMap}
    {tree document : Json} {members : Json.Members} {items entries : List Json}
    {original : Std.ExtTreeMap Nat Json}
    (edited : Edited items members candidate document original entries)
    (accepted : Accepted library contents bans tree members items) :
    document.Canonical ∧ document.depth ≤ 16 := by
  have canonical := Json.canonical_value tree
  have shallow := accepted.shallow
  rw [accepted.document] at canonical shallow
  have part := Json.find_mem accepted.listed
  have items_canonical : ∀ json ∈ items, json.Canonical :=
    Json.canonicalItems_iff.mp (Json.canonicalMembers_iff.mp canonical.2 _ part)
  have members_shallow : Json.depthMembers members ≤ 15 := Nat.le_of_succ_le_succ shallow
  have list_shallow : (Json.array items).depth ≤ 15 :=
    Json.depthMembers_le.mp members_shallow _ part
  have items_shallow : ∀ json ∈ items, json.depth ≤ 14 :=
    Json.depthItems_le.mp (Nat.le_of_succ_le_succ list_shallow)
  have entries_canonical : ∀ json ∈ entries, json.Canonical := by
    intro json member
    obtain ⟨p, -, base, fresh, found, rfl, rewritten⟩ := paired_right edited.written member
    apply rewritten.canonical
    rw [← found]
    exact original_part edited.originals items_canonical ⟨List.Pairwise.nil, trivial⟩ p.1
  have entries_shallow : ∀ json ∈ entries, json.depth ≤ 14 := by
    intro json member
    obtain ⟨p, -, base, fresh, found, rfl, rewritten⟩ := paired_right edited.written member
    apply rewritten.shallow 13
    rw [← found]
    exact original_part edited.originals items_shallow (by decide) p.1
  have list_canonical : (Json.array entries).Canonical :=
    Json.canonicalItems_iff.mpr entries_canonical
  have list_depth : (Json.array entries).depth ≤ 15 :=
    Nat.succ_le_succ (Json.depthItems_le.mpr entries_shallow)
  rw [edited.document]
  exact ⟨Json.canonical_assign canonical list_canonical, Json.depth_assign shallow list_depth⟩

theorem Edited.parsed {library : Library} {contents : Text} {bans candidate : BanMap}
    {tree document : Json} {members : Json.Members} {items entries : List Json}
    {original : Std.ExtTreeMap Nat Json}
    (edited : Edited items members candidate document original entries)
    (accepted : Accepted library contents bans tree members items)
    (few : candidate.size ≤ entryLimit) : parseDocument document = .ok candidate := by
  obtain ⟨schema, there, one⟩ := accepted.schema
  have schema_find : (Json.object (Json.assign "bans".toList (.array entries) members)).member
      "schema".toList = some schema := by
    rw [Json.member, Json.find_assign_other (by decide), there]
  have bans_find : (Json.object (Json.assign "bans".toList (.array entries) members)).member
      "bans".toList = some (.array entries) := Json.find_assign_self _ _ _
  have length : entries.length ≤ entryLimit := by
    rw [← edited.written.length_eq, Std.ExtTreeMap.length_toList]
    exact few
  rw [edited.document]
  refine bind_eq_ok.mpr ⟨schema, at_eq_ok.mpr schema_find, ?_⟩
  rw [if_pos one]
  refine bind_eq_ok.mpr ⟨.array entries, at_eq_ok.mpr bans_find, ?_⟩
  simp only
  rw [if_neg (not_lt.mpr length)]
  apply collect_toList
  refine edited.written.imp ?_
  rintro p entry ⟨base, fresh, -, rfl, rewritten⟩
  have same := (parseBan_spec rewritten.parsed).1.symm.trans rewritten.identified
  exact ⟨rewritten.parsed, Except.ok.inj same⟩

theorem Edited.kept {library : Library} {contents : Text} {bans candidate : BanMap}
    {tree document : Json} {members : Json.Members} {items entries : List Json}
    {original : Std.ExtTreeMap Nat Json}
    (edited : Edited items members candidate document original entries)
    (accepted : Accepted library contents bans tree members items) :
    Kept tree.value document fun account => account ∈ bans ∧ account ∈ candidate := by
  rw [edited.document, accepted.document]
  constructor
  · intro key other
    exact Json.find_assign_other other _ _
  · rintro account ⟨before, after⟩ key unknown
    have collected := collect_spec accepted.collected
    obtain ⟨ban, there⟩ := Option.isSome_iff_exists.mp
      (Std.ExtTreeMap.mem_iff_isSome_getElem?.mp before)
    rcases (collected.found account ban).mp there with nothing | ⟨entry, member, read, rfl⟩
    · simp at nothing
    · have known : isOf ban.account entry = true := isOf_iff.mpr (parseBan_spec read).1
      have somewhere : (items.find? (isOf ban.account)).isSome = true :=
        List.find?_isSome.mpr ⟨entry, member, known⟩
      obtain ⟨old, found⟩ := Option.isSome_iff_exists.mp somewhere
      obtain ⟨kept, listed⟩ := Option.isSome_iff_exists.mp
        (Std.ExtTreeMap.mem_iff_isSome_getElem?.mp after)
      obtain ⟨fresh, inside, base, own, based, rfl, rewritten⟩ := paired_left edited.written
        (Std.ExtTreeMap.mem_toList_iff_getElem?_eq_some.mpr listed)
      have again : (entries.find? (isOf ban.account)).isSome = true :=
        List.find?_isSome.mpr ⟨_, inside, isOf_iff.mpr rewritten.identified⟩
      obtain ⟨new, newFound⟩ := Option.isSome_iff_exists.mp again
      obtain ⟨p, -, base', own', based', rfl, rewritten'⟩ :=
        paired_right edited.written (List.mem_of_find?_eq_some newFound)
      have owner : p.1 = ban.account := by
        have chosen := isOf_iff.mp (List.find?_some newFound)
        exact Except.ok.inj (rewritten'.identified.symm.trans chosen)
      have old_eq : old = .object base' := by
        rw [owner, Std.ExtTreeMap.getD_eq_getD_getElem?, originals_spec edited.originals,
          found] at based'
        simpa using based'
      simp only [note, entryOf, Json.member, Json.find_assign_self, accepted.listed, found,
        newFound, Option.bind_some, old_eq]
      exact rewritten'.others key unknown

/-- The text of a save is read back as the map it was made for, and keeps what
the store does not know. -/
theorem encode_spec {library : Library} (faithful : library.Faithful) {previous text : Text}
    {bans candidate : BanMap} (parsed : parseBans library previous = .ok bans)
    (holds : ∀ account ban, candidate[account]? = some ban → Holds account ban)
    (few : candidate.size ≤ entryLimit) (encoded : encode library previous candidate = .ok text) :
    parseBans library text = .ok candidate ∧
      Kept (documentIn library previous) (documentIn library text)
        fun account => account ∈ bans ∧ account ∈ candidate := by
  obtain ⟨tree, members, items, accepted⟩ := parseBans_accepted parsed
  simp only [encode, accepted.parsed] at encoded
  obtain ⟨document, done, encoded⟩ := bind_eq_ok.mp encoded
  obtain ⟨original, entries, edited⟩ := edit_spec accepted holds done
  obtain ⟨canonical, shallow⟩ := edited.ordered accepted
  split at encoded
  · cases encoded
  · rename_i body dumped
    split at encoded
    · cases encoded
    · rename_i small
      cases encoded
      have read := faithful.dumped document body canonical dumped
      have nests : nestsTooDeep false false 0 (body ++ ['\n']) ≠ true := by
        intro deep
        exact absurd ((faithful.nesting _ _ read).mp deep) (not_lt.mpr shallow)
      have whole : parseJson library (body ++ ['\n']) = .ok document := by
        simp only [parseJson, if_neg small, if_neg nests, read, if_neg (not_lt.mpr shallow),
          Json.repeated_eq document canonical, Json.value_eq document canonical]
      constructor
      · exact bind_eq_ok.mpr ⟨document, whole, edited.parsed accepted few⟩
      · have before : documentIn library previous = tree.value := by
          simp only [documentIn, accepted.parsed]
        have after : documentIn library (body ++ ['\n']) = document := by
          simp only [documentIn, read, Json.value_eq document canonical]
        rw [before, after]
        exact edited.kept accepted

/-! ## Runs -/

/-- The remembered text is the map's. -/
def Inv (library : Library) (w : World) : Prop :=
  ∀ contents, w.store.contents = some contents → parseBans library contents = .ok w.store.bans

theorem initial_parsed {library : Library} (faithful : library.Faithful) :
    parseBans library initialContents = .ok ∅ := by
  have nests : nestsTooDeep false false 0 initialContents ≠ true := by decide
  have small : ¬ initialContents.length > sizeLimit := by decide
  have read : parseJson library initialContents = .ok (documentOf []) := by
    simp only [parseJson, if_neg small, if_neg nests, faithful.initial]
    rfl
  exact bind_eq_ok.mpr ⟨documentOf [], read, rfl⟩

/-- The ways a load goes. -/
theorem load_cases (library : Library) (replies : Replies) (w : World) :
    (∃ contents, w.store.contents = some contents ∧ load library replies w = (.ok (), w)) ∨
      w.store.contents = none ∧
        ((∃ e disk, load library replies w = (.error e, { w with disk })) ∨
          (∃ disk, load library replies w =
            (.ok (), { store := { bans := ∅, contents := some initialContents }, disk })) ∨
          ∃ contents bans, parseBans library contents = .ok bans ∧
            load library replies w =
              (.ok (), { w with store := { bans, contents := some contents } })) := by
  cases known : w.store.contents with
  | some contents => exact Or.inl ⟨contents, rfl, load_loaded library replies known⟩
  | none =>
      refine Or.inr ⟨rfl, ?_⟩
      simp only [load, known]
      by_cases inspected : (!replies.inspected) = true
      · rw [if_pos inspected]
        exact Or.inl ⟨_, w.disk, rfl⟩
      · rw [if_neg inspected]
        cases there : w.disk.file with
        | absent =>
            simp only
            generalize atomicWrite w.disk initialContents replies.loadWrite = outcome
            obtain ⟨result, disk⟩ := outcome
            cases result with
            | error e => exact Or.inl ⟨e, disk, rfl⟩
            | ok _ => exact Or.inr (Or.inl ⟨disk, rfl⟩)
        | regular text =>
            simp only
            cases read w.disk replies.loadRead with
            | error e => exact Or.inl ⟨e, w.disk, rfl⟩
            | ok contents =>
                simp only
                cases parsed : parseBans library contents with
                | error e => exact Or.inl ⟨e, w.disk, rfl⟩
                | ok bans => exact Or.inr (Or.inr ⟨contents, bans, parsed, rfl⟩)
        | other =>
            simp only [read, there]
            exact Or.inl ⟨_, w.disk, rfl⟩

theorem load_inv {library : Library} (faithful : library.Faithful) (replies : Replies) {w : World}
    (inv : Inv library w) : Inv library (load library replies w).2 := by
  rcases load_cases library replies w with ⟨contents, -, done⟩ | ⟨unloaded, failed | fresh | read⟩
  · rw [done]
    exact inv
  · obtain ⟨e, disk, done⟩ := failed
    rw [done]
    intro contents loaded
    cases unloaded.symm.trans loaded
  · obtain ⟨disk, done⟩ := fresh
    rw [done]
    intro contents loaded
    cases loaded
    exact initial_parsed faithful
  · obtain ⟨contents, bans, parsed, done⟩ := read
    rw [done]
    intro other loaded
    cases loaded
    exact parsed

/-- A mutation is one of the store that the load left, when that succeeds. -/
theorem mutate_after_load (library : Library) (replies : Replies) (w : World)
    (mutation : Mutation) :
    (∃ e, load library replies w = (.error e, (load library replies w).2) ∧
        mutate library replies w mutation = (.error e, (load library replies w).2)) ∨
      ∃ contents, (load library replies w).2.store.contents = some contents ∧
        mutate library replies w mutation =
          mutate library replies (load library replies w).2 mutation := by
  rcases load_cases library replies w with ⟨contents, known, done⟩ | ⟨unloaded, failed | fresh | read⟩
  · right
    rw [done]
    exact ⟨contents, known, rfl⟩
  · left
    obtain ⟨e, disk, done⟩ := failed
    rw [done]
    refine ⟨e, rfl, ?_⟩
    cases mutation with
    | add => simp only [mutate, addBan, done]
    | remove => simp only [mutate, removeBan, done]
  · right
    obtain ⟨disk, done⟩ := fresh
    rw [done]
    refine ⟨initialContents, rfl, ?_⟩
    have again := load_loaded library replies (w :=
      { store := { bans := ∅, contents := some initialContents }, disk }) rfl
    cases mutation with
    | add => simp only [mutate, addBan, done, again]
    | remove => simp only [mutate, removeBan, done, again]
  · right
    obtain ⟨contents, bans, -, done⟩ := read
    rw [done]
    refine ⟨contents, rfl, ?_⟩
    have again := load_loaded library replies (w :=
      { w with store := { bans, contents := some contents } }) rfl
    cases mutation with
    | add => simp only [mutate, addBan, done, again]
    | remove => simp only [mutate, removeBan, done, again]

theorem newBan_holds {account minutes : Nat} {reason actor : Text} {now : Timestamp} {ban : Ban}
    (made : newBan account minutes reason actor now = .ok ban) : Holds account ban := by
  unfold newBan at made
  split at made
  · cases made
  · rename_i valid
    simp only [Bool.or_eq_true, Bool.not_eq_true', not_or, Bool.not_eq_false,
      decide_eq_true_eq] at valid
    obtain ⟨⟨⟨account_valid, -⟩, safe⟩, known⟩ := valid
    obtain ⟨-, -, made⟩ := bind_eq_ok.mp made
    split at made
    · cases made
      exact ⟨rfl, account_valid, by simp [Ban.fine, safe, known]⟩
    · rename_i timed
      split at made
      · cases made
      · cases made
        have positive : (0 : Int) < (minutes : Int) * 60 := by omega
        have later : now < now + (minutes : Int) * 60 := lt_add_of_pos_right now positive
        exact ⟨rfl, account_valid, by simp [Ban.fine, safe, known, later]⟩

/-- The candidate of a mutation holds what the map held and the new ban. -/
theorem candidate_holds {mutation : Mutation} {bans candidate : BanMap}
    (asked : mutation.candidate bans = .ok candidate)
    (held : ∀ account ban, bans[account]? = some ban → Holds account ban) :
    ∀ account ban, candidate[account]? = some ban → Holds account ban := by
  intro account ban there
  cases mutation with
  | add owner minutes reason actor now =>
      obtain ⟨fresh, made, done⟩ := bind_eq_ok.mp asked
      cases done
      rw [Std.ExtTreeMap.getElem?_insert] at there
      split at there
      · rename_i same
        have owner_eq : owner = account := by simpa using same
        cases there
        exact owner_eq ▸ newBan_holds made
      · exact held account ban there
  | remove owner =>
      cases asked
      rw [Std.ExtTreeMap.getElem?_erase] at there
      split at there
      · cases there
      · exact held account ban there

/-! ### One mutation -/

theorem Kept.refl (document : Json) (stayed : Nat → Prop) : Kept document document stayed :=
  ⟨fun _ _ => rfl, fun _ _ _ _ => rfl⟩

theorem Kept.trans {first second third : Json} {P Q R : Nat → Prop} (one : Kept first second P)
    (two : Kept second third Q) (narrow : ∀ account, R account → P account ∧ Q account) :
    Kept first third R where
  top key other := (two.top key other).trans (one.top key other)
  notes account stayed key unknown :=
    (two.notes account (narrow account stayed).2 key unknown).trans
      (one.notes account (narrow account stayed).1 key unknown)

/-- A mutation that wrote. -/
structure Wrote (library : Library) (previous text : Text) (before after : World) : Prop where
  remembered : after.store.contents = some text
  stored : after.disk.file = .regular text
  parsed : parseBans library text = .ok after.store.bans
  kept : Kept (documentIn library previous) (documentIn library text)
    fun account => account ∈ before.store.bans ∧ account ∈ after.store.bans

theorem mutate_outcome {library : Library} (faithful : library.Faithful) (replies : Replies)
    (mutation : Mutation) {w : World} {contents : Text} (inv : Inv library w)
    (loaded : w.store.contents = some contents) :
    (mutate library replies w mutation).1 ≠ .ok true ∧
        (mutate library replies w mutation).2.store = w.store ∨
      ∃ text, Wrote library contents text w (mutate library replies w mutation).2 := by
  obtain ⟨few, held⟩ := parseBans_holds (inv contents loaded)
  rcases mutate_cases library replies mutation loaded with
    ⟨e, ended⟩ | ⟨-, ended⟩ | ⟨candidate, asked, fits, saved⟩
  · rw [ended]
    exact Or.inl ⟨by simp, rfl⟩
  · rw [ended]
    exact Or.inl ⟨by simp, rfl⟩
  · have spec := saveBans_spec library replies candidate loaded
    rw [saved]
    generalize saveBans library replies candidate w = outcome at spec
    obtain ⟨result, after⟩ := outcome
    cases result with
    | error e => exact Or.inl ⟨by simp [Except.map], spec.1⟩
    | ok _ =>
        obtain ⟨text, encoded, -, stored, there⟩ := spec
        obtain ⟨parsed, kept⟩ := encode_spec faithful (inv contents loaded)
          (candidate_holds asked held) (fits few) encoded
        refine Or.inr ⟨text, ?_, there, ?_, ?_⟩
        · simp only [stored]
        · simpa only [stored] using parsed
        · simpa only [stored] using kept

theorem mutate_inv {library : Library} (faithful : library.Faithful) (replies : Replies)
    (mutation : Mutation) {w : World} (inv : Inv library w) :
    Inv library (mutate library replies w mutation).2 := by
  have opened := load_inv faithful replies inv
  rcases mutate_after_load library replies w mutation with ⟨e, -, failed⟩ | ⟨contents, loaded, same⟩
  · rw [failed]
    exact opened
  · rw [same]
    intro text remembered
    rcases mutate_outcome faithful replies mutation opened loaded with ⟨-, kept⟩ | ⟨new, wrote⟩
    · rw [kept] at remembered ⊢
      exact opened text remembered
    · cases wrote.remembered.symm.trans remembered
      exact wrote.parsed

theorem next_inv {library : Library} (faithful : library.Faithful) {w t : World} {label : Label}
    (inv : Inv library w) (stepped : next library w label = some t) : Inv library t := by
  cases label with
  | load replies =>
      cases stepped
      exact load_inv faithful replies inv
  | mutate mutation replies =>
      cases stepped
      exact mutate_inv faithful replies mutation inv
  | edit node =>
      cases stepped
      exact inv

theorem reached_inv {library : Library} (faithful : library.Faithful) {disk : Disk}
    {history : List Label} {w : World}
    (ran : Transition.run (next library) { disk } history = some w) : Inv library w :=
  Transition.history_induction (P := fun _ w => Inv library w)
    (fun contents loaded => by cases loaded)
    (fun _ _ _ _ inv stepped => next_inv faithful inv stepped) history w ran

/-! ### What stays in the document -/

/-- The step of a loaded store. -/
theorem next_kept {library : Library} (faithful : library.Faithful) {w t : World} {label : Label}
    (inv : Inv library w) {contents : Text} (loaded : w.store.contents = some contents)
    (stepped : next library w label = some t) :
    ∃ text, t.store.contents = some text ∧
      Kept (documentIn library contents) (documentIn library text)
        fun account => account ∈ w.store.bans ∧ account ∈ t.store.bans := by
  cases label with
  | load replies =>
      simp only [next, load_loaded library replies loaded, Option.some.injEq] at stepped
      subst stepped
      exact ⟨contents, loaded, Kept.refl _ _⟩
  | mutate mutation replies =>
      cases stepped
      rcases mutate_outcome faithful replies mutation inv loaded with ⟨-, same⟩ | ⟨text, wrote⟩
      · exact ⟨contents, same ▸ loaded, Kept.refl _ _⟩
      · exact ⟨text, wrote.remembered, wrote.kept⟩
  | edit node =>
      cases stepped
      exact ⟨contents, loaded, Kept.refl _ _⟩

/-- The account is banned in every state of the run. -/
def Throughout (library : Library) (account : Nat) (w : World) (history : List Label) : Prop :=
  ∀ before after u, history = before ++ after →
    Transition.run (next library) w before = some u → account ∈ u.store.bans

theorem run_kept {library : Library} (faithful : library.Faithful) : ∀ {history : List Label}
    {w t : World} {contents : Text}, Inv library w → w.store.contents = some contents →
    Transition.run (next library) w history = some t →
    ∃ text, t.store.contents = some text ∧
      Kept (documentIn library contents) (documentIn library text)
        fun account => Throughout library account w history := by
  intro history
  induction history with
  | nil =>
      intro w t contents inv loaded ran
      cases ran
      exact ⟨contents, loaded, Kept.refl _ _⟩
  | cons label rest ih =>
      intro w t contents inv loaded ran
      obtain ⟨u, stepped, ran⟩ := Option.bind_eq_some_iff.mp ran
      obtain ⟨middle, remembered, first⟩ := next_kept faithful inv loaded stepped
      obtain ⟨text, last, later⟩ := ih (next_inv faithful inv stepped) remembered ran
      refine ⟨text, last, first.trans later ?_⟩
      intro account stayed
      have reached : Transition.run (next library) w [label] = some u := by
        simp only [Transition.run, stepped]
        rfl
      refine ⟨⟨stayed [] (label :: rest) w rfl rfl, stayed [label] rest u rfl reached⟩, ?_⟩
      intro before after v split met
      refine stayed (label :: before) after v (by rw [split]; rfl) ?_
      simp only [Transition.run, stepped]
      exact met

/-! ## The three copies -/

/-- A fresh store whose file-system calls succeed. -/
theorem load_fresh {library : Library} {text : Text} {bans : BanMap} {disk : Disk}
    (there : disk.file = .regular text) (parsed : parseBans library text = .ok bans) :
    load library {} { disk } = (.ok (), { store := { bans, contents := some text }, disk }) := by
  obtain ⟨tree, members, items, accepted⟩ := parseBans_accepted parsed
  have small : ¬ sizeLimit < text.length := not_lt.mpr accepted.small
  simp [load, there, read, small, parsed]

/-- Map, text, document and file of the ban store, in every state and after every
mutation that wrote. -/
theorem bans_agree {library : Library} (faithful : library.Faithful) {disk : Disk}
    {history : List Label} {w : World}
    (ran : Transition.run (next library) { disk } history = some w) :
    (∀ contents, w.store.contents = some contents →
      parseBans library contents = .ok w.store.bans ∧
      (∃ items, ∃ accounts : List Nat, itemsOf (documentIn library contents) = .ok items ∧
        items.map accountOf = accounts.map .ok ∧ accounts.Nodup ∧
          ∀ account, account ∈ accounts ↔ account ∈ w.store.bans) ∧
      ∀ rest t, Transition.run (next library) w rest = some t →
        ∃ text, t.store.contents = some text ∧
          (∀ key, key ≠ "bans".toList →
            (documentIn library text).member key = (documentIn library contents).member key) ∧
          ∀ account, Throughout library account w rest → ∀ key ∉ fields,
            note (documentIn library text) account key =
              note (documentIn library contents) account key) ∧
    ∀ mutation replies, (mutate library replies w mutation).1 = .ok true →
      ∃ text, (mutate library replies w mutation).2.store.contents = some text ∧
        (mutate library replies w mutation).2.disk.file = .regular text ∧
        load library {} { disk := (mutate library replies w mutation).2.disk } =
          (.ok (), (mutate library replies w mutation).2) := by
  have inv := reached_inv faithful ran
  constructor
  · intro contents loaded
    have parsed := inv contents loaded
    obtain ⟨tree, members, items, accepted⟩ := parseBans_accepted parsed
    have collected := collect_spec accepted.collected
    refine ⟨parsed, ?_, ?_⟩
    · obtain ⟨accounts, read, nodup, -⟩ := collected.accounts
      refine ⟨items, accounts, ?_, read, nodup, ?_⟩
      · simp only [documentIn, accepted.parsed, accepted.document, itemsOf, Json.member,
          accepted.listed]
      · intro account
        rw [Std.ExtTreeMap.mem_iff_isSome_getElem?, Option.isSome_iff_exists]
        constructor
        · intro member
          have mapped : Except.ok account ∈ items.map accountOf := by
            rw [read]
            exact List.mem_map_of_mem member
          obtain ⟨entry, inside, owner⟩ := List.mem_map.mp mapped
          obtain ⟨ban, of⟩ := collected.each entry inside
          have same := Except.ok.inj ((parseBan_spec of).1.symm.trans owner)
          exact ⟨ban, (collected.found account ban).mpr (Or.inr ⟨entry, inside, of, same⟩)⟩
        · rintro ⟨ban, there⟩
          rcases (collected.found account ban).mp there with nothing | ⟨entry, inside, of, rfl⟩
          · simp at nothing
          · have mapped : accountOf entry ∈ items.map accountOf := List.mem_map_of_mem inside
            rw [read, (parseBan_spec of).1] at mapped
            obtain ⟨found, member, same⟩ := List.mem_map.mp mapped
            cases same
            exact member
    · intro rest t continued
      obtain ⟨text, remembered, kept⟩ := run_kept faithful inv loaded continued
      exact ⟨text, remembered, kept.top, kept.notes⟩
  · intro mutation replies succeeded
    have opened := load_inv faithful replies inv
    rcases mutate_after_load library replies w mutation with ⟨e, -, failed⟩ | ⟨old, loaded, same⟩
    · rw [failed] at succeeded
      cases succeeded
    · rw [same] at succeeded ⊢
      rcases mutate_outcome faithful replies mutation opened loaded with ⟨other, -⟩ | ⟨text, wrote⟩
      · exact absurd succeeded other
      · refine ⟨text, wrote.remembered, wrote.stored, ?_⟩
        rw [load_fresh wrote.stored wrote.parsed, ← wrote.remembered]

/-! ## A store that somebody else has written to -/

mutual

def same : Json → Json → Bool
  | .null, .null => true
  | .boolean a, .boolean b => a == b
  | .integer m, .integer n => m.val == n.val
  | .float a, .float b => a.val == b.val
  | .string s, .string t => s == t
  | .array items, .array others => sameItems items others
  | .object members, .object others => sameMembers members others
  | _, _ => false

def sameItems : List Json → List Json → Bool
  | [], [] => true
  | a :: items, b :: others => same a b && sameItems items others
  | _, _ => false

def sameMembers : Json.Members → Json.Members → Bool
  | [], [] => true
  | (k, a) :: members, (l, b) :: others => k == l && same a b && sameMembers members others
  | _, _ => false

end

mutual

theorem same_eq : ∀ (a b : Json), same a b = true → a = b
  | .null, b, equal => by cases b <;> simp [same] at equal ⊢
  | .boolean a, b, equal => by cases b <;> simp [same] at equal ⊢; exact equal
  | .integer a, b, equal => by cases b <;> simp [same] at equal ⊢; exact Subtype.ext equal
  | .float a, b, equal => by cases b <;> simp [same] at equal ⊢; exact Subtype.ext equal
  | .string a, b, equal => by cases b <;> simp [same] at equal ⊢; exact equal
  | .array items, b, equal => by
      cases b with
      | array others => rw [sameItems_eq items others (by simpa [same] using equal)]
      | _ => simp [same] at equal
  | .object members, b, equal => by
      cases b with
      | object others => rw [sameMembers_eq members others (by simpa [same] using equal)]
      | _ => simp [same] at equal

theorem sameItems_eq : ∀ items others : List Json, sameItems items others = true → items = others
  | [], others, equal => by cases others <;> simp [sameItems] at equal ⊢
  | a :: items, others, equal => by
      cases others with
      | nil => simp [sameItems] at equal
      | cons b others =>
          simp only [sameItems, Bool.and_eq_true] at equal
          rw [same_eq a b equal.1, sameItems_eq items others equal.2]

theorem sameMembers_eq : ∀ members others : Json.Members, sameMembers members others = true →
    members = others
  | [], others, equal => by cases others <;> simp [sameMembers] at equal ⊢
  | (k, a) :: members, others, equal => by
      cases others with
      | nil => simp [sameMembers] at equal
      | cons m others =>
          obtain ⟨l, b⟩ := m
          simp only [sameMembers, Bool.and_eq_true, beq_iff_eq] at equal
          rw [equal.1.1, same_eq a b equal.1.2, sameMembers_eq members others equal.2]

end

/-- A library that knows some texts, each with its newline, and their documents. -/
def ofTable (rows : List (Text × Json)) : Library where
  parse text := (rows.lookup text).elim (.error none) .ok
  dump document := (rows.find? fun row => same document row.2).map fun row => row.1.dropLast

theorem ofTable_parse {rows : List (Text × Json)} {text : Text} {document : Json} :
    (ofTable rows).parse text = .ok document ↔ rows.lookup text = some document := by
  show (rows.lookup text).elim _ _ = _ ↔ _
  cases rows.lookup text <;> simp

theorem ofTable_faithful {rows : List (Text × Json)}
    (lines : ∀ row ∈ rows, row.1.dropLast ++ ['\n'] = row.1)
    (known : ∀ row ∈ rows, rows.lookup row.1 = some row.2)
    (nesting : ∀ row ∈ rows, nestsTooDeep false false 0 row.1 = true ↔ 16 < row.2.depth)
    (initial : rows.lookup initialContents = some (documentOf [])) :
    (ofTable rows).Faithful where
  dumped document text _ dumped := by
    obtain ⟨row, found, rfl⟩ := Option.map_eq_some_iff.mp dumped
    have member := List.mem_of_find?_eq_some found
    have equal := List.find?_some found
    rw [lines row member, ofTable_parse, known row member, same_eq document row.2 equal]
  nesting text document parsed := by
    obtain ⟨before, after, rfl, -⟩ := List.lookup_eq_some_iff.mp (ofTable_parse.mp parsed)
    exact nesting (text, document) (by simp)
  initial := ofTable_parse.mpr initial

/-- An entry with a member that the store does not know. -/
def warnedEntry (steamid : Text) : Json.Members :=
  [("actor".toList, .string "server".toList),
    ("created_utc".toList, .string "1970-01-02T00:00:00Z".toList),
    ("expires_utc".toList, .null),
    ("note".toList, .string "warned".toList),
    ("reason".toList, .string "spam".toList),
    ("steamid".toList, .string steamid)]

def laterEntry : Json.Members :=
  [("actor".toList, .string "server".toList),
    ("created_utc".toList, .string "1970-01-02T00:00:00Z".toList),
    ("expires_utc".toList, .string "1970-01-02T01:00:00Z".toList),
    ("reason".toList, .string "aim".toList),
    ("steamid".toList, .string "76561197960265730".toList)]

def siteDocument (entries : List Json.Members) : Json :=
  .object [("bans".toList, .array (entries.map Json.object)), ("schema".toList, .integer one),
    ("site".toList, .string "home".toList)]

def warnedLines (steamid : Text) : Text :=
  "    \x7b\n      \"actor\": \"server\",\n".toList ++
    "      \"created_utc\": \"1970-01-02T00:00:00Z\",\n      \"expires_utc\": null,\n".toList ++
    "      \"note\": \"warned\",\n      \"reason\": \"spam\",\n      \"steamid\": \"".toList ++
    steamid ++ "\"\n    \x7d".toList

def laterLines : Text :=
  ",\n    \x7b\n      \"actor\": \"server\",\n".toList ++
    "      \"created_utc\": \"1970-01-02T00:00:00Z\",\n".toList ++
    "      \"expires_utc\": \"1970-01-02T01:00:00Z\",\n".toList ++
    "      \"reason\": \"aim\",\n      \"steamid\": \"76561197960265730\"\n    \x7d".toList

def siteLines (entries : Text) : Text :=
  "\x7b\n  \"bans\": [\n".toList ++ entries ++
    "\n  ],\n  \"schema\": 1,\n  \"site\": \"home\"\n\x7d\n".toList

/-- The file that somebody wrote, with another spelling of the account. -/
def warnedContents : Text := siteLines (warnedLines "STEAM_0:1:0".toList)

def laterContents : Text := siteLines (warnedLines "76561197960265729".toList ++ laterLines)

def site : Library := ofTable
  [(initialContents, documentOf []),
    (warnedContents, siteDocument [warnedEntry "STEAM_0:1:0".toList]),
    (laterContents, siteDocument [warnedEntry "76561197960265729".toList, laterEntry])]

def laterBan : Mutation := .add 76561197960265730 60 "aim".toList "server".toList 86400

def warnedWorld : World := { disk := { file := .regular warnedContents } }

def warnedLoaded : World := (load site {} warnedWorld).2


set_option maxRecDepth 100000 in
theorem site_faithful : site.Faithful := by
  apply ofTable_faithful
  · decide +kernel
  · simp only [List.forall_mem_cons]
    exact ⟨rfl, rfl, rfl, fun _ none_ => absurd none_ List.not_mem_nil⟩
  · decide +kernel
  · rfl

def siteBan : Label := .mutate laterBan { write := { writes := [.wrote 20, .wrote 1000] } }

def laterWorld : World := ((next site warnedLoaded siteBan).getD warnedLoaded)

theorem site_banned : 76561197960265729 ∈ warnedLoaded.store.bans ∧
    76561197960265729 ∈ laterWorld.store.bans ∧
    warnedLoaded.store.contents = some warnedContents ∧
    laterWorld.store.contents = some laterContents := by
  refine ⟨?_, ?_, ?_, ?_⟩ <;> decide +kernel

theorem site_throughout : Throughout site 76561197960265729 warnedLoaded [siteBan] := by
  intro before after u split ran
  rcases before with _ | ⟨label, rest⟩
  · exact Option.some.inj ran ▸ site_banned.1
  · obtain ⟨rfl, both⟩ := List.cons.inj split
    obtain ⟨rfl, -⟩ := List.append_eq_nil_iff.mp both.symm
    have later : Transition.run (next site) warnedLoaded [siteBan] = some laterWorld := rfl
    exact Option.some.inj (later.symm.trans ran) ▸ site_banned.2.1

/-- A ban is added to a file that somebody else wrote: the other entry, read under another
spelling of its account, keeps the member that the store does not know, and so does the
document. -/
theorem bans_agree_site :
    Transition.run (next site) warnedWorld [.load {}, siteBan] = some laterWorld ∧
      parseBans site warnedContents = .ok warnedLoaded.store.bans ∧
      parseBans site laterContents = .ok laterWorld.store.bans ∧
      (documentIn site laterContents).member "site".toList =
        (documentIn site warnedContents).member "site".toList ∧
      note (documentIn site laterContents) 76561197960265729 "note".toList =
        note (documentIn site warnedContents) 76561197960265729 "note".toList := by
  obtain ⟨-, -, warned, later⟩ := site_banned
  have loaded : Transition.run (next site) { disk := warnedWorld.disk } [.load {}] =
      some warnedLoaded := rfl
  have ran : Transition.run (next site) { disk := warnedWorld.disk } [.load {}, siteBan] =
      some laterWorld := rfl
  have first := (bans_agree site_faithful loaded).1 warnedContents warned
  have second := (bans_agree site_faithful ran).1 laterContents later
  obtain ⟨text, is, top, notes⟩ := first.2.2 [siteBan] laterWorld rfl
  obtain rfl := Option.some.inj (later.symm.trans is)
  exact ⟨ran, first.1, second.1, top _ (by decide), notes _ site_throughout _ (by decide)⟩

end Source2Root.Bans
