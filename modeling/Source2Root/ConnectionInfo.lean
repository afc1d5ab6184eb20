import Mathlib
import Source2Root.Decimal

/-!
# The connection string

`ConnectionInfo` against the grammar that libpq reads its result by: items of a keyword
and a value, where a backslash makes the next byte of a value literal.
-/

set_option autoImplicit false

namespace Source2Root.ConnectionInfo

structure Settings where
  host : Text := "127.0.0.1".toList
  socket : Text := []
  database : Text
  user : Text
  password : Text
  ca : Text := []
  port : Nat := 3306
  timeout : Nat := 3
  tls : Bool := true
deriving DecidableEq, Repr

/-- What the process runs on, and its variable `PGSERVICE`. -/
structure Environment where
  windows : Bool
  service : Option Text

inductive Failure where
  | serviceSet
deriving DecidableEq, Repr

def Failure.message : Failure → String
  | .serviceSet => "PGSERVICE must be unset for configured PostgreSQL connections."

def escaped (c : Char) : Bool := c == '\\' || c == '\''

def option (output : Text) (name : String) (value : Text) : Text :=
  output ++ name.toList ++ "='".toList ++
    value.flatMap (fun c => if escaped c then ['\\', c] else [c]) ++ "' ".toList

def clearedNames : List String :=
  ["sslcert", "sslkey", "sslpassword", "sslcrl", "sslcrldir", "sslkeylogfile", "requirepeer"]

/-- `settings.timeout * 1000`, which is `unsigned`. -/
def Settings.milliseconds (settings : Settings) : Text := decimal (settings.timeout * 1000 % 2 ^ 32)

def connectionInfo (environment : Environment) (settings : Settings) : Except Failure Text :=
  if environment.service.isSome then .error .serviceSet
  else
    let info : Text := []
    let info := option info "host"
      (if settings.socket.isEmpty then settings.host else settings.socket)
    let info := option info "hostaddr" []
    let info := option info "port" (decimal settings.port)
    let info := option info "dbname" settings.database
    let info := option info "user" settings.user
    let info := option info "password" settings.password
    let info := option info "passfile"
      (if environment.windows then "NUL".toList else "/dev/null".toList)
    let info := option info "client_encoding" "UTF8".toList
    let info := option info "application_name" "Source2Root".toList
    let info := option info "connect_timeout" (decimal settings.timeout)
    let info := option info "options" ("-c statement_timeout=".toList ++ settings.milliseconds ++
      " -c lock_timeout=".toList ++ settings.milliseconds)
    let info := option info "sslmode"
      (if settings.tls then "verify-full".toList else "disable".toList)
    let info := option info "sslrootcert"
      (if settings.tls then (if settings.ca.isEmpty then "system".toList else settings.ca) else [])
    let info := option info "sslcertmode" "disable".toList
    let info := clearedNames.foldl (fun info name => option info name []) info
    let info := option info "ssl_min_protocol_version" "TLSv1.2".toList
    let info := option info "ssl_max_protocol_version" []
    let info := option info "sslnegotiation" "postgres".toList
    let info := option info "sslcompression" "0".toList
    let info := option info "sslsni" "1".toList
    let info := option info "gssencmode" "disable".toList
    let info := option info "gssdelegation" "0".toList
    let info := option info "channel_binding" "prefer".toList
    let info := option info "require_auth" "scram-sha-256,md5,password,none".toList
    let info := option info "target_session_attrs" "any".toList
    let info := option info "load_balance_hosts" "disable".toList
    let info := option info "min_protocol_version" "3.0".toList
    let info := option info "max_protocol_version" "latest".toList
    .ok info

/-! ## The grammar of libpq -/

def nul : Char := Char.ofNat 0

/-- The string as the callee sees it, behind a pointer. -/
def cString (text : Text) : Text := text.takeWhile (· != nul)

def blank (c : Char) : Bool :=
  c == ' ' || c == '\t' || c == '\n' || c == '\r' || c == '\x0c' || c == '\x0b'

/-- A value in quotes, and what is left behind its closing quote. -/
def quotedValue (value : Text) : Text → Option (Text × Text)
  | [] => none
  | ['\\'] => none
  | '\\' :: c :: rest => quotedValue (value ++ [c]) rest
  | '\'' :: rest => some (value, rest)
  | c :: rest => quotedValue (value ++ [c]) rest

/-- A value without quotes, up to a blank. -/
def bareValue (value : Text) : Text → Text × Text
  | [] => (value, [])
  | ['\\'] => (value, [])
  | '\\' :: c :: rest => bareValue (value ++ [c]) rest
  | c :: rest => if blank c then (value, rest) else bareValue (value ++ [c]) rest

def keywordByte (c : Char) : Bool := c != '=' && !blank c

/-- The keyword, its equals sign and its value; blanks may stand around the sign. -/
def item (text : Text) : Option ((Text × Text) × Text) :=
  let keyword := text.takeWhile keywordByte
  match (text.dropWhile keywordByte).dropWhile blank with
  | '=' :: rest =>
      match rest.dropWhile blank with
      | '\'' :: rest => (quotedValue [] rest).map fun out => ((keyword, out.1), out.2)
      | rest => some ((keyword, (bareValue [] rest).1), (bareValue [] rest).2)
  | _ => none

theorem quotedValue_left {value text : Text} {out : Text × Text}
    (read : quotedValue value text = some out) : out.2.length ≤ text.length := by
  fun_induction quotedValue value text with
  | case1 value => cases read
  | case2 value => cases read
  | case3 value c rest ih =>
      have shorter := ih read
      simp only [List.length_cons]
      omega
  | case4 value rest =>
      cases read
      exact Nat.le_succ _
  | case5 value c rest _ _ _ ih =>
      have shorter := ih read
      rw [List.length_cons]
      omega

theorem bareValue_left (value text : Text) : (bareValue value text).2.length ≤ text.length := by
  fun_induction bareValue value text with
  | case1 value => exact le_refl _
  | case2 value => exact Nat.zero_le _
  | case3 value c rest ih =>
      simp only [List.length_cons]
      omega
  | case4 value c rest _ _ isBlank => exact Nat.le_succ _
  | case5 value c rest _ _ noBlank ih =>
      rw [List.length_cons]
      omega

theorem item_left {text : Text} {out : (Text × Text) × Text} (read : item text = some out) :
    out.2.length < text.length := by
  unfold item at read
  have first := (List.dropWhile_suffix (l := text) keywordByte).length_le
  have second := (List.dropWhile_suffix (l := text.dropWhile keywordByte) blank).length_le
  split at read
  · rename_i rest sign
    have third := (List.dropWhile_suffix (l := rest) blank).length_le
    rw [sign, List.length_cons] at second
    split at read
    · rename_i value quoted
      rw [quoted, List.length_cons] at third
      obtain ⟨found, is, rfl⟩ := Option.map_eq_some_iff.mp read
      have fourth := quotedValue_left is
      simp only
      omega
    · cases read
      have fourth := bareValue_left [] (rest.dropWhile blank)
      simp only
      omega
  · cases read

/-- All the items of a string, unless one is none. -/
def items (text : Text) : Option (List (Text × Text)) :=
  match _ : text.dropWhile blank with
  | [] => some []
  | c :: rest =>
      match _ : item (c :: rest) with
      | none => none
      | some out => (items out.2).map (out.1 :: ·)
  termination_by text.length
  decreasing_by
    have first := (List.dropWhile_suffix (l := text) blank).length_le
    rename_i opened found
    have second := item_left found
    rw [opened] at first
    omega

/-! ## What libpq reads -/

/-- The options that the settings ask for. -/
def Settings.intended (settings : Settings) (windows : Bool) : List (String × Text) :=
  [("host", if settings.socket = [] then settings.host else settings.socket), ("hostaddr", []),
    ("port", decimal settings.port), ("dbname", settings.database), ("user", settings.user),
    ("password", settings.password),
    ("passfile", if windows then "NUL".toList else "/dev/null".toList),
    ("client_encoding", "UTF8".toList), ("application_name", "Source2Root".toList),
    ("connect_timeout", decimal settings.timeout),
    ("options", "-c statement_timeout=".toList ++ settings.milliseconds ++
      " -c lock_timeout=".toList ++ settings.milliseconds),
    ("sslmode", if settings.tls then "verify-full".toList else "disable".toList),
    ("sslrootcert", if settings.tls then
      (if settings.ca = [] then "system".toList else settings.ca) else []),
    ("sslcertmode", "disable".toList), ("sslcert", []), ("sslkey", []), ("sslpassword", []),
    ("sslcrl", []), ("sslcrldir", []), ("sslkeylogfile", []), ("requirepeer", []),
    ("ssl_min_protocol_version", "TLSv1.2".toList), ("ssl_max_protocol_version", []),
    ("sslnegotiation", "postgres".toList), ("sslcompression", "0".toList), ("sslsni", "1".toList),
    ("gssencmode", "disable".toList), ("gssdelegation", "0".toList),
    ("channel_binding", "prefer".toList),
    ("require_auth", "scram-sha-256,md5,password,none".toList),
    ("target_session_attrs", "any".toList), ("load_balance_hosts", "disable".toList),
    ("min_protocol_version", "3.0".toList), ("max_protocol_version", "latest".toList)]

def escape (value : Text) : Text := value.flatMap fun c => if escaped c then ['\\', c] else [c]

def itemText (name : Text) (value : Text) : Text :=
  name ++ '=' :: '\'' :: (escape value ++ ['\'', ' '])

theorem option_eq (output : Text) (name : String) (value : Text) :
    option output name value = output ++ itemText name.toList value := by
  simp [option, itemText, escape]

theorem connectionInfo_eq (environment : Environment) (settings : Settings)
    (unset : environment.service = none) :
    connectionInfo environment settings =
      .ok ((settings.intended environment.windows).flatMap fun entry =>
        itemText entry.1.toList entry.2) := by
  simp only [connectionInfo, unset, Option.isSome_none, Bool.false_eq_true, if_false,
    Settings.intended, clearedNames, List.foldl_cons, List.foldl_nil, option_eq,
    List.isEmpty_iff, List.flatMap_cons, List.flatMap_nil, List.append_assoc, List.append_nil,
    List.nil_append]

theorem quotedValue_escape (rest : Text) (text : Text) : ∀ value : Text,
    quotedValue value (escape text ++ '\'' :: rest) = some (value ++ text, rest) := by
  induction text with
  | nil =>
      intro value
      rw [List.append_nil]
      rfl
  | cons c text ih =>
      intro value
      have joined : value ++ c :: text = (value ++ [c]) ++ text := by simp
      rw [joined, ← ih (value ++ [c]), escape, List.flatMap_cons, ← escape]
      split
      · rfl
      · rename_i plain
        simp only [escaped, Bool.or_eq_true, beq_iff_eq, not_or] at plain
        rw [List.singleton_append, List.cons_append, quotedValue]
        · exact fun is _ => plain.1 is
        · exact fun d left is _ => plain.1 is
        · exact plain.2

/-- A keyword that the grammar reads whole. -/
def Keyword (name : Text) : Prop := name ≠ [] ∧ name.all keywordByte = true

theorem item_text {name : Text} (keyword : Keyword name) (value rest : Text) :
    item (itemText name value ++ rest) = some ((name, value), ' ' :: rest) := by
  obtain ⟨-, all⟩ := keyword
  have whole : itemText name value ++ rest =
      name ++ '=' :: '\'' :: (escape value ++ '\'' :: ' ' :: rest) := by simp [itemText]
  have plain : ∀ c ∈ name, keywordByte c = true := List.all_eq_true.mp all
  have taken : (name ++ '=' :: '\'' :: (escape value ++ '\'' :: ' ' :: rest)).takeWhile
      keywordByte = name := by
    rw [List.takeWhile_append_of_pos plain, List.takeWhile_cons_of_neg (by decide),
      List.append_nil]
  have dropped : (name ++ '=' :: '\'' :: (escape value ++ '\'' :: ' ' :: rest)).dropWhile
      keywordByte = '=' :: '\'' :: (escape value ++ '\'' :: ' ' :: rest) := by
    rw [List.dropWhile_append_of_pos plain, List.dropWhile_cons_of_neg (by decide)]
  unfold item
  rw [whole, taken, dropped, List.dropWhile_cons_of_neg (by decide)]
  simp only
  rw [List.dropWhile_cons_of_neg (by decide)]
  simp only [quotedValue_escape, Option.map_some, List.nil_append]

theorem items_nil {text : Text} (empty : text.dropWhile blank = []) : items text = some [] := by
  rw [items.eq_def]
  split
  · rfl
  · rename_i c rest opened
    rw [empty] at opened
    cases opened

theorem items_item {text behind : Text} {out : (Text × Text) × Text}
    (opened : text.dropWhile blank = behind) (found : item behind = some out) :
    items text = (items out.2).map (out.1 :: ·) := by
  rw [items.eq_def]
  split
  · rename_i empty
    rw [opened] at empty
    rw [empty] at found
    cases found
  · rename_i c rest is
    rw [opened] at is
    split
    · rename_i none
      rw [← is, found] at none
      cases none
    · rename_i other is'
      rw [← is, found] at is'
      cases is'
      rfl

theorem keyword_head {name : Text} (keyword : Keyword name) (value rest : Text) :
    (itemText name value ++ rest).dropWhile blank = itemText name value ++ rest := by
  obtain ⟨filled, all⟩ := keyword
  cases name with
  | nil => exact absurd rfl filled
  | cons c name =>
      rw [List.all_cons, Bool.and_eq_true] at all
      have noBlank : blank c = false := by
        have first := all.1
        simp only [keywordByte, Bool.and_eq_true, Bool.not_eq_true'] at first
        exact first.2
      exact List.dropWhile_cons_of_neg (by rw [noBlank]; exact Bool.false_ne_true)

/-- Items read back as they were written, with a blank in front or without. -/
theorem items_text (entries : List (String × Text))
    (keywords : ∀ entry ∈ entries, Keyword entry.1.toList) :
    let text := entries.flatMap fun entry => itemText entry.1.toList entry.2
    let read := entries.map fun entry => (entry.1.toList, entry.2)
    items text = some read ∧ items (' ' :: text) = some read := by
  induction entries with
  | nil => exact ⟨items_nil rfl, items_nil rfl⟩
  | cons entry rest ih =>
      obtain ⟨here, later⟩ := List.forall_mem_cons.mp keywords
      obtain ⟨-, behind⟩ := ih later
      have head := keyword_head here entry.2
        (rest.flatMap fun entry => itemText entry.1.toList entry.2)
      have first := item_text here entry.2
        (rest.flatMap fun entry => itemText entry.1.toList entry.2)
      simp only [List.flatMap_cons, List.map_cons]
      constructor
      · rw [items_item head first, behind]
        rfl
      · have opened := (List.dropWhile_cons_of_pos (p := blank) (a := ' ') rfl).trans head
        rw [items_item opened first, behind]
        rfl

theorem intended_keywords (settings : Settings) (windows : Bool) :
    ∀ entry ∈ settings.intended windows, Keyword entry.1.toList := by
  have names : ∀ name ∈ (settings.intended windows).map Prod.fst, Keyword name.toList := by
    have all : ((settings.intended windows).map Prod.fst).all
        (fun name => name.toList ≠ [] && name.toList.all keywordByte) = true := by
      simp only [Settings.intended, List.map_cons, List.map_nil]
      decide
    intro name within
    have fine := List.all_eq_true.mp all name within
    simpa [Keyword] using fine
  intro entry within
  exact names entry.1 (List.mem_map_of_mem within)

/-- No byte of a text is NUL. -/
def NulFree (text : Text) : Prop := nul ∉ text

structure Settings.NulFree (settings : Settings) : Prop where
  host : ConnectionInfo.NulFree settings.host
  socket : ConnectionInfo.NulFree settings.socket
  database : ConnectionInfo.NulFree settings.database
  user : ConnectionInfo.NulFree settings.user
  password : ConnectionInfo.NulFree settings.password
  ca : ConnectionInfo.NulFree settings.ca

theorem decimal_nulFree (n : Nat) : NulFree (decimal n) := by
  intro within
  exact absurd (decimal_digits n nul within) (by decide)

theorem itemText_nulFree {name value : Text} (keyword : NulFree name) (fine : NulFree value) :
    NulFree (itemText name value) := by
  have body : NulFree (escape value) := by
    intro within
    obtain ⟨c, inside, is⟩ := List.mem_flatMap.mp within
    split at is
    · rcases List.mem_cons.mp is with slash | last
      · exact absurd slash (by decide)
      · rw [List.mem_singleton] at last
        exact fine (last ▸ inside)
    · rw [List.mem_singleton] at is
      exact fine (is ▸ inside)
  unfold NulFree at *
  have quote : nul ≠ '\'' := by decide
  have blank : nul ≠ ' ' := by decide
  have sign : nul ≠ '=' := by decide
  simp [itemText, keyword, body, quote, blank, sign]

theorem nulFree_append {first second : Text} (one : NulFree first) (two : NulFree second) :
    NulFree (first ++ second) := by
  intro within
  rcases List.mem_append.mp within with before | behind
  · exact one before
  · exact two behind

theorem nulFree_of_all {text : Text} (all : text.all (· != nul) = true) : NulFree text := by
  intro within
  have clash := List.all_eq_true.mp all nul within
  simp at clash

theorem intended_nulFree {settings : Settings} (fine : settings.NulFree) (windows : Bool) :
    ∀ entry ∈ settings.intended windows, NulFree entry.2 := by
  have literal : ∀ text : Text, text.all (· != nul) = true → NulFree text :=
    fun _ => nulFree_of_all
  have options : NulFree ("-c statement_timeout=".toList ++ settings.milliseconds ++
      " -c lock_timeout=".toList ++ settings.milliseconds) :=
    nulFree_append (nulFree_append (nulFree_append (literal _ (by decide)) (decimal_nulFree _))
      (literal _ (by decide))) (decimal_nulFree _)
  have host : NulFree (if settings.socket = [] then settings.host else settings.socket) := by
    split
    · exact fine.host
    · exact fine.socket
  have passfile : NulFree (if windows then "NUL".toList else "/dev/null".toList) := by
    split <;> exact literal _ (by decide)
  have mode : NulFree (if settings.tls then "verify-full".toList else "disable".toList) := by
    split <;> exact literal _ (by decide)
  have root : NulFree (if settings.tls then
      (if settings.ca = [] then "system".toList else settings.ca) else []) := by
    split
    · split
      · exact literal _ (by decide)
      · exact fine.ca
    · exact literal _ (by decide)
  simp only [Settings.intended, List.forall_mem_cons, List.not_mem_nil, false_implies,
    implies_true, and_true]
  exact ⟨host, literal _ (by decide), decimal_nulFree _, fine.database, fine.user, fine.password,
    passfile, literal _ (by decide), literal _ (by decide), decimal_nulFree _, options, mode, root,
    literal _ (by decide), literal _ (by decide), literal _ (by decide), literal _ (by decide),
    literal _ (by decide), literal _ (by decide), literal _ (by decide), literal _ (by decide),
    literal _ (by decide), literal _ (by decide), literal _ (by decide), literal _ (by decide),
    literal _ (by decide), literal _ (by decide), literal _ (by decide), literal _ (by decide),
    literal _ (by decide), literal _ (by decide), literal _ (by decide), literal _ (by decide),
    literal _ (by decide)⟩

theorem intended_names_nulFree (settings : Settings) (windows : Bool) :
    ∀ entry ∈ settings.intended windows, NulFree entry.1.toList := by
  have all : ((settings.intended windows).map Prod.fst).all
      (fun name => name.toList.all (· != nul)) = true := by
    simp only [Settings.intended, List.map_cons, List.map_nil]
    decide
  intro entry within
  exact nulFree_of_all (List.all_eq_true.mp all entry.1 (List.mem_map_of_mem within))

theorem cString_nulFree {text : Text} (fine : NulFree text) : cString text = text := by
  refine List.takeWhile_eq_self_iff.mpr ?_
  intro c within
  rw [bne_iff_ne]
  rintro rfl
  exact fine within

/-- Whatever the settings are, libpq reads back each intended option once, with its
value, and nothing else. -/
theorem connectionInfo_injection_free (environment : Environment) (settings : Settings)
    (fine : settings.NulFree) (unset : environment.service = none) :
    ∃ info, connectionInfo environment settings = .ok info ∧
      items (cString info) = some ((settings.intended environment.windows).map
        fun entry => (entry.1.toList, entry.2)) ∧
      ((settings.intended environment.windows).map Prod.fst).Nodup := by
  refine ⟨_, connectionInfo_eq environment settings unset, ?_, ?_⟩
  · have whole : NulFree ((settings.intended environment.windows).flatMap fun entry =>
        itemText entry.1.toList entry.2) := by
      intro within
      obtain ⟨entry, among, inside⟩ := List.mem_flatMap.mp within
      exact itemText_nulFree (intended_names_nulFree settings environment.windows entry among)
        (intended_nulFree fine environment.windows entry among) inside
    rw [cString_nulFree whole]
    exact (items_text _ (intended_keywords settings environment.windows)).1
  · simp only [Settings.intended, List.map_cons, List.map_nil]
    decide

theorem connectionInfo_injection_free_quote :
    ∃ info, connectionInfo ⟨false, none⟩
        { database := ['d'], user := ['u'], password := "' host='elsewhere".toList } = .ok info ∧
      (items (cString info)).isSome = true := by
  obtain ⟨info, is, read, -⟩ := connectionInfo_injection_free ⟨false, none⟩
    { database := ['d'], user := ['u'], password := "' host='elsewhere".toList }
    ⟨by unfold NulFree; decide, by unfold NulFree; decide, by unfold NulFree; decide,
      by unfold NulFree; decide, by unfold NulFree; decide, by unfold NulFree; decide⟩ rfl
  exact ⟨info, is, by rw [read]; rfl⟩

end Source2Root.ConnectionInfo
