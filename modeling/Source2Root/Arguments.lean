import Source2Root.Json

/-!
# Arguments of a command

`ParseArguments`, and the texts it accepts: arguments with blanks between them,
each either bare or in quotes, where a backslash escapes a quote or a backslash
and is an ordinary byte before anything else.
-/

set_option autoImplicit false

namespace Source2Root.Arguments

def maxText : Nat := 1024

def maxArguments : Nat := 32

def maxArgument : Nat := 256

inductive Failure where
  | invalidSyntax
  | tooMany
  | misplacedQuote
  | tooLong
  | unterminated
deriving DecidableEq, Repr

def Failure.message : Failure → String
  | .invalidSyntax => "Invalid command syntax."
  | .tooMany => "Too many arguments (maximum 32)."
  | .misplacedQuote => "Quotes must surround a complete argument."
  | .tooLong => "An argument exceeds 256 bytes."
  | .unterminated => "Unterminated quoted argument."

def forbidden (c : Char) : Bool := c.toNat < 32 || c.toNat == 127 || c == ';'

/-- `token += c`, with the check of the length. -/
def append (token : Text) (c : Char) : Except Failure Text :=
  if token.length + 1 > maxArgument then .error .tooLong else .ok (token ++ [c])

def escapable (c : Char) : Bool := c == '\\' || c == '"'

/-- The inner loop: the argument, and what is left behind it.  The blank that ends
a bare argument is consumed, the one behind a closing quote is not. -/
def scan (quoted : Bool) (token : Text) : Text → Except Failure (Text × Text)
  | [] => if quoted then .error .unterminated else .ok (token, [])
  | c :: rest =>
      if c = '"' then
        if !quoted || (rest.head?.any (· != ' ')) then .error .misplacedQuote
        else .ok (token, rest)
      else if !quoted && c == ' ' then .ok (token, rest)
      else
        match rest with
        | [] => do
            let token ← append token c
            scan quoted token []
        | d :: rest =>
            if c == '\\' && escapable d then do
              let token ← append token d
              scan quoted token rest
            else do
              let token ← append token c
              scan quoted token (d :: rest)

theorem append_eq_ok {token longer : Text} {c : Char} :
    append token c = .ok longer ↔ longer = token ++ [c] ∧ longer.length ≤ maxArgument := by
  unfold append
  split
  · rename_i long
    constructor
    · intro is
      cases is
    · rintro ⟨rfl, short⟩
      rw [List.length_append, List.length_singleton] at short
      omega
  · rename_i short
    constructor
    · intro is
      cases is
      refine ⟨rfl, ?_⟩
      rw [List.length_append, List.length_singleton]
      omega
    · rintro ⟨rfl, -⟩
      rfl

/-- Something is consumed, if there is something. -/
theorem scan_shorter {quoted : Bool} {token text out left : Text}
    (scanned : scan quoted token text = .ok (out, left)) : left.length ≤ text.length - 1 := by
  fun_induction scan quoted token text with
  | case1 token isQuoted => cases scanned
  | case2 token bare =>
      cases scanned
      exact le_refl _
  | case3 token rest misplaced => cases scanned
  | case4 token rest closing =>
      cases scanned
      exact le_refl _
  | case5 token c rest noQuote blank =>
      cases scanned
      exact le_refl _
  | case6 token c noQuote noBlank ih =>
      obtain ⟨longer, -, scanned⟩ := bind_eq_ok.mp scanned
      exact ih longer scanned
  | case7 token c noQuote noBlank d rest escaped ih =>
      obtain ⟨longer, -, scanned⟩ := bind_eq_ok.mp scanned
      have shorter := ih longer scanned
      simp only [List.length_cons]
      omega
  | case8 token c noQuote noBlank d rest plain ih =>
      obtain ⟨longer, -, scanned⟩ := bind_eq_ok.mp scanned
      have shorter := ih longer scanned
      simp only [List.length_cons] at shorter ⊢
      omega

/-- The outer loop. -/
def loop (result : List Text) : Text → Except Failure (List Text)
  | [] => .ok result
  | c :: rest =>
      if c = ' ' then loop result rest
      else if result.length = maxArguments then .error .tooMany
      else
        match _ : scan (c == '"') [] (if c = '"' then rest else c :: rest) with
        | .error failure => .error failure
        | .ok (token, left) => loop (result ++ [token]) left
  termination_by text => text.length
  decreasing_by
    · simp
    · rename_i scanned
      have shorter := scan_shorter scanned
      split at shorter
      · rw [List.length_cons]
        omega
      · rw [List.length_cons] at shorter ⊢
        omega

def parseArguments (text : Text) : Except Failure (List Text) :=
  if text.length > maxText || text.any forbidden then .error .invalidSyntax else loop [] text

/-! ## The texts of arguments -/

/-- A byte of an argument, as it is or behind a backslash. -/
inductive Letter where
  | plain (c : Char)
  | escaped (c : Char)
deriving DecidableEq, Repr

def Letter.value : Letter → Char
  | .plain c => c
  | .escaped c => c

def Letter.text : Letter → Text
  | .plain c => [c]
  | .escaped c => ['\\', c]

def lettersText (letters : List Letter) : Text := letters.flatMap Letter.text

/-- The letters of an argument, before what follows them. -/
def Lettered (quoted : Bool) : List Letter → Text → Prop
  | [], _ => True
  | .plain c :: rest, next =>
      c ≠ '"' ∧ (quoted = false → c ≠ ' ') ∧
        (c = '\\' → ∀ d, (lettersText rest ++ next).head? = some d → escapable d = false) ∧
        Lettered quoted rest next
  | .escaped c :: rest, next => escapable c = true ∧ Lettered quoted rest next

/-- The end of an argument, and what is left behind it. -/
def Ends (quoted : Bool) (next left : Text) : Prop :=
  if quoted then next = '"' :: left ∧ ∀ d, left.head? = some d → d = ' '
  else (next = [] ∧ left = []) ∨ next = ' ' :: left

theorem scan_plain {quoted : Bool} {token rest : Text} {c : Char} (noQuote : c ≠ '"')
    (noBlank : quoted = false → c ≠ ' ')
    (bare : c = '\\' → ∀ d, rest.head? = some d → escapable d = false) :
    scan quoted token (c :: rest) = append token c >>= fun longer => scan quoted longer rest := by
  have inside : ¬ (!quoted && c == ' ') = true := by
    intro both
    simp only [Bool.and_eq_true, Bool.not_eq_true', beq_iff_eq] at both
    exact noBlank both.1 both.2
  rw [scan.eq_def]
  simp only [if_neg noQuote, if_neg inside]
  cases rest with
  | nil => rfl
  | cons d rest =>
      have plain : ¬ (c == '\\' && escapable d) = true := by
        intro both
        simp only [Bool.and_eq_true, beq_iff_eq] at both
        rw [bare both.1 d rfl] at both
        cases both.2
      simp only [if_neg plain]

theorem scan_escaped {quoted : Bool} {token rest : Text} {c : Char} (escaped : escapable c = true) :
    scan quoted token ('\\' :: c :: rest) =
      append token c >>= fun longer => scan quoted longer rest := by
  rw [scan.eq_def]
  simp [escaped]

theorem scan_of_letters {quoted : Bool} (letters : List Letter) :
    ∀ {token next left : Text}, Lettered quoted letters next → Ends quoted next left →
      (token ++ letters.map Letter.value).length ≤ maxArgument →
      scan quoted token (lettersText letters ++ next) = .ok (token ++ letters.map Letter.value, left) := by
  induction letters with
  | nil =>
      intro token next left _ ends short
      rw [List.map_nil, List.append_nil]
      cases quoted with
      | true =>
          obtain ⟨rfl, closed⟩ := ends
          show scan true token ('"' :: left) = _
          have fine : (left.head?.any (· != ' ')) = false := by
            cases head : left.head? with
            | none => rfl
            | some d => simp [closed d head]
          rw [scan.eq_def]
          simp [fine]
      | false =>
          rcases ends with ⟨rfl, rfl⟩ | rfl
          · rfl
          · show scan false token (' ' :: left) = _
            rw [scan.eq_def]
            simp
  | cons letter rest ih =>
      intro token next left lettered ends short
      have step : ∀ c, letter.value = c →
          append token c >>= (fun longer => scan quoted longer (lettersText rest ++ next)) =
            .ok (token ++ (letter :: rest).map Letter.value, left) := by
        rintro c rfl
        have joined : token ++ (letter :: rest).map Letter.value =
            (token ++ [letter.value]) ++ rest.map Letter.value := by
          rw [List.map_cons, List.append_cons]
        rw [joined] at short ⊢
        refine bind_eq_ok.mpr ⟨token ++ [letter.value], append_eq_ok.mpr ⟨rfl, ?_⟩, ?_⟩
        · rw [List.length_append] at short
          omega
        · refine ih ?_ ends short
          cases letter with
          | plain c => exact lettered.2.2.2
          | escaped c => exact lettered.2
      cases letter with
      | plain c =>
          obtain ⟨noQuote, noBlank, bare, -⟩ := lettered
          show scan quoted token (c :: (lettersText rest ++ next)) = _
          rw [scan_plain noQuote noBlank bare]
          exact step c rfl
      | escaped c =>
          show scan quoted token ('\\' :: c :: (lettersText rest ++ next)) = _
          rw [scan_escaped lettered.1]
          exact step c rfl

theorem letters_of_scan {quoted : Bool} {token text out left : Text}
    (scanned : scan quoted token text = .ok (out, left)) (short : token.length ≤ maxArgument) :
    ∃ letters next, text = lettersText letters ++ next ∧ Lettered quoted letters next ∧
      Ends quoted next left ∧ out = token ++ letters.map Letter.value ∧
      out.length ≤ maxArgument := by
  fun_induction scan quoted token text with
  | case1 token isQuoted => cases scanned
  | case2 token bare =>
      cases scanned
      refine ⟨[], [], rfl, trivial, ?_, (List.append_nil _).symm, short⟩
      rw [Ends, if_neg bare]
      exact Or.inl ⟨rfl, rfl⟩
  | case3 token rest misplaced => cases scanned
  | case4 token rest closing =>
      cases scanned
      simp only [Bool.or_eq_true, Bool.not_eq_true', not_or, Bool.not_eq_false,
        Option.any_eq_true, bne_iff_ne, not_exists, not_and, not_not] at closing
      obtain ⟨rfl, closed⟩ := closing
      exact ⟨[], '"' :: left, rfl, trivial, ⟨rfl, closed⟩, (List.append_nil _).symm, short⟩
  | case5 token c rest noQuote blank =>
      cases scanned
      simp only [Bool.and_eq_true, Bool.not_eq_true', beq_iff_eq] at blank
      obtain ⟨rfl, rfl⟩ := blank
      exact ⟨[], ' ' :: left, rfl, trivial, Or.inr rfl, (List.append_nil _).symm, short⟩
  | case6 token c noQuote noBlank ih =>
      obtain ⟨longer, added, scanned⟩ := bind_eq_ok.mp scanned
      obtain ⟨rfl, fits⟩ := append_eq_ok.mp added
      obtain ⟨letters, next, is, lettered, ends, rfl, bounded⟩ := ih _ scanned fits
      refine ⟨.plain c :: letters, next, congrArg (c :: ·) is, ⟨noQuote, ?_, ?_, lettered⟩, ends,
        by simp [Letter.value], bounded⟩
      · rintro rfl rfl
        exact noBlank rfl
      · rintro - d head
        rw [← is] at head
        cases head
  | case7 token c noQuote noBlank d rest escaped ih =>
      obtain ⟨longer, added, scanned⟩ := bind_eq_ok.mp scanned
      obtain ⟨rfl, fits⟩ := append_eq_ok.mp added
      obtain ⟨letters, next, is, lettered, ends, rfl, bounded⟩ := ih _ scanned fits
      simp only [Bool.and_eq_true, beq_iff_eq] at escaped
      obtain ⟨rfl, escaped⟩ := escaped
      exact ⟨.escaped d :: letters, next, congrArg ('\\' :: d :: ·) is, ⟨escaped, lettered⟩, ends,
        by simp [Letter.value], bounded⟩
  | case8 token c noQuote noBlank d rest plain ih =>
      obtain ⟨longer, added, scanned⟩ := bind_eq_ok.mp scanned
      obtain ⟨rfl, fits⟩ := append_eq_ok.mp added
      obtain ⟨letters, next, is, lettered, ends, rfl, bounded⟩ := ih _ scanned fits
      refine ⟨.plain c :: letters, next, congrArg (c :: ·) is, ⟨noQuote, ?_, ?_, lettered⟩, ends,
        by simp [Letter.value], bounded⟩
      · rintro rfl rfl
        exact noBlank rfl
      · rintro rfl e head
        rw [← is, List.head?_cons] at head
        cases head
        simpa using plain

/-! ## The grammar -/

/-- What may follow the letters matters only where it is a byte to escape. -/
theorem Lettered.before {quoted : Bool} {next other : Text} (letters : List Letter)
    (lettered : Lettered quoted letters next)
    (same : ∀ d, other.head? = some d → escapable d = true → next.head? = some d) :
    Lettered quoted letters other := by
  induction letters with
  | nil => trivial
  | cons letter rest ih =>
      cases letter with
      | escaped c => exact ⟨lettered.1, ih lettered.2⟩
      | plain c =>
          obtain ⟨noQuote, noBlank, bare, lettered⟩ := lettered
          refine ⟨noQuote, noBlank, ?_, ih lettered⟩
          intro slash d head
          cases rest with
          | cons letter rest =>
              refine bare slash d ?_
              cases letter <;> exact head
          | nil =>
              cases escaped : escapable d with
              | false => rfl
              | true =>
                  have clash := bare slash d (same d head escaped)
                  rw [escaped] at clash
                  exact clash

/-- An argument as it is written. -/
structure Written where
  quoted : Bool
  letters : List Letter
deriving DecidableEq, Repr

def Written.value (written : Written) : Text := written.letters.map Letter.value

def Written.closing (written : Written) : Text := if written.quoted then ['"'] else []

def Written.text (written : Written) : Text :=
  (if written.quoted then ['"'] else []) ++ lettersText written.letters ++ written.closing

/-- A bare argument is not empty.  The letters of an argument in quotes end before
the quote behind them, so that no backslash escapes it. -/
structure Written.Fine (written : Written) : Prop where
  filled : written.quoted = false → written.letters ≠ []
  lettered : Lettered written.quoted written.letters written.closing

/-- The text of a list of arguments: the end or a blank stands behind each. -/
inductive Laid : Text → List Text → Prop
  | nil : Laid [] []
  | blank {text : Text} {args : List Text} : Laid text args → Laid (' ' :: text) args
  | argument (written : Written) {text : Text} {args : List Text} :
      written.Fine → (∀ d, text.head? = some d → d = ' ') → Laid text args →
        Laid (written.text ++ text) (written.value :: args)

theorem loop_blank (result : List Text) (text : Text) :
    loop result (' ' :: text) = loop result text := by
  rw [loop.eq_def]
  exact if_pos rfl

/-- One turn of the outer loop that reads an argument. -/
theorem loop_argument {result : List Text} {c : Char} {rest token left : Text}
    (noBlank : c ≠ ' ') (room : result.length < maxArguments)
    (scanned : scan (c == '"') [] (if c = '"' then rest else c :: rest) = .ok (token, left)) :
    loop result (c :: rest) = loop (result ++ [token]) left := by
  rw [loop.eq_def]
  simp only [if_neg noBlank, if_neg (Nat.ne_of_lt room)]
  split
  · rename_i failure failed
    rw [scanned] at failed
    cases failed
  · rename_i found after is
    rw [scanned] at is
    cases is
    rfl

/-- The first byte of a bare argument opens no quotes and is no blank. -/
theorem Lettered.opening {letters : List Letter} {next : Text} (filled : letters ≠ [])
    (lettered : Lettered false letters next) :
    ∃ c rest, lettersText letters = c :: rest ∧ c ≠ '"' ∧ c ≠ ' ' := by
  cases letters with
  | nil => exact absurd rfl filled
  | cons letter rest =>
      cases letter with
      | plain c => exact ⟨c, lettersText rest, rfl, lettered.1, lettered.2.1 rfl⟩
      | escaped c =>
          exact ⟨'\\', c :: lettersText rest, rfl, by decide, by decide⟩

theorem loop_written {result : List Text} {written : Written} {text : Text}
    (fine : written.Fine) (after : ∀ d, text.head? = some d → d = ' ')
    (room : result.length < maxArguments) (short : written.value.length ≤ maxArgument) :
    loop result (written.text ++ text) = loop (result ++ [written.value]) text := by
  obtain ⟨quoted, letters⟩ := written
  obtain ⟨filled, lettered⟩ := fine
  simp only [Written.value, Written.text, Written.closing] at filled lettered short ⊢
  cases quoted with
  | true =>
      have scanned : scan true [] (lettersText letters ++ '"' :: text) =
          .ok ([] ++ letters.map Letter.value, text) := by
        refine scan_of_letters letters (lettered.before letters ?_) ⟨rfl, after⟩ short
        intro d head _
        exact head
      simp only [if_true, List.cons_append, List.nil_append, List.append_assoc]
      exact loop_argument (by decide) room scanned
  | false =>
      have plain : Lettered false letters text := by
        refine lettered.before letters ?_
        intro d head escaped
        rw [after d head] at escaped
        cases escaped
      obtain ⟨c, rest, opened, noQuote, noBlank⟩ := plain.opening (filled rfl)
      have turn : ∀ left, Ends false text left →
          loop result (lettersText letters ++ text) =
            loop (result ++ [letters.map Letter.value]) left := by
        intro left ends
        have scanned : scan false [] (lettersText letters ++ text) =
            .ok ([] ++ letters.map Letter.value, left) := scan_of_letters letters plain ends short
        rw [opened, List.cons_append] at scanned ⊢
        refine loop_argument noBlank room ?_
        rw [if_neg noQuote, beq_false_of_ne noQuote]
        exact scanned
      simp only [Bool.false_eq_true, if_false, List.nil_append, List.append_nil]
      cases text with
      | nil => exact turn [] (Or.inl ⟨rfl, rfl⟩)
      | cons d text =>
          obtain rfl := after d rfl
          rw [loop_blank]
          exact turn text (Or.inr rfl)

theorem loop_of_laid {text : Text} {args : List Text} (laid : Laid text args) :
    ∀ {result : List Text}, result.length + args.length ≤ maxArguments →
      (∀ arg ∈ args, arg.length ≤ maxArgument) → loop result text = .ok (result ++ args) := by
  induction laid with
  | nil =>
      intro result _ _
      rw [loop.eq_def, List.append_nil]
  | blank _ ih =>
      intro result few short
      rw [loop_blank]
      exact ih few short
  | argument written fine after _ ih =>
      intro result few short
      rw [List.length_cons] at few
      rw [loop_written fine after (by omega) (short _ (List.mem_cons_self ..)),
        ih (by rw [List.length_append, List.length_singleton]; omega)
          (fun arg within => short arg (List.mem_cons_of_mem _ within)),
        List.append_assoc]
      rfl

theorem laid_of_loop {result out : List Text} {text : Text} (parsed : loop result text = .ok out)
    (few : result.length ≤ maxArguments) :
    ∃ args, out = result ++ args ∧ Laid text args ∧ out.length ≤ maxArguments ∧
      ∀ arg ∈ args, arg.length ≤ maxArgument := by
  fun_induction loop result text with
  | case1 result =>
      cases parsed
      exact ⟨[], (List.append_nil _).symm, .nil, few, by simp⟩
  | case2 result rest ih =>
      obtain ⟨args, is, laid, bounded⟩ := ih parsed few
      exact ⟨args, is, laid.blank, bounded⟩
  | case3 result c rest noBlank full => cases parsed
  | case4 result c rest noBlank room failure scanned => cases parsed
  | case5 result c rest noBlank room token left scanned ih =>
      have fits : (result ++ [token]).length ≤ maxArguments := by
        rw [List.length_append, List.length_singleton]
        omega
      obtain ⟨args, rfl, laid, bounded, short⟩ := ih parsed fits
      obtain ⟨letters, next, is, lettered, ends, rfl, length⟩ :=
        letters_of_scan scanned (Nat.zero_le _)
      refine ⟨letters.map Letter.value :: args, by simp, ?_, bounded, ?_⟩
      · by_cases quote : c = '"'
        · subst quote
          obtain ⟨rfl, closed⟩ := ends
          have text : '"' :: rest = (Written.mk true letters).text ++ left := by
            rw [dif_pos rfl] at is
            simp [is, Written.text, Written.closing]
          rw [text]
          refine .argument ⟨true, letters⟩ ⟨by simp, lettered.before letters ?_⟩ closed laid
          intro d head _
          exact head
        · rw [dif_neg quote] at is
          rw [beq_false_of_ne quote] at lettered ends
          have text : c :: rest = (Written.mk false letters).text ++ next := by
            simp [is, Written.text, Written.closing]
          have filled : letters ≠ [] := by
            rintro rfl
            rcases ends with ⟨rfl, -⟩ | rfl
            · cases is
            · cases is
              exact noBlank rfl
          rw [text]
          refine .argument ⟨false, letters⟩ ⟨fun _ => filled, lettered.before letters ?_⟩ ?_ ?_
          · intro d head _
            cases head
          · rcases ends with ⟨rfl, -⟩ | rfl
            · simp
            · simp
          · rcases ends with ⟨rfl, rfl⟩ | rfl
            · exact laid
            · exact laid.blank
      · intro arg within
        rcases List.mem_cons.mp within with rfl | within
        · exact length
        · exact short arg within

/-! ## Quoting -/

def escape (c : Char) : Letter := if escapable c then .escaped c else .plain c

/-- An argument in quotes, its quotes and backslashes escaped. -/
def quote (arg : Text) : Text := '"' :: lettersText (arg.map escape) ++ ['"']

/-- The arguments in quotes, with one blank more than the number between each and
the next. -/
def joined : List (Text × Nat) → Text
  | [] => []
  | [(arg, _)] => quote arg
  | (arg, blanks) :: rest => quote arg ++ List.replicate (blanks + 1) ' ' ++ joined rest

theorem escape_value (arg : Text) : (arg.map escape).map Letter.value = arg := by
  induction arg with
  | nil => rfl
  | cons c rest ih =>
      rw [List.map_cons, List.map_cons, ih]
      congr 1
      unfold escape
      split <;> rfl

theorem escape_lettered (arg next : Text) : Lettered true (arg.map escape) next := by
  induction arg with
  | nil => trivial
  | cons c rest ih =>
      rw [List.map_cons]
      unfold escape
      split
      · rename_i special
        exact ⟨special, ih⟩
      · rename_i ordinary
        refine ⟨?_, by simp, ?_, ih⟩
        · rintro rfl
          exact ordinary rfl
        · rintro rfl
          exact absurd rfl ordinary

theorem Laid.blanks {text : Text} {args : List Text} (laid : Laid text args) :
    ∀ count, Laid (List.replicate count ' ' ++ text) args := by
  intro count
  induction count with
  | zero => exact laid
  | succ count ih => exact ih.blank

theorem Laid.quoted {text : Text} {args : List Text} (arg : Text)
    (after : ∀ d, text.head? = some d → d = ' ') (laid : Laid text args) :
    Laid (quote arg ++ text) (arg :: args) := by
  have placed := Laid.argument ⟨true, arg.map escape⟩ ⟨by simp, escape_lettered arg _⟩ after laid
  rw [show (Written.mk true (arg.map escape)).value = arg from escape_value arg] at placed
  exact placed

theorem laid_joined (spaced : List (Text × Nat)) :
    Laid (joined spaced) (spaced.map Prod.fst) := by
  fun_induction joined spaced with
  | case1 => exact .nil
  | case2 arg blanks =>
      have placed := Laid.nil.quoted arg (by simp)
      rw [List.append_nil] at placed
      exact placed
  | case3 arg blanks rest more ih =>
      rw [List.append_assoc]
      refine (ih.blanks (blanks + 1)).quoted arg ?_
      intro d head
      exact (Option.some.inj head).symm

/-- No byte of a text is forbidden. -/
def Clean (text : Text) : Prop := ∀ c ∈ text, forbidden c = false

theorem clean_quote {arg : Text} (clean : Clean arg) : Clean (quote arg) := by
  have letters : Clean (lettersText (arg.map escape)) := by
    induction arg with
    | nil => intro c within; cases within
    | cons c rest ih =>
        intro d within
        have here := clean c (List.mem_cons_self ..)
        rw [lettersText, List.map_cons, List.flatMap_cons, List.mem_append] at within
        rcases within with within | within
        · unfold escape at within
          split at within
          · simp only [Letter.text, List.mem_cons, List.not_mem_nil, or_false] at within
            rcases within with rfl | rfl
            · decide
            · exact here
          · simp only [Letter.text, List.mem_singleton] at within
            rw [within]
            exact here
        · exact ih (fun e within => clean e (List.mem_cons_of_mem _ within)) d within
  intro c within
  simp only [quote, List.cons_append, List.mem_cons, List.mem_append, List.not_mem_nil,
    or_false] at within
  rcases within with rfl | within | rfl
  · decide
  · exact letters c within
  · decide

theorem clean_joined {spaced : List (Text × Nat)}
    (clean : ∀ arg ∈ spaced.map Prod.fst, Clean arg) : Clean (joined spaced) := by
  fun_induction joined spaced with
  | case1 => intro c within; cases within
  | case2 arg blanks => exact clean_quote (clean arg (by simp))
  | case3 arg blanks rest more ih =>
      intro c within
      simp only [List.mem_append, List.mem_replicate] at within
      rcases within with (within | ⟨-, rfl⟩) | within
      · exact clean_quote (clean arg (by simp)) c within
      · decide
      · refine ih ?_ c within
        intro other among
        exact clean other (by rw [List.map_cons]; exact List.mem_cons_of_mem _ among)

theorem parseArguments_eq_ok {text : Text} {args : List Text} :
    parseArguments text = .ok args ↔
      text.length ≤ maxText ∧ Clean text ∧ args.length ≤ maxArguments ∧
        (∀ arg ∈ args, arg.length ≤ maxArgument) ∧ Laid text args := by
  have guard : (decide (text.length > maxText) || text.any forbidden) = true ↔
      ¬ (text.length ≤ maxText ∧ Clean text) := by
    simp only [Clean, Bool.or_eq_true, decide_eq_true_eq, List.any_eq_true, not_and_or, not_le,
      not_forall, Bool.not_eq_false, exists_prop, gt_iff_lt]
  unfold parseArguments
  constructor
  · intro parsed
    split at parsed
    · cases parsed
    · rename_i valid
      rw [guard, not_not] at valid
      obtain ⟨found, rfl, laid, few, short⟩ := laid_of_loop parsed (Nat.zero_le _)
      exact ⟨valid.1, valid.2, few, short, laid⟩
  · rintro ⟨small, clean, few, short, laid⟩
    rw [if_neg (by rw [guard, not_not]; exact ⟨small, clean⟩)]
    exact loop_of_laid laid (by rw [List.length_nil, Nat.zero_add]; exact few) short

/-- The text accepted is the grammar's, within its limits; what quoting and joining
yields is read back. -/
theorem parses_its_grammar :
    (∀ (text : Text) (args : List Text), parseArguments text = .ok args ↔
      text.length ≤ maxText ∧ Clean text ∧ args.length ≤ maxArguments ∧
        (∀ arg ∈ args, arg.length ≤ maxArgument) ∧ Laid text args) ∧
    ∀ spaced : List (Text × Nat), spaced.length ≤ maxArguments →
      (∀ arg ∈ spaced.map Prod.fst, arg.length ≤ maxArgument ∧ Clean arg) →
      (joined spaced).length ≤ maxText →
      parseArguments (joined spaced) = .ok (spaced.map Prod.fst) := by
  refine ⟨fun _ _ => parseArguments_eq_ok, ?_⟩
  intro spaced few fine small
  refine parseArguments_eq_ok.mpr ⟨small, clean_joined (fun arg within => (fine arg within).2), ?_,
    fun arg within => (fine arg within).1, laid_joined spaced⟩
  rw [List.length_map]
  exact few

theorem parses_its_grammar_two :
    parseArguments (joined [(['s', 'a', 'y'], 1), (['a', ' ', '"'], 0)]) =
      .ok [['s', 'a', 'y'], ['a', ' ', '"']] := by
  have parsed := parses_its_grammar.2 [(['s', 'a', 'y'], 1), (['a', ' ', '"'], 0)] (by decide)
    (by simp [Clean, forbidden, maxArgument]) (by decide)
  exact parsed

end Source2Root.Arguments
