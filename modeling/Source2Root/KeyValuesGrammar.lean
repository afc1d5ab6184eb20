import Source2Root.KeyValues

/-!
# The texts of entries

A printing is a choice of how to write entries down: which words are quoted,
and what blanks and comments stand between them.  The reader accepts exactly
the printings within its limits, and gives back what was printed.
-/

set_option autoImplicit false

namespace Source2Root.KeyValues

/-! ## What stands between words -/

inductive Filler where
  | blank (c : Char)
  | line (body : Text)
  | block (body : Text)
deriving DecidableEq, Repr

def Filler.text : Filler → Text
  | .blank c => [c]
  | .line body => '/' :: '/' :: (body ++ ['\n'])
  | .block body => '/' :: '*' :: (body ++ ['*', '/'])

def Filler.Fine : Filler → Prop
  | .blank c => KeyValues.blank c = true
  | .line body => '\n' ∉ body
  | .block body => ¬ ['*', '/'] <:+: body

abbrev Gap := List Filler

def Gap.text (gap : Gap) : Text := gap.flatMap Filler.text

def Gap.Fine (gap : Gap) : Prop := ∀ filler ∈ gap, filler.Fine

/-- A comment that the end of the text ends. -/
def Unended (text : Text) : Prop := ∃ body, '\n' ∉ body ∧ text = '/' :: '/' :: body

/-! ## Words -/

inductive Word where
  | quoted (value : Text)
  | bare (value : Text)
deriving DecidableEq, Repr

def Word.value : Word → Text
  | .quoted value => value
  | .bare value => value

/-- A byte inside quotes. -/
def escape (c : Char) : Text :=
  if c = '\n' then ['\\', 'n']
  else if c = '\r' then ['\\', 'r']
  else if c = '\t' then ['\\', 't']
  else if c = '"' then ['\\', '"']
  else if c = '\\' then ['\\', '\\']
  else [c]

def Word.text : Word → Text
  | .quoted value => '"' :: (value.flatMap escape ++ ['"'])
  | .bare value => value

/-- Quotes can hold the byte. -/
def expressible (c : Char) : Bool := !forbidden c || c == '\n' || c == '\r' || c == '\t'

/-- A bare word can hold the byte. -/
def plain (c : Char) : Bool := !forbidden c && c != '"' && !blank c && !brace c

/-- What follows a bare word ends it: the end of the text, a blank, a brace or a
comment, whose slash must not come to stand behind another one. -/
def Stops (value next : Text) : Prop :=
  next = [] ∨ (∃ c rest, next = c :: rest ∧ (blank c || brace c) = true) ∨
    (opensComment next = true ∧ value.getLast? ≠ some '/')

/-- The word may be written like this before the text that follows. -/
def Word.Fine : Word → Text → Prop
  | .quoted value, _ => value.length ≤ maxToken ∧ ∀ c ∈ value, expressible c = true
  | .bare value, next =>
      value ≠ [] ∧ value.length ≤ maxToken ∧ (∀ c ∈ value, plain c = true) ∧
        ¬ ['/', '/'] <:+: value ∧ ¬ ['/', '*'] <:+: value ∧ Stops value next

/-! ## Printings -/

/-- Entries with everything between their words. -/
inductive Layout where
  | done (gap : Gap)
  | value (before : Gap) (name : Word) (between : Gap) (word : Word) (rest : Layout)
  | object (before : Gap) (name : Word) (between : Gap) (children rest : Layout)

def Layout.entries : Layout → Entries
  | .done _ => .nil
  | .value _ name _ word rest => .value name.value word.value rest.entries
  | .object _ name _ children rest => .object name.value children.entries rest.entries

/-- The text up to the one that follows. -/
def Layout.text : Layout → Text → Text
  | .done gap, after => gap.text ++ after
  | .value before name between word rest, after =>
      before.text ++ (name.text ++ (between.text ++ (word.text ++ rest.text after)))
  | .object before name between children rest, after =>
      before.text ++ (name.text ++ (between.text ++
        '\x7b' :: children.text ('\x7d' :: rest.text after)))

/-- The layout may stand in so many objects, before the text that follows. -/
def Layout.Fine : Layout → Nat → Text → Prop
  | .done gap, _, _ => gap.Fine
  | .value before name between word rest, depth, after =>
      before.Fine ∧ name.value ≠ [] ∧
        name.Fine (between.text ++ (word.text ++ rest.text after)) ∧ between.Fine ∧
        word.Fine (rest.text after) ∧ rest.Fine depth after
  | .object before name between children rest, depth, after =>
      before.Fine ∧ name.value ≠ [] ∧
        name.Fine (between.text ++ '\x7b' :: children.text ('\x7d' :: rest.text after)) ∧
        between.Fine ∧ depth < maxDepth ∧
        children.Fine (depth + 1) ('\x7d' :: rest.text after) ∧ rest.Fine depth after

/-- A whole text: a byte-order mark or none, a layout, and what a last comment
without an end of line leaves. -/
structure Printing where
  marked : Bool := false
  layout : Layout
  last : Text := []

def Printing.entries (p : Printing) : Entries := p.layout.entries

def Printing.body (p : Printing) : Text := p.layout.text p.last

def Printing.text (p : Printing) : Text := if p.marked then mark ++ p.body else p.body

/-- The printing is one of these entries within the limits.  A bare first name
that begins like a byte-order mark needs one before it. -/
structure Printing.Fine (p : Printing) : Prop where
  layout : p.layout.Fine 0 p.last
  last : p.last = [] ∨ Unended p.last
  unmarked : p.marked = false → mark.isPrefixOf p.body = false
  few : p.entries.count ≤ maxEntries

/-! ## Skipping -/

/-- Something that is not between tokens begins, or nothing. -/
def Begins : Text → Prop
  | [] => True
  | c :: rest => blank c = false ∧ opensComment (c :: rest) = false

theorem opensComment_cons {c : Char} {rest : Text} :
    opensComment (c :: rest) = true ↔
      c = '/' ∧ (rest.head? = some '/' ∨ rest.head? = some '*') := by
  constructor
  · intro opens
    unfold opensComment at opens
    split at opens
    · rename_i same
      cases same
      simp
    · rename_i same
      cases same
      simp
    · cases opens
  · rintro ⟨rfl, slash | star⟩
    · cases rest with
      | nil => cases slash
      | cons d more =>
          cases Option.some.inj slash
          rfl
    · cases rest with
      | nil => cases star
      | cons d more =>
          cases Option.some.inj star
          rfl

/-- Nothing is skipped at a byte that begins something. -/
theorem skip_begins {text : Text} (begins : Begins text) : skip text = .ok text := by
  unfold skip
  split
  · rfl
  · exact absurd begins.2 (by simp [opensComment])
  · exact absurd begins.2 (by simp [opensComment])
  · rw [if_neg (by simp [begins.1])]

theorem skipLine_ended {body : Text} (oneLine : '\n' ∉ body) (rest : Text) :
    skipLine (body ++ '\n' :: rest) = skip rest := by
  induction body with
  | nil => simp [skipLine]
  | cons c body ih =>
      obtain ⟨here, later⟩ := not_or.mp (List.mem_cons.not.mp oneLine)
      rw [List.cons_append, skipLine, if_neg (Ne.symm here), ih later]

theorem skipLine_unended {body : Text} (oneLine : '\n' ∉ body) : skipLine body = .ok [] := by
  induction body with
  | nil => rfl
  | cons c body ih =>
      obtain ⟨here, later⟩ := not_or.mp (List.mem_cons.not.mp oneLine)
      rw [skipLine, if_neg (Ne.symm here), ih later]

theorem skipBlock_ended {start body : Text} (inside : ¬ ['*', '/'] <:+: body) (rest : Text) :
    skipBlock start (body ++ '*' :: '/' :: rest) = skip rest := by
  induction body with
  | nil => rfl
  | cons c body ih =>
      have later : ¬ ['*', '/'] <:+: body := fun found => inside (found.trans (List.suffix_cons c body).isInfix)
      rw [List.cons_append, skipBlock.eq_3, ih later]
      rintro tail rfl same
      cases body with
      | nil => cases same
      | cons d body =>
          cases (List.cons.inj same).1
          exact inside ⟨[], body, rfl⟩

theorem skip_filler {filler : Filler} (fine : filler.Fine) (rest : Text) :
    skip (filler.text ++ rest) = skip rest := by
  cases filler with
  | blank c =>
      show skip (c :: rest) = skip rest
      have isBlank : blank c = true := fine
      rw [skip.eq_4, if_pos isBlank]
      · rintro more rfl
        simp [blank] at isBlank
      · rintro more rfl
        simp [blank] at isBlank
  | line body =>
      show skip ('/' :: '/' :: (body ++ ['\n'] ++ rest)) = skip rest
      rw [List.append_assoc, skip.eq_2]
      exact skipLine_ended fine rest
  | block body =>
      show skip ('/' :: '*' :: (body ++ ['*', '/'] ++ rest)) = skip rest
      rw [List.append_assoc, skip.eq_3]
      exact skipBlock_ended fine rest

theorem skip_gap {gap : Gap} (fine : gap.Fine) (rest : Text) :
    skip (gap.text ++ rest) = skip rest := by
  induction gap with
  | nil => rfl
  | cons filler gap ih =>
      obtain ⟨here, later⟩ := List.forall_mem_cons.mp fine
      show skip (filler.text ++ Gap.text gap ++ rest) = skip rest
      rw [List.append_assoc, skip_filler here, ih later]

theorem skip_unended {text : Text} (unended : Unended text) : skip text = .ok [] := by
  obtain ⟨body, oneLine, rfl⟩ := unended
  rw [skip]
  exact skipLine_unended oneLine

theorem skipLine_sound {text rest : Text} (skipped : skipLine text = .ok rest) :
    (∃ body more, '\n' ∉ body ∧ text = body ++ '\n' :: more ∧ skip more = .ok rest) ∨
      ('\n' ∉ text ∧ rest = []) := by
  induction text with
  | nil => exact .inr ⟨List.not_mem_nil, (Except.ok.inj skipped).symm⟩
  | cons c text ih =>
      rw [skipLine] at skipped
      by_cases newline : c = '\n'
      · rw [if_pos newline] at skipped
        exact .inl ⟨[], text, List.not_mem_nil, by rw [newline]; rfl, skipped⟩
      · rw [if_neg newline] at skipped
        rcases ih skipped with ⟨body, more, oneLine, rfl, left⟩ | ⟨oneLine, nothing⟩
        · exact .inl ⟨c :: body, more, by simp [oneLine, Ne.symm newline], rfl, left⟩
        · exact .inr ⟨by simp [oneLine, Ne.symm newline], nothing⟩

theorem skipBlock_sound {start text rest : Text} (skipped : skipBlock start text = .ok rest) :
    ∃ body more, ¬ ['*', '/'] <:+: body ∧ text = body ++ '*' :: '/' :: more ∧
      skip more = .ok rest := by
  induction text with
  | nil => cases skipped
  | cons c text ih =>
      by_cases ended : c = '*' ∧ text.head? = some '/'
      · obtain ⟨rfl, slash⟩ := ended
        obtain ⟨more, rfl⟩ := List.head?_eq_some_iff.mp slash
        exact ⟨[], more, by simp, rfl, skipped⟩
      · have other : ∀ more, c = '*' → text = '/' :: more → False := by
          rintro more rfl rfl
          exact ended ⟨rfl, rfl⟩
        rw [skipBlock.eq_3 _ _ _ other] at skipped
        obtain ⟨body, more, inside, rfl, left⟩ := ih skipped
        refine ⟨c :: body, more, ?_, rfl, left⟩
        intro found
        rcases List.infix_cons_iff.mp found with first | later
        · obtain ⟨same, second⟩ := List.cons_prefix_cons.mp first
          cases body with
          | nil => simp at second
          | cons d body =>
              obtain ⟨slash, -⟩ := List.cons_prefix_cons.mp second
              exact ended ⟨same.symm, by rw [← slash]; rfl⟩
        · exact inside later

/-- What was skipped is a gap, and perhaps a comment that the end of the text ends. -/
theorem skip_sound {text rest : Text} (skipped : skip text = .ok rest) :
    ∃ gap : Gap, gap.Fine ∧ (text = gap.text ++ rest ∧ Begins rest ∨
      rest = [] ∧ ∃ last, Unended last ∧ text = gap.text ++ last) := by
  induction size : text.length using Nat.strong_induction_on generalizing text with
  | _ n ih =>
      -- one filler, and the induction for what follows it
      have filled : ∀ (filler : Filler) {more : Text}, filler.Fine → text = filler.text ++ more →
          0 < filler.text.length → skip more = .ok rest → ∃ gap : Gap, gap.Fine ∧
            (text = gap.text ++ rest ∧ Begins rest ∨
              rest = [] ∧ ∃ last, Unended last ∧ text = gap.text ++ last) := by
        intro filler more fine same positive left
        have shorter : more.length < n := by
          rw [← size, same, List.length_append]
          omega
        obtain ⟨gap, gapFine, found⟩ := ih more.length shorter left rfl
        refine ⟨filler :: gap, List.forall_mem_cons.mpr ⟨fine, gapFine⟩, ?_⟩
        have together : Gap.text (filler :: gap) = filler.text ++ gap.text := rfl
        rcases found with ⟨rfl, begins⟩ | ⟨nothing, last, unended, rfl⟩
        · exact .inl ⟨by rw [same, together, List.append_assoc], begins⟩
        · exact .inr ⟨nothing, last, unended, by rw [same, together, List.append_assoc]⟩
      rw [skip.eq_def] at skipped
      split at skipped
      · cases skipped
        exact ⟨[], by simp [Gap.Fine], .inl ⟨rfl, trivial⟩⟩
      · rename_i more
        rcases skipLine_sound skipped with ⟨body, after, oneLine, rfl, left⟩ | ⟨oneLine, nothing⟩
        · exact filled (.line body) oneLine (by simp [Filler.text]) (by simp [Filler.text]) left
        · exact ⟨[], by simp [Gap.Fine], .inr ⟨nothing, _, ⟨more, oneLine, rfl⟩, rfl⟩⟩
      · rename_i more
        obtain ⟨body, after, inside, rfl, left⟩ := skipBlock_sound skipped
        exact filled (.block body) inside (by simp [Filler.text]) (by simp [Filler.text]) left
      · rename_i c more noLine noBlock
        by_cases isBlank : blank c = true
        · rw [if_pos isBlank] at skipped
          exact filled (.blank c) isBlank rfl (by simp [Filler.text]) skipped
        · rw [if_neg isBlank] at skipped
          cases skipped
          refine ⟨[], by simp [Gap.Fine], .inl ⟨rfl, by simpa using isBlank, ?_⟩⟩
          rw [Bool.eq_false_iff]
          intro opens
          obtain ⟨rfl, slash | star⟩ := opensComment_cons.mp opens
          · obtain ⟨tail, rfl⟩ := List.head?_eq_some_iff.mp slash
            exact noLine tail rfl rfl
          · obtain ⟨tail, rfl⟩ := List.head?_eq_some_iff.mp star
            exact noBlock tail rfl rfl

/-! ## Tokens in quotes -/

theorem append_eq_ok {text text' rest : Text} {c : Char} :
    append text c rest = .ok text' ↔ text.length + 1 ≤ maxToken ∧ text' = text ++ [c] := by
  unfold append
  split
  · simp
    omega
  · simp only [Except.ok.injEq]
    constructor
    · rintro rfl
      exact ⟨by omega, rfl⟩
    · rintro ⟨-, rfl⟩
      rfl

theorem appended {text rest : Text} {c : Char} {α : Type} {k : Text → Except Failure α} {a : α}
    (went : (append text c rest >>= k) = .ok a) :
    text.length + 1 ≤ maxToken ∧ k (text ++ [c]) = .ok a := by
  cases added : append text c rest with
  | error failure =>
      rw [added] at went
      cases went
  | ok text' =>
      obtain ⟨short, rfl⟩ := append_eq_ok.mp added
      rw [added] at went
      exact ⟨short, went⟩

/-- A byte that an escape stands for is not written as itself. -/
theorem escape_of_escaped {e c : Char} (known : escaped e = some c) : escape c = ['\\', e] := by
  unfold escaped at known
  split at known <;> cases known <;> decide

theorem expressible_of_escaped {e c : Char} (known : escaped e = some c) :
    expressible c = true := by
  unfold escaped at known
  split at known <;> cases known <;> decide

theorem escape_plain {c : Char} (quote : c ≠ '"') (slash : c ≠ '\\') (fine : forbidden c = false) :
    escape c = [c] := by
  unfold escape
  split_ifs with newline carriage tab
  · subst newline
    cases fine
  · subst carriage
    cases fine
  · subst tab
    cases fine
  · rfl

/-- Either the byte has an escape, or it is written as itself. -/
theorem escape_cases {c : Char} (fine : expressible c = true) :
    (∃ e, escape c = ['\\', e] ∧ escaped e = some c) ∨
      (escape c = [c] ∧ c ≠ '"' ∧ c ≠ '\\' ∧ forbidden c = false) := by
  by_cases quote : c = '"'
  · exact .inl ⟨'"', by rw [quote]; rfl, by rw [quote]; rfl⟩
  · by_cases slash : c = '\\'
    · exact .inl ⟨'\\', by rw [slash]; rfl, by rw [slash]; rfl⟩
    · by_cases raw : forbidden c = false
      · exact .inr ⟨escape_plain quote slash raw, quote, slash, raw⟩
      · have control : c = '\n' ∨ c = '\r' ∨ c = '\t' := by
          simpa [expressible, raw, or_assoc] using fine
        rcases control with rfl | rfl | rfl
        · exact .inl ⟨'n', rfl, rfl⟩
        · exact .inl ⟨'r', rfl, rfl⟩
        · exact .inl ⟨'t', rfl, rfl⟩

theorem quoted_end (text rest : Text) : quoted text ('"' :: rest) = .ok (text, rest) := by
  rw [quoted.eq_def]
  simp

theorem quoted_escape {e c : Char} (known : escaped e = some c) (text rest : Text) :
    quoted text ('\\' :: e :: rest) = (append text c rest).bind fun text => quoted text rest := by
  rw [quoted.eq_def]
  simp only [known, if_neg (show ¬ '\\' = '"' by decide),
    if_neg (show ¬ forbidden '\\' = true by decide), if_true]
  rfl

theorem quoted_raw {c : Char} (quote : c ≠ '"') (slash : c ≠ '\\') (raw : forbidden c = false)
    (text rest : Text) :
    quoted text (c :: rest) = (append text c rest).bind fun text => quoted text rest := by
  rw [quoted.eq_def]
  simp only [if_neg quote, raw, if_neg slash]
  rfl

theorem quoted_complete {value : Text} (fine : ∀ c ∈ value, expressible c = true) (rest : Text) :
    ∀ text : Text, text.length + value.length ≤ maxToken →
      quoted text (value.flatMap escape ++ '"' :: rest) = .ok (text ++ value, rest) := by
  induction value with
  | nil =>
      intro text _
      simpa using quoted_end text rest
  | cons c value ih =>
      intro text short
      obtain ⟨here, later⟩ := List.forall_mem_cons.mp fine
      rw [List.length_cons] at short
      have added : ∀ left, append text c left = .ok (text ++ [c]) := fun left =>
        append_eq_ok.mpr ⟨by omega, rfl⟩
      have next := ih later (text ++ [c]) (by rw [List.length_append, List.length_singleton]; omega)
      rw [List.append_assoc] at next
      rw [List.flatMap_cons, List.append_assoc]
      rcases escape_cases here with ⟨e, written, known⟩ | ⟨written, quote, slash, raw⟩
      · rw [written]
        exact (quoted_escape known text _).trans (by rw [added]; exact next)
      · rw [written]
        exact (quoted_raw quote slash raw text _).trans (by rw [added]; exact next)

/-- One more byte in front of what the rest of the token came to. -/
theorem quoted_step {text source value rest left : Text} {c : Char} {written : Text}
    (fine : expressible c = true) (short : text.length + 1 ≤ maxToken)
    (same : source = written ++ left) (writes : escape c = written)
    (more : ∃ more, value = text ++ [c] ++ more ∧ left = more.flatMap escape ++ '"' :: rest ∧
      (∀ c ∈ more, expressible c = true) ∧
      ((text ++ [c]).length ≤ maxToken → value.length ≤ maxToken)) :
    ∃ more, value = text ++ more ∧ source = more.flatMap escape ++ '"' :: rest ∧
      (∀ c ∈ more, expressible c = true) ∧ (text.length ≤ maxToken → value.length ≤ maxToken) := by
  obtain ⟨more, rfl, rfl, later, bounded⟩ := more
  refine ⟨c :: more, by simp, ?_, List.forall_mem_cons.mpr ⟨fine, later⟩, fun _ => bounded ?_⟩
  · rw [same, List.flatMap_cons, writes, List.append_assoc]
  · simpa using short

theorem quoted_sound {text source value rest : Text}
    (found : quoted text source = .ok (value, rest)) :
    ∃ more, value = text ++ more ∧ source = more.flatMap escape ++ '"' :: rest ∧
      (∀ c ∈ more, expressible c = true) ∧ (text.length ≤ maxToken → value.length ≤ maxToken) := by
  fun_induction quoted text source with
  | case1 => cases found
  | case2 text left =>
      cases found
      exact ⟨[], by simp, rfl, by simp, id⟩
  | case3 => cases found
  | case4 => cases found
  | case5 => cases found
  | case6 text e left c known _ _ ih =>
      obtain ⟨short, next⟩ := appended found
      exact quoted_step (expressible_of_escaped known) short rfl (escape_of_escaped known)
        (ih _ next)
  | case7 text c left quote raw slash ih =>
      obtain ⟨short, next⟩ := appended found
      have fine : forbidden c = false := by simpa using raw
      exact quoted_step (by simp [expressible, fine]) short rfl (escape_plain quote slash fine)
        (ih _ next)

/-! ## Bare tokens -/

/-- The word goes up to its end, byte by byte. -/
def Clear : Text → Text → Prop
  | [], next => ends next = true
  | c :: value, next =>
      ends (c :: (value ++ next)) = false ∧ forbidden c = false ∧ c ≠ '"' ∧ Clear value next

theorem ends_cons {c : Char} {rest : Text} :
    ends (c :: rest) = (blank c || brace c || opensComment (c :: rest)) := rfl

theorem bare_complete {value next : Text} (clear : Clear value next) :
    ∀ text : Text, text ++ value ≠ [] → text.length + value.length ≤ maxToken →
      bare text (value ++ next) = .ok (text ++ value, next) := by
  induction value with
  | nil =>
      intro text filled _
      rw [List.append_nil] at filled ⊢
      rw [List.nil_append]
      cases next with
      | nil => rw [bare, if_neg filled]
      | cons c rest =>
          have ended : ends (c :: rest) = true := clear
          rw [bare, if_pos ended, if_neg filled]
  | cons c value ih =>
      intro text _ short
      obtain ⟨goesOn, raw, quote, later⟩ := clear
      rw [List.length_cons] at short
      have added : append text c (value ++ next) = .ok (text ++ [c]) :=
        append_eq_ok.mpr ⟨by omega, rfl⟩
      have left := ih later (text ++ [c]) (by simp)
        (by rw [List.length_append, List.length_singleton]; omega)
      rw [List.append_assoc] at left
      rw [List.cons_append, bare, if_neg (by simp [goesOn]), if_neg (by simp [raw, quote]), added]
      exact left

theorem bare_sound {text source value next : Text} (found : bare text source = .ok (value, next)) :
    value ≠ [] ∧ ∃ more, value = text ++ more ∧ source = more ++ next ∧ Clear more next ∧
      (text.length ≤ maxToken → value.length ≤ maxToken) := by
  fun_induction bare text source with
  | case1 => cases found
  | case2 text filled =>
      cases found
      exact ⟨filled, [], by simp, rfl, rfl, id⟩
  | case3 => cases found
  | case4 text c rest ended filled =>
      cases found
      exact ⟨filled, [], by simp, rfl, ended, id⟩
  | case5 => cases found
  | case6 text c rest goesOn fine ih =>
      obtain ⟨short, next_⟩ := appended found
      obtain ⟨filled, more, rfl, rfl, clear, bounded⟩ := ih _ next_
      obtain ⟨raw, quote⟩ : forbidden c = false ∧ c ≠ '"' := by simpa using fine
      refine ⟨by simp, c :: more, by simp, rfl, ⟨by simpa using goesOn, raw, quote, clear⟩, ?_⟩
      intro _
      exact bounded (by simpa using short)

theorem infix_cons {a b c : Char} {text : Text} :
    [a, b] <:+: c :: text ↔ (a = c ∧ text.head? = some b) ∨ [a, b] <:+: text := by
  rw [List.infix_cons_iff, List.cons_prefix_cons]
  refine or_congr_left (and_congr_right fun _ => ?_)
  cases text with
  | nil => simp
  | cons d rest => simp [eq_comm]

theorem opensComment_eq_false {c : Char} {rest : Text} :
    opensComment (c :: rest) = false ↔
      ¬ (c = '/' ∧ (rest.head? = some '/' ∨ rest.head? = some '*')) := by
  rw [← opensComment_cons, Bool.not_eq_true]

theorem head_of_opensComment {text : Text} (opens : opensComment text = true) :
    text.head? = some '/' := by
  cases text with
  | nil => cases opens
  | cons c rest => rw [(opensComment_cons.mp opens).1]; rfl

/-- The end of a word, told from its last byte. -/
theorem stops_iff {value next : Text} :
    Stops value next ↔ ends next = true ∧ ¬ (value.getLast? = some '/' ∧
      (next.head? = some '/' ∨ next.head? = some '*')) := by
  cases next with
  | nil => simp [Stops, ends]
  | cons c rest =>
      constructor
      · rintro (nothing | ⟨d, more, same, stop⟩ | ⟨opens, last⟩)
        · cases nothing
        · cases same
          refine ⟨by rw [ends_cons, stop, Bool.true_or], ?_⟩
          rintro ⟨-, slash | star⟩
          · cases Option.some.inj slash
            simp [blank, brace] at stop
          · cases Option.some.inj star
            simp [blank, brace] at stop
        · exact ⟨by rw [ends_cons, opens, Bool.or_true], fun glued => last glued.1⟩
      · rintro ⟨ended, apart⟩
        by_cases stop : (blank c || brace c) = true
        · exact .inr (.inl ⟨c, rest, rfl, stop⟩)
        · have opens : opensComment (c :: rest) = true := by
            rw [ends_cons] at ended
            simpa [stop] using ended
          exact .inr (.inr ⟨opens, fun last => apart ⟨last, .inl (head_of_opensComment opens)⟩⟩)

theorem clear_iff {value next : Text} :
    Clear value next ↔ (∀ c ∈ value, plain c = true) ∧ ¬ ['/', '/'] <:+: value ∧
      ¬ ['/', '*'] <:+: value ∧ Stops value next := by
  induction value with
  | nil => simp [Clear, stops_iff]
  | cons c value ih =>
      have here : (ends (c :: (value ++ next)) = false ∧ forbidden c = false ∧ c ≠ '"') ↔
          plain c = true ∧ ¬ (c = '/' ∧
            ((value ++ next).head? = some '/' ∨ (value ++ next).head? = some '*')) := by
        rw [ends_cons, ← opensComment_eq_false]
        simp only [plain, Bool.or_eq_false_iff, Bool.and_eq_true, Bool.not_eq_true', bne_iff_ne]
        tauto
      have step : Clear (c :: value) next ↔ (ends (c :: (value ++ next)) = false ∧
          forbidden c = false ∧ c ≠ '"') ∧ Clear value next := by
        rw [Clear]
        tauto
      rw [step, here, ih, List.forall_mem_cons, infix_cons, infix_cons, stops_iff, stops_iff]
      -- only a slash at the end of what is there so far can glue to what follows
      cases value with
      | nil =>
          by_cases slash : c = '/'
          · subst slash
            simp only [List.nil_append, true_and, List.head?_nil, reduceCtorEq, or_self, and_false,
              false_and, not_false_iff, List.getLast?_nil, List.getLast?_singleton, and_true,
              List.not_mem_nil, false_implies, implies_true, List.infix_nil, List.cons_ne_nil,
              and_assoc]
            exact ⟨fun ⟨a, b, c⟩ => ⟨a, c, b⟩, fun ⟨a, c, b⟩ => ⟨a, b, c⟩⟩
          · simp [slash, Ne.symm slash]
      | cons d rest =>
          by_cases slash : c = '/'
          · subst slash
            simp only [List.cons_append, true_and, List.head?_cons, Option.some.injEq, not_or,
              List.getLast?_cons_cons, and_assoc]
            exact ⟨fun ⟨a, b, c, d, e, f, g⟩ => ⟨a, d, b, e, c, f, g⟩,
              fun ⟨a, d, b, e, c, f, g⟩ => ⟨a, b, c, d, e, f, g⟩⟩
          · simp [slash, Ne.symm slash, and_assoc]

/-! ## Tokens -/

/-- A word begins with something that is neither skipped nor a brace. -/
theorem Word.begins {word : Word} {next : Text} (fine : word.Fine next) :
    ∃ c rest, word.text ++ next = c :: rest ∧ Begins (c :: rest) ∧ brace c = false := by
  cases word with
  | quoted value => exact ⟨'"', value.flatMap escape ++ ['"'] ++ next, rfl, ⟨rfl, rfl⟩, rfl⟩
  | bare value =>
      obtain ⟨filled, -, clear⟩ := fine
      obtain ⟨c, rest, rfl⟩ := List.exists_cons_of_ne_nil filled
      obtain ⟨goesOn, -⟩ := clear_iff.mpr clear
      rw [ends_cons, Bool.or_eq_false_iff, Bool.or_eq_false_iff] at goesOn
      exact ⟨c, rest ++ next, rfl, ⟨goesOn.1.1, goesOn.2⟩, goesOn.1.2⟩

theorem token_complete {word : Word} {next : Text} (fine : word.Fine next) :
    token (word.text ++ next) = .ok (word.value, next) := by
  cases word with
  | quoted value =>
      have read := quoted_complete fine.2 next [] (by simpa using fine.1)
      have same : Word.text (.quoted value) ++ next =
          '"' :: (value.flatMap escape ++ '"' :: next) := by simp [Word.text]
      rw [same, token, if_neg (by decide), if_pos rfl]
      exact read
  | bare value =>
      obtain ⟨filled, short, clear⟩ := fine
      obtain ⟨c, rest, rfl⟩ := List.exists_cons_of_ne_nil filled
      have plainly := clear_iff.mpr clear
      have read := bare_complete plainly [] (by simp) (by simpa using short)
      obtain ⟨goesOn, -, quote, -⟩ := plainly
      rw [ends_cons, Bool.or_eq_false_iff, Bool.or_eq_false_iff] at goesOn
      show token (c :: (rest ++ next)) = _
      rw [token, if_neg (by simp [goesOn.1.2]), if_neg quote]
      exact read

theorem token_sound {source value next : Text} (found : token source = .ok (value, next)) :
    ∃ word : Word, word.Fine next ∧ word.value = value ∧ source = word.text ++ next := by
  cases source with
  | nil => cases found
  | cons c rest =>
      rw [token] at found
      split at found
      · cases found
      · split at found
        · rename_i quote
          obtain ⟨more, read, rfl, fine, bounded⟩ := quoted_sound found
          rw [List.nil_append] at read
          subst read
          refine ⟨.quoted value, ⟨bounded (by decide), fine⟩, rfl, ?_⟩
          simp [Word.text, quote]
        · obtain ⟨filled, more, read, same, clear, bounded⟩ := bare_sound found
          rw [List.nil_append] at read
          subst read
          exact ⟨.bare value, ⟨filled, bounded (by decide), clear_iff.mp clear⟩, rfl, same⟩

/-! ## Entries -/

/-- How the entries of an object, or those of the whole text, end. -/
inductive Ending : Nat → Text → Text → Prop where
  | close (depth : Nat) (rest : Text) : Ending (depth + 1) ('\x7d' :: rest) rest
  | last (after : Text) (unended : after = [] ∨ Unended after) : Ending 0 after []

theorem parse_end {rounds depth count : Nat} {gap : Gap} {after rest : Text} (fine : gap.Fine)
    (ending : Ending depth after rest) :
    parse (rounds + 1) depth count (gap.text ++ after) = .ok (.nil, count, rest) := by
  rw [parse, skip_gap fine]
  cases ending with
  | close depth =>
      have begins : Begins ('\x7d' :: rest) := ⟨rfl, rfl⟩
      rw [skip_begins begins]
      rfl
  | last _ unended =>
      have nothing : skip after = .ok [] := by
        rcases unended with rfl | unended
        · rfl
        · exact skip_unended unended
      rw [nothing]
      rfl

/-- A name was read, and the value is there. -/
theorem parse_name {rounds depth count : Nat} {before between : Gap} {name : Word} {next : Text}
    {c : Char} {rest : Text} (beforeFine : before.Fine)
    (fine : name.Fine (between.text ++ next)) (filled : name.value ≠ []) (betweenFine : between.Fine)
    (few : count + 1 ≤ maxEntries) (starts : next = c :: rest) (begins : Begins (c :: rest)) :
    parse (rounds + 1) depth count (before.text ++ (name.text ++ (between.text ++ next))) =
      if c = '\x7b' then
        if depth + 1 > maxDepth then .error { problem := .tooDeep, rest }
        else do
          let (children, count, rest) ← parse rounds (depth + 1) (count + 1) rest
          let (entries, count, rest) ← parse rounds depth count rest
          .ok (.object name.value children entries, count, rest)
      else (do
        let (value, rest) ← token next
        let (entries, count, rest) ← parse rounds depth (count + 1) rest
        .ok (.value name.value value entries, count, rest)) := by
  subst starts
  obtain ⟨d, tail, same, nameBegins, noBrace⟩ := Word.begins fine
  have notClosing : d ≠ '\x7d' := by
    rintro rfl
    cases noBrace
  have read := token_complete fine
  rw [parse, skip_gap beforeFine, same, skip_begins nameBegins]
  rw [same] at read
  simp only [bind, Except.bind, if_neg notClosing, read, if_neg filled,
    if_neg (Nat.not_lt.mpr few), skip_gap betweenFine, skip_begins begins]

theorem length_word {word : Word} {next : Text} (fine : word.Fine next) : 0 < word.text.length := by
  cases word with
  | quoted value => simp [Word.text]
  | bare value => exact List.length_pos_iff.mpr fine.1

theorem Layout.length_after (layout : Layout) :
    ∀ after : Text, after.length ≤ (layout.text after).length := by
  induction layout with
  | done gap =>
      intro after
      simp [Layout.text]
  | value before name between word more ih =>
      intro after
      have later := ih after
      simp only [Layout.text, List.length_append]
      omega
  | object before name between children more childrenIh moreIh =>
      intro after
      have inside := childrenIh ('\x7d' :: more.text after)
      have later := moreIh after
      simp only [Layout.text, List.length_append, List.length_cons] at inside ⊢
      omega

/-- What a layout prints is read back, with rounds to spare. -/
theorem parse_complete {layout : Layout} : ∀ {rounds depth count : Nat} {after rest : Text},
    layout.Fine depth after → Ending depth after rest → (layout.text after).length < rounds →
      count + layout.entries.count ≤ maxEntries →
      parse rounds depth count (layout.text after) =
        .ok (layout.entries, count + layout.entries.count, rest) := by
  induction layout with
  | done gap =>
      intro rounds depth count after rest fine ending enough _
      obtain ⟨rounds, rfl⟩ := Nat.exists_eq_add_of_lt enough
      exact parse_end fine ending
  | value before name between word more ih =>
      intro rounds depth count after rest fine ending enough few
      obtain ⟨beforeFine, filled, nameFine, betweenFine, wordFine, moreFine⟩ := fine
      obtain ⟨c, tail, starts, begins, noBrace⟩ := Word.begins wordFine
      have notOpening : c ≠ '\x7b' := by
        rintro rfl
        cases noBrace
      have positive := length_word nameFine
      simp only [Layout.text, List.length_append] at enough
      simp only [Layout.entries, Entries.count] at few ⊢
      obtain ⟨rounds, rfl⟩ : ∃ r, rounds = r + 1 := ⟨rounds - 1, by omega⟩
      rw [Layout.text, parse_name beforeFine nameFine filled betweenFine (by omega) starts begins,
        if_neg notOpening, token_complete wordFine]
      simp only [bind, Except.bind]
      rw [ih moreFine ending (by omega) (by omega)]
      simp only [Except.ok.injEq, Prod.mk.injEq, true_and, and_true]
      omega
  | object before name between children more childrenIh moreIh =>
      intro rounds depth count after rest fine ending enough few
      obtain ⟨beforeFine, filled, nameFine, betweenFine, shallow, childrenFine, moreFine⟩ := fine
      have positive := length_word nameFine
      simp only [Layout.text, List.length_append, List.length_cons] at enough
      simp only [Layout.entries, Entries.count] at few ⊢
      obtain ⟨rounds, rfl⟩ : ∃ r, rounds = r + 1 := ⟨rounds - 1, by omega⟩
      have within : (children.text ('\x7d' :: more.text after)).length < rounds := by omega
      have later : (more.text after).length < rounds := by
        have inside := children.length_after ('\x7d' :: more.text after)
        rw [List.length_cons] at inside
        omega
      rw [Layout.text, parse_name beforeFine nameFine filled betweenFine (by omega) rfl ⟨rfl, rfl⟩,
        if_pos rfl, if_neg (by omega)]
      simp only [bind, Except.bind]
      rw [childrenIh childrenFine (.close depth _) within (by omega)]
      simp only
      rw [moreIh moreFine ending later (by omega)]
      simp only [Except.ok.injEq, Prod.mk.injEq, true_and, and_true]
      omega

/-- What was read was printed, within the limits. -/
theorem parse_sound : ∀ {rounds depth count : Nat} {text : Text} {entries : Entries} {total : Nat}
    {rest : Text}, depth ≤ maxDepth →
      parse rounds depth count text = .ok (entries, total, rest) →
      ∃ (layout : Layout) (after : Text), layout.Fine depth after ∧ Ending depth after rest ∧
        text = layout.text after ∧ layout.entries = entries ∧ total = count + entries.count ∧
        (count ≤ maxEntries → total ≤ maxEntries) := by
  intro rounds
  induction rounds with
  | zero =>
      intro depth count text entries total rest _ read
      cases read
  | succ rounds ih =>
      intro depth count text entries total rest shallow read
      rw [parse] at read
      obtain ⟨start, skipped, started⟩ := bind_eq_ok.mp read
      clear read
      obtain ⟨gap, gapFine, place⟩ := skip_sound skipped
      cases start with
      | nil =>
          by_cases outer : depth = 0
          · subst outer
            cases started
            rcases place with ⟨rfl, -⟩ | ⟨-, last, unended, rfl⟩
            · exact ⟨.done gap, [], gapFine, .last [] (.inl rfl), rfl, rfl, rfl, id⟩
            · exact ⟨.done gap, last, gapFine, .last last (.inr unended), rfl, rfl, rfl, id⟩
          · simp only [ne_eq, outer, not_false_iff, if_true] at started
            cases started
      | cons c more =>
          have here : text = gap.text ++ c :: more := by
            rcases place with ⟨same, -⟩ | ⟨nothing, -⟩
            · exact same
            · cases nothing
          by_cases closing : c = '\x7d'
          · simp only [if_pos closing] at started
            subst closing
            cases depth with
            | zero => cases started
            | succ depth =>
                cases started
                exact ⟨.done gap, _, gapFine, .close depth _, here, rfl, rfl, id⟩
          · simp only [if_neg closing] at started
            obtain ⟨⟨name, left⟩, nameRead, named⟩ := bind_eq_ok.mp started
            clear started
            obtain ⟨word, wordFine, rfl, printed⟩ := token_sound nameRead
            by_cases filled : word.value = []
            · simp only [if_pos filled] at named
              cases named
            by_cases few : count + 1 > maxEntries
            · simp only [if_neg filled, if_pos few] at named
              cases named
            simp only [if_neg filled, if_neg few] at named
            obtain ⟨next, skippedAgain, follows⟩ := bind_eq_ok.mp named
            clear named
            obtain ⟨between, betweenFine, where_⟩ := skip_sound skippedAgain
            cases next with
            | nil => cases follows
            | cons d inside =>
                have there : left = between.text ++ d :: inside := by
                  rcases where_ with ⟨same, -⟩ | ⟨nothing, -⟩
                  · exact same
                  · cases nothing
                subst there
                by_cases opening : d = '\x7b'
                · simp only [if_pos opening] at follows
                  subst opening
                  by_cases deeper : depth + 1 > maxDepth
                  · simp only [if_pos deeper] at follows
                    cases follows
                  simp only [if_neg deeper] at follows
                  obtain ⟨⟨children, subtotal, middle⟩, childrenRead, others⟩ :=
                    bind_eq_ok.mp follows
                  obtain ⟨⟨entries', total', last⟩, othersRead, same⟩ := bind_eq_ok.mp others
                  cases same
                  obtain ⟨inner, after, innerFine, innerEnding, rfl, rfl, rfl, innerFew⟩ :=
                    ih (by omega) childrenRead
                  obtain ⟨outer, after', outerFine, outerEnding, rfl, rfl, rfl, outerFew⟩ :=
                    ih shallow othersRead
                  cases innerEnding
                  refine ⟨.object gap word between inner outer, after',
                    ⟨gapFine, filled, wordFine, betweenFine, by omega, innerFine, outerFine⟩,
                    outerEnding, ?_, rfl, ?_, fun _ => outerFew (innerFew (by omega))⟩
                  · rw [here, printed]
                    rfl
                  · simp only [Entries.count]
                    omega
                · simp only [if_neg opening] at follows
                  obtain ⟨⟨value, middle⟩, valueRead, others⟩ := bind_eq_ok.mp follows
                  obtain ⟨⟨entries', total', last⟩, othersRead, same⟩ := bind_eq_ok.mp others
                  cases same
                  obtain ⟨valueWord, valueFine, rfl, valuePrinted⟩ := token_sound valueRead
                  obtain ⟨outer, after', outerFine, outerEnding, rfl, rfl, rfl, outerFew⟩ :=
                    ih shallow othersRead
                  rw [valuePrinted] at printed wordFine
                  refine ⟨.value gap word between valueWord outer, after',
                    ⟨gapFine, filled, wordFine, betweenFine, valueFine, outerFine⟩,
                    outerEnding, ?_, rfl, ?_, fun _ => outerFew (by omega)⟩
                  · rw [here, printed]
                    rfl
                  · simp only [Entries.count]
                    omega

/-! ## The rounds suffice -/

theorem skip_error (text : Text) :
    ∀ failure, skip text = .error failure → failure.problem = .unterminatedComment := by
  refine skip.induct
    (fun text => ∀ failure, skip text = .error failure → failure.problem = .unterminatedComment)
    (fun start text => ∀ failure, skipBlock start text = .error failure →
      failure.problem = .unterminatedComment)
    (fun text => ∀ failure, skipLine text = .error failure →
      failure.problem = .unterminatedComment) ?_ ?_ ?_ ?_ ?_ ?_ ?_ ?_ ?_ ?_ ?_ text
  · intro failure failed
    cases failed
  · intro rest ih failure failed
    exact ih failure failed
  · intro rest ih failure failed
    exact ih failure failed
  · intro c rest noLine noBlock isBlank ih failure failed
    rw [skip.eq_4 _ _ noLine noBlock, if_pos isBlank] at failed
    exact ih failure failed
  · intro c rest noLine noBlock isBlank failure failed
    rw [skip.eq_4 _ _ noLine noBlock, if_neg isBlank] at failed
    cases failed
  · intro start failure failed
    cases failed
    rfl
  · intro start rest ih failure failed
    exact ih failure failed
  · intro start c rest other ih failure failed
    rw [skipBlock.eq_3 _ _ _ other] at failed
    exact ih failure failed
  · intro failure failed
    cases failed
  · intro rest ih failure failed
    rw [skipLine, if_pos rfl] at failed
    exact ih failure failed
  · intro c rest other ih failure failed
    rw [skipLine, if_neg other] at failed
    exact ih failure failed

theorem append_error {text rest : Text} {c : Char} {failure : Failure}
    (failed : append text c rest = .error failure) : failure.problem = .tooLong := by
  unfold append at failed
  split at failed
  · cases failed
    rfl
  · cases failed

theorem bind_error {α β : Type} {x : Except Failure α} {k : α → Except Failure β}
    {failure : Failure} (failed : (x >>= k) = .error failure) :
    x = .error failure ∨ ∃ a, x = .ok a ∧ k a = .error failure := by
  cases x with
  | error f =>
      cases failed
      exact .inl rfl
  | ok a => exact .inr ⟨a, rfl, failed⟩

theorem quoted_error {text source : Text} {failure : Failure}
    (failed : quoted text source = .error failure) : failure.problem ≠ .rounds := by
  fun_induction quoted text source with
  | case1 =>
      cases failed
      simp
  | case2 => cases failed
  | case3 =>
      cases failed
      simp
  | case4 =>
      cases failed
      simp
  | case5 =>
      cases failed
      simp
  | case6 text e left c known _ _ ih =>
      rcases bind_error failed with short | ⟨longer, -, later⟩
      · rw [append_error short]
        decide
      · exact ih longer later
  | case7 text c left quote raw slash ih =>
      rcases bind_error failed with short | ⟨longer, -, later⟩
      · rw [append_error short]
        decide
      · exact ih longer later

theorem bare_error {text source : Text} {failure : Failure}
    (failed : bare text source = .error failure) : failure.problem ≠ .rounds := by
  fun_induction bare text source with
  | case1 =>
      cases failed
      simp
  | case2 => cases failed
  | case3 =>
      cases failed
      simp
  | case4 => cases failed
  | case5 =>
      cases failed
      simp
  | case6 text c rest goesOn fine ih =>
      rcases bind_error failed with short | ⟨longer, -, later⟩
      · rw [append_error short]
        decide
      · exact ih longer later

theorem token_error {source : Text} {failure : Failure}
    (failed : token source = .error failure) : failure.problem ≠ .rounds := by
  unfold token at failed
  split at failed
  · cases failed
    simp
  · split at failed
    · cases failed
      simp
    · split at failed
      · exact quoted_error failed
      · exact bare_error failed

theorem skip_length {text rest : Text} (skipped : skip text = .ok rest) :
    rest.length ≤ text.length := by
  obtain ⟨gap, -, ⟨rfl, -⟩ | ⟨rfl, -⟩⟩ := skip_sound skipped
  · simp
  · simp

theorem token_length {source value next : Text} (found : token source = .ok (value, next)) :
    next.length < source.length := by
  obtain ⟨word, fine, -, rfl⟩ := token_sound found
  have positive := length_word fine
  rw [List.length_append]
  omega

theorem parse_length {rounds depth count : Nat} {text : Text} {entries : Entries} {total : Nat}
    {rest : Text} (shallow : depth ≤ maxDepth)
    (read : parse rounds depth count text = .ok (entries, total, rest)) :
    rest.length ≤ text.length := by
  obtain ⟨layout, after, -, ending, rfl, -⟩ := parse_sound shallow read
  have tail := layout.length_after after
  cases ending with
  | close depth =>
      rw [List.length_cons] at tail
      omega
  | last => simp

/-- Every round takes a name off the text, so that the bound is never met. -/
theorem parse_error : ∀ {rounds depth count : Nat} {text : Text} {failure : Failure},
    depth ≤ maxDepth → text.length < rounds → parse rounds depth count text = .error failure →
      failure.problem ≠ .rounds := by
  intro rounds
  induction rounds with
  | zero => intro depth count text failure _ enough; omega
  | succ rounds ih =>
      intro depth count text failure shallow enough failed
      rw [parse] at failed
      rcases bind_error failed with unskipped | ⟨start, skipped, started⟩
      · rw [skip_error _ _ unskipped]
        decide
      clear failed
      have startShort := skip_length skipped
      cases start with
      | nil =>
          by_cases outer : depth = 0
          · simp only [ne_eq, outer, not_true, if_false] at started
            cases started
          · simp only [ne_eq, outer, not_false_iff, if_true] at started
            cases started
            simp
      | cons c more =>
          by_cases closing : c = '\x7d'
          · simp only [if_pos closing] at started
            by_cases outer : depth = 0
            · simp only [if_pos outer] at started
              cases started
              simp
            · simp only [if_neg outer] at started
              cases started
          simp only [if_neg closing] at started
          rcases bind_error started with unnamed | ⟨⟨name, left⟩, nameRead, named⟩
          · exact token_error unnamed
          clear started
          have nameShort := token_length nameRead
          by_cases filled : name = []
          · simp only [if_pos filled] at named
            cases named
            simp
          by_cases few : count + 1 > maxEntries
          · simp only [if_neg filled, if_pos few] at named
            cases named
            simp
          simp only [if_neg filled, if_neg few] at named
          rcases bind_error named with unskipped | ⟨next, skippedAgain, follows⟩
          · rw [skip_error _ _ unskipped]
            decide
          clear named
          have nextShort := skip_length skippedAgain
          cases next with
          | nil =>
              cases follows
              simp
          | cons d inside =>
              rw [List.length_cons] at nextShort
              by_cases opening : d = '\x7b'
              · simp only [if_pos opening] at follows
                by_cases deeper : depth + 1 > maxDepth
                · simp only [if_pos deeper] at follows
                  cases follows
                  simp
                simp only [if_neg deeper] at follows
                rcases bind_error follows with inner | ⟨⟨children, total, left'⟩, read, others⟩
                · exact ih (by omega) (by omega) inner
                have leftShort := parse_length (by omega) read
                rcases bind_error others with outer | ⟨found, -, same⟩
                · exact ih shallow (show left'.length < rounds by omega) outer
                · cases same
              · simp only [if_neg opening] at follows
                rcases bind_error follows with unread | ⟨⟨value, left'⟩, read, others⟩
                · exact token_error unread
                have valueShort := token_length read
                rw [List.length_cons] at valueShort
                rcases bind_error others with outer | ⟨found, -, same⟩
                · exact ih shallow (show left'.length < rounds by omega) outer
                · cases same

/-! ## The reader and the printings -/

theorem body_text {p : Printing} (fine : p.Fine) : KeyValues.body p.text = p.body := by
  unfold KeyValues.body Printing.text
  by_cases marked : p.marked = true
  · rw [if_pos marked, if_pos (List.isPrefixOf_iff_prefix.mpr (List.prefix_append _ _))]
    rfl
  · have bare : p.marked = false := by simpa using marked
    rw [if_neg marked, if_neg (by simp [fine.unmarked bare])]

theorem read_complete {p : Printing} (fine : p.Fine) : read p.text = .ok p.entries := by
  unfold read
  rw [body_text fine]
  have printed : parse (p.body.length + 1) 0 0 p.body =
      .ok (p.layout.entries, 0 + p.layout.entries.count, []) :=
    parse_complete fine.layout (.last p.last fine.last) (Nat.lt_succ_self _)
      (by rw [Nat.zero_add]; exact fine.few)
  rw [printed]
  rfl

theorem read_sound {source : Text} {entries : Entries} (accepted : read source = .ok entries) :
    ∃ p : Printing, p.Fine ∧ p.text = source ∧ p.entries = entries := by
  unfold read at accepted
  cases parsed : parse ((body source).length + 1) 0 0 (body source) with
  | error failure =>
      rw [parsed] at accepted
      cases accepted
  | ok result =>
      obtain ⟨found, total, rest⟩ := result
      rw [parsed] at accepted
      cases accepted
      obtain ⟨layout, after, fine, ending, printed, rfl, rfl, few⟩ :=
        parse_sound (Nat.zero_le _) parsed
      have last : after = [] ∨ Unended after := by
        cases ending
        assumption
      have count := few (Nat.zero_le _)
      rw [Nat.zero_add] at count
      unfold body at printed
      by_cases marked : mark.isPrefixOf source = true
      · rw [if_pos marked] at printed
        obtain ⟨more, rfl⟩ := List.isPrefixOf_iff_prefix.mp marked
        refine ⟨{ marked := true, layout, last := after }, ⟨fine, last, nofun, count⟩, ?_, rfl⟩
        rw [Printing.text, if_pos rfl, Printing.body, ← printed]
        rfl
      · rw [if_neg marked] at printed
        refine ⟨{ layout, last := after }, ⟨fine, last, ?_, count⟩, ?_, rfl⟩
        · intro _
          rw [Printing.body, ← printed]
          exact Bool.eq_false_iff.mpr marked
        · rw [Printing.text, if_neg (by simp), Printing.body, ← printed]

theorem read_total {source : Text} {failure : Failure} (failed : read source = .error failure) :
    failure.problem ≠ .rounds := by
  unfold read at failed
  cases parsed : parse ((body source).length + 1) 0 0 (body source) with
  | error found =>
      rw [parsed] at failed
      cases failed
      exact parse_error (Nat.zero_le _) (Nat.lt_succ_self _) parsed
  | ok result =>
      rw [parsed] at failed
      cases failed

/-! ## What can be printed -/

/-- The entries keep the limits on depth, names and words. -/
def Entries.Within : Entries → Nat → Prop
  | .nil, _ => True
  | .value name word rest, depth =>
      name ≠ [] ∧ (Word.quoted name).Fine [] ∧ (Word.quoted word).Fine [] ∧ rest.Within depth
  | .object name children rest, depth =>
      name ≠ [] ∧ (Word.quoted name).Fine [] ∧ depth < maxDepth ∧ children.Within (depth + 1) ∧
        rest.Within depth

/-- Every word in quotes, and nothing between them. -/
def Entries.layout : Entries → Layout
  | .nil => .done []
  | .value name word rest => .value [] (.quoted name) [] (.quoted word) rest.layout
  | .object name children rest => .object [] (.quoted name) [] children.layout rest.layout

theorem Entries.layout_entries (entries : Entries) : entries.layout.entries = entries := by
  induction entries with
  | nil => rfl
  | value name word rest ih => simp [Entries.layout, Layout.entries, Word.value, ih]
  | object name children rest childrenIh restIh =>
      simp [Entries.layout, Layout.entries, Word.value, childrenIh, restIh]

theorem Entries.layout_fine {entries : Entries} : ∀ {depth : Nat} {after : Text},
    entries.Within depth → entries.layout.Fine depth after := by
  induction entries with
  | nil =>
      intro depth after _
      exact List.forall_mem_nil _
  | value name word rest ih =>
      intro depth after within
      obtain ⟨filled, nameFine, wordFine, later⟩ := within
      exact ⟨List.forall_mem_nil _, filled, nameFine, List.forall_mem_nil _, wordFine, ih later⟩
  | object name children rest childrenIh restIh =>
      intro depth after within
      obtain ⟨filled, nameFine, shallow, inside, later⟩ := within
      exact ⟨List.forall_mem_nil _, filled, nameFine, List.forall_mem_nil _, shallow,
        childrenIh inside, restIh later⟩

def Entries.printing (entries : Entries) : Printing := { layout := entries.layout }

theorem Entries.printing_fine {entries : Entries} (within : entries.Within 0)
    (few : entries.count ≤ maxEntries) : entries.printing.Fine where
  layout := entries.layout_fine within
  last := .inl rfl
  unmarked := by
    intro _
    show mark.isPrefixOf (entries.layout.text []) = false
    cases entries with
    | nil => rfl
    | value name word rest => rfl
    | object name children rest => rfl
  few := by
    show entries.layout.entries.count ≤ maxEntries
    rw [entries.layout_entries]
    exact few

/-- Whatever keeps the limits can be written down and read back. -/
theorem read_printing {entries : Entries} (within : entries.Within 0)
    (few : entries.count ≤ maxEntries) : read entries.printing.text = .ok entries := by
  have accepted := read_complete (Entries.printing_fine within few)
  rw [accepted]
  exact congrArg Except.ok entries.layout_entries

/-- The reader ends on every text.  It gives back the entries of every printing
within the limits, and what it accepts is such a printing of what it answers. -/
theorem reads_printings (source : Text) :
    (∀ p : Printing, p.Fine → p.text = source → read source = .ok p.entries) ∧
      (∀ entries, read source = .ok entries →
        ∃ p : Printing, p.Fine ∧ p.text = source ∧ p.entries = entries) ∧
      ∀ failure, read source = .error failure → failure.problem ≠ .rounds := by
  refine ⟨?_, fun entries => read_sound, fun failure => read_total⟩
  rintro p fine rfl
  exact read_complete fine

/-- A comment, a bare and a quoted word, an object in an object, and a last
comment that the end of the text ends. -/
def sample : Printing where
  marked := true
  layout := .object [.line ['x'], .blank ' '] (.bare ['a', '/']) [.blank '\t']
    (.value [.block ['*']] (.quoted ['"', '\n']) [] (.quoted [])
      (.object [] (.bare ['b']) [.block []] (.done [.blank '\n']) (.done [])))
    (.done [])
  last := ['/', '/', '/']

theorem sample_fine : sample.Fine where
  layout := by
    simp [sample, Layout.Fine, Gap.Fine, Filler.Fine, Word.Fine, Word.value, Word.text, Stops,
      Layout.text, Gap.text, Filler.text]
    decide
  last := .inr ⟨['/'], by decide, rfl⟩
  unmarked := nofun
  few := by decide

theorem reads_sample : sample.Fine ∧ read sample.text = .ok sample.entries :=
  ⟨sample_fine, (reads_printings sample.text).1 sample sample_fine rfl⟩

end Source2Root.KeyValues
