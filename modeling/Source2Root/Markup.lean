import Mathlib.Data.List.Basic

/-!
# Texts with markup

A text is read as tags between angle brackets, references to characters, and
characters that stand for themselves.  A markup character that is neither the end of
a tag nor the start of a reference has no reading.  Which names a reference may have
is a parameter.
-/

set_option autoImplicit false

namespace Source2Root.Markup

inductive Token where
  | tag (name : List Char)
  | char (c : Char)
  | reference (c : Char)
deriving DecidableEq, Repr

/-- What a text without markup does not hold. -/
def isMarkup (c : Char) : Bool :=
  c == '<' || c == '>' || c == '&' || c == '"' || c == '\''

theorem isMarkup_iff {c : Char} :
    isMarkup c = true ↔ c = '<' ∨ c = '>' ∨ c = '&' ∨ c = '"' ∨ c = '\'' := by
  simp [isMarkup, or_assoc]

/-- Where a reader is, with what it has read of a name. -/
inductive Mode where
  | content
  | tag (name : List Char)
  | reference (name : List Char)

variable (named : List Char → Option Char)

def readFrom : Mode → List Char → Option (List Token)
  | .content, [] => some []
  | .tag _, [] => none
  | .reference _, [] => none
  | .content, c :: rest =>
      if c = '<' then readFrom (.tag []) rest
      else if c = '&' then readFrom (.reference []) rest
      else if isMarkup c then none
      else (readFrom .content rest).map (.char c :: ·)
  | .tag name, c :: rest =>
      if c = '>' then (readFrom .content rest).map (.tag name :: ·)
      else if c = '<' then none
      else readFrom (.tag (name ++ [c])) rest
  | .reference name, c :: rest =>
      if c = ';' then
        (named name).bind fun found => (readFrom .content rest).map (.reference found :: ·)
      else readFrom (.reference (name ++ [c])) rest

def read (text : List Char) : Option (List Token) := readFrom named .content text

/-- The tags of a text, in their order. -/
def tags (tokens : List Token) : List (List Char) :=
  tokens.filterMap fun token =>
    match token with
    | .tag name => some name
    | _ => none

/-! ## Rules -/

/-- The text has a reading, and this is it. -/
def Reads (text : List Char) (tokens : List Token) : Prop := read named text = some tokens

instance (text : List Char) (tokens : List Token) : Decidable (Reads named text tokens) :=
  inferInstanceAs (Decidable (read named text = some tokens))

variable {named}

theorem readFrom_append {text after : List Char} :
    ∀ {mode : Mode} {tokens : List Token}, readFrom named mode text = some tokens →
      readFrom named mode (text ++ after) = (read named after).map (tokens ++ ·) := by
  induction text with
  | nil =>
      intro mode tokens reads
      cases mode with
      | content =>
          cases reads
          simp [read]
      | tag name => cases reads
      | reference name => cases reads
  | cons c rest ih =>
      intro mode tokens reads
      cases mode with
      | content =>
          rw [List.cons_append, readFrom]
          rw [readFrom] at reads
          by_cases opens : c = '<'
          · rw [if_pos opens] at reads ⊢
            exact ih reads
          · rw [if_neg opens] at reads ⊢
            by_cases refers : c = '&'
            · rw [if_pos refers] at reads ⊢
              exact ih reads
            · rw [if_neg refers] at reads ⊢
              by_cases special : isMarkup c = true
              · rw [if_pos special] at reads
                cases reads
              · rw [if_neg special] at reads ⊢
                obtain ⟨found, before, rfl⟩ := Option.map_eq_some_iff.mp reads
                rw [ih before, Option.map_map]
                rfl
      | tag name =>
          rw [List.cons_append, readFrom]
          rw [readFrom] at reads
          by_cases closes : c = '>'
          · rw [if_pos closes] at reads ⊢
            obtain ⟨found, before, rfl⟩ := Option.map_eq_some_iff.mp reads
            rw [ih before, Option.map_map]
            rfl
          · rw [if_neg closes] at reads ⊢
            by_cases opens : c = '<'
            · rw [if_pos opens] at reads
              cases reads
            · rw [if_neg opens] at reads ⊢
              exact ih reads
      | reference name =>
          rw [List.cons_append, readFrom]
          rw [readFrom] at reads
          by_cases ends : c = ';'
          · rw [if_pos ends] at reads ⊢
            obtain ⟨found, known, reads⟩ := Option.bind_eq_some_iff.mp reads
            obtain ⟨left, before, rfl⟩ := Option.map_eq_some_iff.mp reads
            rw [known, Option.bind_some, ih before, Option.map_map]
            rfl
          · rw [if_neg ends] at reads ⊢
            exact ih reads

theorem Reads.nil : Reads named [] [] := rfl

theorem Reads.append {text after : List Char} {tokens later : List Token}
    (first : Reads named text tokens) (second : Reads named after later) :
    Reads named (text ++ after) (tokens ++ later) := by
  have both : readFrom named .content (text ++ after) = (read named after).map (tokens ++ ·) :=
    readFrom_append first
  rw [second] at both
  exact both

theorem Reads.flatMap {α : Type} (xs : List α) {text : α → List Char} {tokens : α → List Token}
    (each : ∀ x ∈ xs, Reads named (text x) (tokens x)) :
    Reads named (xs.flatMap text) (xs.flatMap tokens) := by
  induction xs with
  | nil => exact Reads.nil
  | cons x rest ih =>
      rw [List.flatMap_cons, List.flatMap_cons]
      exact (each x List.mem_cons_self).append
        (ih fun y member => each y (List.mem_cons_of_mem x member))

theorem Reads.char {c : Char} (plain : isMarkup c = false) : Reads named [c] [.char c] := by
  have opens : c ≠ '<' := by
    rintro rfl
    cases plain
  have refers : c ≠ '&' := by
    rintro rfl
    cases plain
  unfold Reads read readFrom
  rw [if_neg opens, if_neg refers, if_neg (by simp [plain])]
  rfl

/-- A text without markup stands for itself. -/
theorem Reads.plain {text : List Char} (plain : ∀ c ∈ text, isMarkup c = false) :
    Reads named text (text.map .char) := by
  induction text with
  | nil => exact Reads.nil
  | cons c rest ih =>
      exact (Reads.char (plain c List.mem_cons_self)).append
        (ih fun other member => plain other (List.mem_cons_of_mem c member))

theorem readFrom_name {name : List Char} :
    ∀ {before : List Char}, (∀ c ∈ name, c ≠ '<' ∧ c ≠ '>') →
      readFrom named (.tag before) (name ++ ['>']) = some [.tag (before ++ name)] := by
  induction name with
  | nil =>
      intro before inside
      simp [readFrom]
  | cons c rest ih =>
      intro before inside
      obtain ⟨opens, closes⟩ := inside c List.mem_cons_self
      rw [List.cons_append, readFrom, if_neg closes, if_neg opens,
        ih fun other member => inside other (List.mem_cons_of_mem c member),
        List.append_assoc, List.singleton_append]

theorem Reads.tag {name : List Char} (inside : ∀ c ∈ name, c ≠ '<' ∧ c ≠ '>') :
    Reads named ('<' :: (name ++ ['>'])) [.tag name] := by
  unfold Reads read
  rw [readFrom, if_pos rfl, readFrom_name inside, List.nil_append]

theorem readFrom_reference {name : List Char} {c : Char} :
    ∀ {before : List Char}, ';' ∉ name → named (before ++ name) = some c →
      readFrom named (.reference before) (name ++ [';']) = some [.reference c] := by
  induction name with
  | nil =>
      intro before inside known
      rw [List.append_nil] at known
      simp [readFrom, known]
  | cons first rest ih =>
      intro before inside known
      have other : first ≠ ';' := fun is => inside (is ▸ List.mem_cons_self)
      rw [List.cons_append, readFrom, if_neg other]
      refine ih (fun member => inside (List.mem_cons_of_mem first member)) ?_
      rw [List.append_assoc, List.singleton_append, known]

theorem Reads.reference {name : List Char} {c : Char} (inside : ';' ∉ name)
    (known : named name = some c) : Reads named ('&' :: (name ++ [';'])) [.reference c] := by
  unfold Reads read
  rw [readFrom, if_neg (by decide), if_pos rfl]
  exact readFrom_reference inside known

end Source2Root.Markup
