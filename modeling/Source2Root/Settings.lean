import Mathlib
import Source2Root.Decimal

/-!
# Core settings

`CoreSettings`: the fields of the core, the updates of one field, of all four and of
a file, and the lines of that file.
-/

set_option autoImplicit false

namespace Source2Root.Settings

inductive Field where
  | activity
  | publicTrigger
  | silentTrigger
  | debug
deriving DecidableEq, Repr

def Field.name : Field → Text
  | .activity => "sr_show_activity".toList
  | .publicTrigger => "sr_chat_public_trigger".toList
  | .silentTrigger => "sr_chat_silent_trigger".toList
  | .debug => "sr_debug".toList

/-- The fields in the order of `Names`. -/
def Field.all : List Field := [.activity, .publicTrigger, .silentTrigger, .debug]

def Field.named (name : Text) : Option Field := Field.all.find? (fun field => field.name == name)

structure CoreSettings where
  activity : Int := 13
  debug : Int := 0
  publicTrigger : Text := ['!']
  silentTrigger : Text := ['/']
deriving DecidableEq, Repr

inductive Failure where
  | longTrigger
  | badTrigger
  | badNumber (name : Text) (maximum : Int)
  | unknown (name : Text)
  | sameTriggers
  | badSyntax
  | unterminated
  | unspaced
  | wordCount
  | line (number : Nat) (failure : Failure)
  | fileSize
  | tooLarge
  | unreadable
  | changed
deriving DecidableEq, Repr

def Failure.message : Failure → Text
  | .longTrigger => "chat triggers accept at most 8 characters".toList
  | .badTrigger => ("chat triggers accept printable characters without spaces, quotes, " ++
      "semicolons or backslashes").toList
  | .badNumber name maximum =>
      name ++ " must be an integer from 0 to ".toList ++ numberText maximum
  | .unknown name => "unknown core setting: ".toList ++ name
  | .sameTriggers => "public and silent chat triggers must differ".toList
  | .badSyntax => "invalid configuration syntax".toList
  | .unterminated => "unterminated quoted value".toList
  | .unspaced => "expected a space after quoted value".toList
  | .wordCount => "expected one setting and one value".toList
  | .line number failure =>
      "source2root.cfg line ".toList ++ decimal number ++ ": ".toList ++ failure.message
  | .fileSize => "cannot read the size of the file".toList
  | .tooLarge => "core configuration exceeds 64 KiB".toList
  | .unreadable => "cannot read complete core configuration".toList
  | .changed => "core configuration changed while reading".toList

def CoreSettings.value (settings : CoreSettings) : Field → Text
  | .activity => numberText settings.activity
  | .publicTrigger => settings.publicTrigger
  | .silentTrigger => settings.silentTrigger
  | .debug => numberText settings.debug

/-! ## One field -/

def forbidden (c : Char) : Bool :=
  c.toNat ≤ 32 || c.toNat ≥ 127 || c == '"' || c == ';' || c == '\\'

def trigger (value : Text) : Except Failure Text :=
  if value.length > 8 then .error .longTrigger
  else if value.any forbidden then .error .badTrigger
  else .ok value

def number (field : Field) (maximum : Int) (value : Text) : Except Failure Int :=
  match fromCharsInt value with
  | none => .error (.badNumber field.name maximum)
  | some n => if n < 0 ∨ n > maximum then .error (.badNumber field.name maximum) else .ok n

def CoreSettings.setField (settings : CoreSettings) (name value : Text) :
    Except Failure CoreSettings :=
  match Field.named name with
  | some .publicTrigger => do
      let text ← trigger value
      return { settings with publicTrigger := text }
  | some .silentTrigger => do
      let text ← trigger value
      return { settings with silentTrigger := text }
  | some .activity => do
      let n ← number .activity 15 value
      return { settings with activity := n }
  | some .debug => do
      let n ← number .debug 1 value
      return { settings with debug := n }
  | none => .error (.unknown name)

def CoreSettings.validate (settings : CoreSettings) : Except Failure Unit :=
  if settings.publicTrigger ≠ [] ∧ settings.publicTrigger = settings.silentTrigger then
    .error .sameTriggers
  else .ok ()

/-! ## Updates -/

def CoreSettings.set (settings : CoreSettings) (name value : Text) :
    Except Failure CoreSettings := do
  let candidate ← settings.setField name value
  candidate.validate
  return candidate

/-- Each pair of a name and a value in its turn. -/
def CoreSettings.setFields (settings : CoreSettings) : List (Text × Text) →
    Except Failure CoreSettings
  | [] => .ok settings
  | (name, value) :: rest => do
      let next ← settings.setField name value
      next.setFields rest

def CoreSettings.setAll (settings : CoreSettings) (values : Field → Text) :
    Except Failure CoreSettings := do
  let candidate ← settings.setFields (Field.all.map fun field => (field.name, values field))
  candidate.validate
  return candidate

/-! ## A line -/

def blank (c : Char) : Bool := c == ' ' || c == '\t' || c == '\r'

/-- `line.compare(position, 2, "//") == 0`. -/
def comment : Text → Bool
  | '/' :: '/' :: _ => true
  | _ => false

/-- The inner loop: the word, and what is left behind it and its closing quote. -/
def scan (quoted : Bool) (word : Text) : Text → Except Failure (Text × Text)
  | [] => if quoted then .error .unterminated else .ok (word, [])
  | c :: rest =>
      if quoted && c == '"' then .ok (word, rest)
      else if !quoted && (blank c || comment (c :: rest)) then .ok (word, c :: rest)
      else if c == ';' || c.toNat < 32 || c == '"' then .error .badSyntax
      else scan quoted (word ++ [c]) rest

/-- What may stand behind a closing quote. -/
def spaced : Text → Bool
  | [] => true
  | c :: rest => blank c || comment (c :: rest)

theorem scan_left {quoted : Bool} {word text out left : Text}
    (scanned : scan quoted word text = .ok (out, left)) : left.length ≤ text.length := by
  fun_induction scan quoted word text with
  | case1 word isQuoted => cases scanned
  | case2 word bare =>
      cases scanned
      exact le_refl _
  | case3 word c rest closing =>
      cases scanned
      exact Nat.le_succ _
  | case4 word c rest noClosing ends =>
      cases scanned
      exact le_refl _
  | case5 word c rest noClosing goesOn bad => cases scanned
  | case6 word c rest noClosing goesOn good ih =>
      have shorter := ih scanned
      rw [List.length_cons]
      omega

theorem scan_shorter {word rest out left : Text} {c : Char} (noBlank : blank c = false)
    (noComment : comment (c :: rest) = false)
    (scanned : scan false word (c :: rest) = .ok (out, left)) : left.length ≤ rest.length := by
  rw [scan.eq_def] at scanned
  simp only [Bool.false_and, Bool.false_eq_true, if_false, Bool.not_false, Bool.true_and, noBlank,
    noComment, Bool.or_self] at scanned
  split at scanned
  · cases scanned
  · exact scan_left scanned

/-- `ParseLine` from a word on.  At most two words are kept. -/
def words (found : List Text) : Text → Except Failure (List Text)
  | [] => .ok found
  | c :: rest =>
      if blank c then words found rest
      else if comment (c :: rest) then .ok found
      else
        match _ : scan (c == '"') [] (if c = '"' then rest else c :: rest) with
        | .error failure => .error failure
        | .ok (word, left) =>
            if c == '"' && !spaced left then .error .unspaced
            else if found.length + 1 > 2 then .error .wordCount
            else words (found ++ [word]) left
  termination_by text => text.length
  decreasing_by
    · simp
    · rename_i noBlank noComment scanned _ _
      rw [List.length_cons]
      by_cases quote : c = '"'
      · rw [dif_pos quote] at scanned
        exact Nat.lt_succ_of_le (scan_left scanned)
      · rw [dif_neg quote, beq_false_of_ne quote] at scanned
        exact Nat.lt_succ_of_le
          (scan_shorter (Bool.eq_false_iff.mpr noBlank) (Bool.eq_false_iff.mpr noComment) scanned)

def parseLine (line : Text) : Except Failure (List Text) := do
  let found ← words [] line
  if found ≠ [] ∧ found.length ≠ 2 then .error .wordCount else return found

/-! ## A file -/

/-- What `Read` meets at its path: the size that `file_size` returns, unless it
throws, and the bytes that the stream yields, unless it does not open. -/
structure File where
  size : Option Nat
  bytes : Option Text
deriving DecidableEq, Repr

/-- `std::getline` until the end: the last line has no newline behind it and is not
empty. -/
def linesFrom (line : Text) : Text → List Text
  | [] => if line = [] then [] else [line]
  | c :: rest => if c = '\n' then line :: linesFrom [] rest else linesFrom (line ++ [c]) rest

def lines (source : Text) : List Text := linesFrom [] source

def CoreSettings.readLine (settings : CoreSettings) (line : Text) : Except Failure CoreSettings :=
  parseLine line >>= fun found =>
    match found with
    | name :: value :: _ => settings.setField name value
    | _ => .ok settings

def CoreSettings.readLines (settings : CoreSettings) (number : Nat) : List Text →
    Except Failure CoreSettings
  | [] => .ok settings
  | line :: rest =>
      match settings.readLine line with
      | .error failure => .error (.line number failure)
      | .ok next => next.readLines (number + 1) rest

def maxFile : Nat := 65536

def CoreSettings.read (settings : CoreSettings) : Option File → Except Failure CoreSettings
  | none => .ok settings
  | some file =>
      match file.size with
      | none => .error .fileSize
      | some size =>
          if size > maxFile then .error .tooLarge
          else
            match file.bytes with
            | none => .error .unreadable
            | some bytes =>
                if bytes.length < size then .error .unreadable
                else if bytes.length > size then .error .changed
                else do
                  let read ← settings.readLines 1 (lines bytes)
                  read.validate
                  return read

end Source2Root.Settings
