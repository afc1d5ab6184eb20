import Source2Root.Json

/-!
# Configuration texts of names and values

`ReadKeyValues`: a text is a sequence of entries, a name with a value or with
entries of its own in braces.  A byte of a text is the character with that
number, and a position in the source is what is left from there on.
-/

set_option autoImplicit false

namespace Source2Root.KeyValues

/-- A `std::vector<KeyValue>`; an entry has a value or is an object. -/
inductive Entries where
  | nil
  | value (name value : Text) (rest : Entries)
  | object (name : Text) (children rest : Entries)
deriving DecidableEq, Repr

/-- How many entries there are, those of the objects included. -/
def Entries.count : Entries → Nat
  | .nil => 0
  | .value _ _ rest => 1 + rest.count
  | .object _ children rest => 1 + children.count + rest.count

/-- `rounds` is not the source's: the recursion of the model has run out of its
bound, which does not happen. -/
inductive Problem where
  | tooDeep
  | unexpectedClosing
  | emptyKey
  | tooMany
  | noValue
  | missingClosing
  | unterminatedComment
  | expectedToken
  | invalidCharacter
  | unterminatedEscape
  | unsupportedEscape
  | tooLong
  | unterminatedString
  | rounds
deriving DecidableEq, Repr

def Problem.message : Problem → String
  | .tooDeep => "objects are nested too deeply"
  | .unexpectedClosing => "unexpected closing brace"
  | .emptyKey => "empty key"
  | .tooMany => "too many entries"
  | .noValue => "key has no value"
  | .missingClosing => "missing closing brace"
  | .unterminatedComment => "unterminated comment"
  | .expectedToken => "expected a key or string value"
  | .invalidCharacter => "invalid character in token"
  | .unterminatedEscape => "unterminated escape"
  | .unsupportedEscape => "unsupported escape"
  | .tooLong => "token exceeds 4096 bytes"
  | .unterminatedString => "unterminated quoted string"
  | .rounds => ""

/-- An error, with what is left at the position it is found at. -/
structure Failure where
  problem : Problem
  rest : Text
deriving DecidableEq, Repr

/-- The line `Error` names. -/
def Failure.line (failure : Failure) (source : Text) : Nat :=
  1 + (source.take (source.length - failure.rest.length)).count '\n'

def maxDepth : Nat := 16

def maxEntries : Nat := 65536

def maxToken : Nat := 4096

/-! ## Between tokens -/

def blank (c : Char) : Bool := c == ' ' || c == '\t' || c == '\r' || c == '\n'

def brace (c : Char) : Bool := c == '\x7b' || c == '\x7d'

/-- A comment starts here. -/
def opensComment : Text → Bool
  | '/' :: '/' :: _ => true
  | '/' :: '*' :: _ => true
  | _ => false

mutual

/-- `Skip`; it answers false when nothing is left. -/
def skip : Text → Except Failure Text
  | [] => .ok []
  | '/' :: '/' :: rest => skipLine rest
  | '/' :: '*' :: rest => skipBlock ('/' :: '*' :: rest) rest
  | c :: rest => if blank c then skip rest else .ok (c :: rest)

/-- Up to the end of the line, which is a blank. -/
def skipLine : Text → Except Failure Text
  | [] => .ok []
  | c :: rest => if c = '\n' then skip rest else skipLine rest

/-- Up to the first end of a comment. -/
def skipBlock (start : Text) : Text → Except Failure Text
  | [] => .error { problem := .unterminatedComment, rest := start }
  | '*' :: '/' :: rest => skip rest
  | _ :: rest => skipBlock start rest

end

/-! ## Tokens -/

def forbidden (c : Char) : Bool := c.toNat < 32 || c.toNat == 127

def escaped : Char → Option Char
  | 'n' => some '\n'
  | 'r' => some '\r'
  | 't' => some '\t'
  | '"' => some '"'
  | '\\' => some '\\'
  | _ => none

/-- `text += c`, with the check of the length; `rest` is what is left then. -/
def append (text : Text) (c : Char) (rest : Text) : Except Failure Text :=
  if text.length + 1 > maxToken then .error { problem := .tooLong, rest } else .ok (text ++ [c])

/-- The loop of `Token` inside quotes. -/
def quoted (text : Text) : Text → Except Failure (Text × Text)
  | [] => .error { problem := .unterminatedString, rest := [] }
  | c :: rest =>
      if c = '"' then .ok (text, rest)
      else if forbidden c then .error { problem := .invalidCharacter, rest := c :: rest }
      else if c = '\\' then
        match rest with
        | [] => .error { problem := .unterminatedEscape, rest := [] }
        | e :: rest =>
            match escaped e with
            | none => .error { problem := .unsupportedEscape, rest }
            | some c => do
                let text ← append text c rest
                quoted text rest
      else do
        let text ← append text c rest
        quoted text rest

/-- A bare token ends before this. -/
def ends : Text → Bool
  | [] => true
  | c :: rest => blank c || brace c || opensComment (c :: rest)

/-- The loop of `Token` without quotes. -/
def bare (text : Text) : Text → Except Failure (Text × Text)
  | [] => if text = [] then .error { problem := .expectedToken, rest := [] } else .ok (text, [])
  | c :: rest =>
      if ends (c :: rest) then
        if text = [] then .error { problem := .expectedToken, rest := c :: rest }
        else .ok (text, c :: rest)
      else if forbidden c || c == '"' then
        .error { problem := .invalidCharacter, rest := c :: rest }
      else do
        let text ← append text c rest
        bare text rest

/-- `Token`. -/
def token : Text → Except Failure (Text × Text)
  | [] => .error { problem := .expectedToken, rest := [] }
  | c :: rest =>
      if brace c then .error { problem := .expectedToken, rest := c :: rest }
      else if c = '"' then quoted [] rest
      else bare [] (c :: rest)

/-! ## Entries -/

/-- The loop of `Parse`, with the number of the entries so far. -/
def parse : Nat → Nat → Nat → Text → Except Failure (Entries × Nat × Text)
  | 0, _, _, text => .error { problem := .rounds, rest := text }
  | rounds + 1, depth, count, text => do
      match ← skip text with
      | [] =>
          if depth ≠ 0 then .error { problem := .missingClosing, rest := [] }
          else .ok (.nil, count, [])
      | c :: more =>
          if c = '\x7d' then
            if depth = 0 then .error { problem := .unexpectedClosing, rest := c :: more }
            else .ok (.nil, count, more)
          else
            let (name, rest) ← token (c :: more)
            if name = [] then .error { problem := .emptyKey, rest }
            else if count + 1 > maxEntries then .error { problem := .tooMany, rest }
            else
              match ← skip rest with
              | [] => .error { problem := .noValue, rest := [] }
              | d :: inside =>
                  if d = '\x7b' then
                    if depth + 1 > maxDepth then .error { problem := .tooDeep, rest := inside }
                    else
                      let (children, count, rest) ← parse rounds (depth + 1) (count + 1) inside
                      let (entries, count, rest) ← parse rounds depth count rest
                      .ok (.object name children entries, count, rest)
                  else
                    let (value, rest) ← token (d :: inside)
                    let (entries, count, rest) ← parse rounds depth (count + 1) rest
                    .ok (.value name value entries, count, rest)

/-- The byte-order mark. -/
def mark : Text := [Char.ofNat 0xef, Char.ofNat 0xbb, Char.ofNat 0xbf]

/-- The text after the mark, if it has one. -/
def body (source : Text) : Text := if mark.isPrefixOf source then source.drop 3 else source

/-- `Parser(source).Parse()`. -/
def read (source : Text) : Except Failure Entries :=
  (parse ((body source).length + 1) 0 0 (body source)).map Prod.fst

def maxFile : Nat := 1024 * 1024

/-- `what` of the error of `Error`. -/
def Failure.message (failure : Failure) (source : Text) : String :=
  "line " ++ toString (failure.line source) ++ ": " ++ failure.problem.message

/-- `ReadKeyValues`, for a file with this name and content. -/
def readFile (name : String) (content : Text) : Except String Entries :=
  if content.length > maxFile then .error (name ++ ": configuration exceeds 1 MiB")
  else
    match read content with
    | .ok entries => .ok entries
    | .error failure => .error (name ++ ": " ++ failure.message content)

end Source2Root.KeyValues
