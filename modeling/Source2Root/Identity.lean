import Mathlib

/-!
# Results and players

What the host answers with and the record it describes a player by.  The codes
of `KeelResult` belong to the host; an error text keeps the result itself where
the source prints its number.
-/

set_option autoImplicit false

namespace Source2Root

inductive KeelResult where
  | ok
  | notFound
  | invalidArgument
  | unsupported
  | busy
  | notReady
  | incompatible
  | alreadyExists
  | engineFailure
deriving DecidableEq, Repr, Inhabited

/-- A piece of an error text. -/
inductive Piece where
  | text (text : String)
  | result (result : KeelResult)
deriving DecidableEq, Repr

abbrev ErrorText := List Piece

instance : Coe String ErrorText := ⟨fun text => [.text text]⟩

/-- `Failure`: the first failure of an operation names it. -/
def failure (error : ErrorText) (operation : String) (result : KeelResult) : ErrorText :=
  if error = [] then [.text operation, .text " (KeelResult ", .result result, .text ")."]
  else error

/-- A connection number is a generation: a slot never sees the same one twice,
and zero is no connection. -/
structure Player where
  slot : Int := -1
  connection : Nat := 0
  steamId : Nat := 0
  authenticated : Bool := false
  bot : Bool := false
  name : String := ""
  userId : Int := -1
  team : Int := 0
  alive : Bool := false
deriving DecidableEq, Repr, Inhabited

def Player.sameConnection (player other : Player) : Bool :=
  player.slot == other.slot && player.connection != 0 && player.connection == other.connection

theorem Player.sameConnection_iff {player other : Player} :
    player.sameConnection other = true ↔
      player.slot = other.slot ∧ player.connection ≠ 0 ∧ player.connection = other.connection := by
  simp [Player.sameConnection, and_assoc]

theorem Player.sameConnection_symm {player other : Player}
    (same : player.sameConnection other = true) : other.sameConnection player = true := by
  rw [Player.sameConnection_iff] at same ⊢
  exact ⟨same.1.symm, same.2.2 ▸ same.2.1, same.2.2.symm⟩

theorem Player.sameConnection_trans {a b c : Player} (ab : a.sameConnection b = true)
    (bc : b.sameConnection c = true) : a.sameConnection c = true := by
  rw [Player.sameConnection_iff] at ab bc ⊢
  exact ⟨ab.1.trans bc.1, ab.2.1, ab.2.2.trans bc.2.2⟩

end Source2Root
