import Mathlib.Data.List.Basic

/-!
# Cutting a list into pieces

Pieces of one size, the last one shorter: together they are the list.
-/

set_option autoImplicit false

namespace Source2Root.Pieces

variable {α : Type}

theorem flatMap_pieces (size : Nat) (list : List α) (count : Nat) :
    (List.range count).flatMap (fun piece => (list.drop (piece * size)).take size) =
      list.take (count * size) := by
  induction count with
  | zero => simp
  | succ count ih =>
      rw [List.range_succ, List.flatMap_append, ih, List.flatMap_singleton, Nat.succ_mul,
        List.take_add]

/-- The pieces up to the last are the list. -/
theorem pieces_cover {size : Nat} (list : List α) {count : Nat}
    (enough : list.length ≤ count * size) :
    (List.range count).flatMap (fun piece => (list.drop (piece * size)).take size) = list := by
  rw [flatMap_pieces, List.take_of_length_le enough]

/-- A stretch of a list, by its positions. -/
theorem stretch_eq (list : List α) (count : Nat) :
    ∀ start : Nat, start + count ≤ list.length →
      (List.range' start count).filterMap (list[·]?) = (list.drop start).take count := by
  induction count with
  | zero => simp
  | succ count ih =>
      intro start inside
      have here : start < list.length := by omega
      rw [List.range'_succ, List.filterMap_cons, List.getElem?_eq_getElem here,
        List.drop_eq_getElem_cons here, List.take_succ_cons, ih (start + 1) (by omega)]

/-- A piece, by the positions that a loop over it visits. -/
theorem piece_eq (list : List α) (start size : Nat) :
    (List.range' start (min list.length (start + size) - start)).filterMap (list[·]?) =
      (list.drop start).take size := by
  by_cases inside : start ≤ list.length
  · rw [stretch_eq list _ start (by omega)]
    by_cases whole : start + size ≤ list.length
    · rw [Nat.min_eq_right whole, Nat.add_sub_cancel_left]
    · rw [Nat.min_eq_left (by omega), List.take_of_length_le (by simp),
        List.take_of_length_le (by rw [List.length_drop]; omega)]
  · have none_ : min list.length (start + size) - start = 0 := by omega
    rw [none_, List.drop_of_length_le (by omega)]
    simp

/-- Every position is in the piece that its quotient names, and in no other. -/
theorem mem_piece_iff {length size : Nat} (positive : 0 < size) {piece position : Nat} :
    position ∈ List.range' (piece * size) (min length (piece * size + size) - piece * size) ↔
      position < length ∧ position / size = piece := by
  rw [List.mem_range'_1, Nat.div_eq_iff positive]
  constructor
  · intro inside
    omega
  · intro inside
    omega

end Source2Root.Pieces
