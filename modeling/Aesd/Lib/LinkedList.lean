import Mathlib.Logic.Function.Basic

/-!
# Singly linked lists in memory

A cell has an item and a pointer to the next cell.  `Chain cells first entries` says that
the pointer `first` leads through cells with the given addresses and items to a null
pointer.
-/

namespace LinkedList

universe u

structure Cell (Item : Type u) where
  item : Item
  next : Option Nat
  deriving DecidableEq, Repr

/-- The allocated cells, by address. -/
abbrev Cells (Item : Type u) := Nat → Option (Cell Item)

inductive Chain {Item : Type u} (cells : Cells Item) : Option Nat → List (Nat × Item) → Prop where
  | nil : Chain cells none []
  | cons {address : Nat} {item : Item} {next : Option Nat} {rest : List (Nat × Item)} :
      cells address = some ⟨item, next⟩ → Chain cells next rest →
      Chain cells (some address) ((address, item) :: rest)

namespace Chain

variable {Item : Type u} {cells cells' : Cells Item} {first : Option Nat} {address : Nat}
  {item : Item} {entries : List (Nat × Item)}

theorem first_eq_none (chain : Chain cells first []) : first = none := by
  cases chain
  rfl

theorem uncons (chain : Chain cells first ((address, item) :: entries)) :
    first = some address ∧ ∃ next, cells address = some ⟨item, next⟩ ∧
      Chain cells next entries := by
  cases chain with
  | cons found rest => exact ⟨rfl, _, found, rest⟩

theorem congr (chain : Chain cells first entries)
    (same : ∀ entry ∈ entries, cells' entry.1 = cells entry.1) : Chain cells' first entries := by
  induction chain with
  | nil => exact .nil
  | cons found _ inductionHypothesis =>
      obtain ⟨here, later⟩ := List.forall_mem_cons.mp same
      exact .cons (here.trans found) (inductionHypothesis later)

theorem update (chain : Chain cells first entries) (outside : ∀ entry ∈ entries, entry.1 ≠ address)
    (cell : Option (Cell Item)) : Chain (Function.update cells address cell) first entries :=
  chain.congr fun entry membership => Function.update_of_ne (outside entry membership) _ _

end Chain

end LinkedList
