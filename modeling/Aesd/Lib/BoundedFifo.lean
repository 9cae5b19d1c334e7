import Mathlib.Data.List.DropRight

/-!
# Bounded first-in first-out queues

A queue of bounded capacity whose `push` drops the oldest item when there is
no room.  After any sequence of pushes it holds the last items pushed.
-/

universe u

namespace List

variable {α : Type u} {count : Nat}

theorem rtake_of_length_le {list : List α} (short : list.length ≤ count) :
    list.rtake count = list := by
  simp [rtake, Nat.sub_eq_zero_of_le short]

@[simp]
theorem length_rtake (count : Nat) (list : List α) :
    (list.rtake count).length = min count list.length := by
  unfold rtake
  rw [length_drop]
  omega

theorem map_rtake {β : Type u} (f : α → β) (count : Nat) (list : List α) :
    (list.rtake count).map f = (list.map f).rtake count := by
  simp [rtake, map_drop]

/-- The last elements of an append do not depend on what was dropped before. -/
theorem rtake_rtake_append (count : Nat) (first second : List α) :
    (first.rtake count ++ second).rtake count = (first ++ second).rtake count := by
  simp only [rtake_eq_reverse_take_reverse, reverse_append, reverse_reverse, take_append,
    take_take]
  congr 3
  omega

theorem rtake_append_singleton_of_length_eq {list : List α} (item : α)
    (positive : 0 < count) (filled : list.length = count) :
    (list ++ [item]).rtake count = list.tail ++ [item] := by
  obtain ⟨less, rfl⟩ : ∃ less, count = less + 1 := ⟨count - 1, by omega⟩
  rw [rtake_concat_succ, rtake, filled, ← drop_one]
  congr 2
  omega

end List

/-- A list of at most `capacity` items, the oldest first. -/
structure BoundedFifo (capacity : Nat) (Item : Type u) where
  items : List Item
  bounded : items.length ≤ capacity

namespace BoundedFifo

variable {capacity : Nat} {Item : Type u}

@[ext]
theorem ext {first second : BoundedFifo capacity Item}
    (same : first.items = second.items) : first = second := by
  cases first
  cases second
  simpa using same

def push (queue : BoundedFifo capacity Item) (item : Item) : BoundedFifo capacity Item :=
  ⟨(queue.items ++ [item]).rtake capacity, by rw [List.length_rtake]; exact Nat.min_le_left _ _⟩

def pushAll (queue : BoundedFifo capacity Item) (pushed : List Item) :
    BoundedFifo capacity Item :=
  pushed.foldl push queue

theorem push_items_of_room (queue : BoundedFifo capacity Item) (item : Item)
    (room : queue.items.length < capacity) :
    (queue.push item).items = queue.items ++ [item] :=
  List.rtake_of_length_le (by rw [List.length_append]; exact room)

theorem push_items_of_full (queue : BoundedFifo capacity Item) (item : Item)
    (positive : 0 < capacity) (filled : queue.items.length = capacity) :
    (queue.push item).items = queue.items.tail ++ [item] :=
  List.rtake_append_singleton_of_length_eq item positive filled

theorem pushAll_concat (queue : BoundedFifo capacity Item) (pushed : List Item) (item : Item) :
    queue.pushAll (pushed ++ [item]) = (queue.pushAll pushed).push item := by
  simp [pushAll]

theorem pushAll_items (queue : BoundedFifo capacity Item) (pushed : List Item) :
    (queue.pushAll pushed).items = (queue.items ++ pushed).rtake capacity := by
  induction pushed generalizing queue with
  | nil => simp [pushAll, List.rtake_of_length_le queue.bounded]
  | cons item pushed inductionHypothesis =>
      have step := inductionHypothesis (queue.push item)
      rw [push, List.rtake_rtake_append, List.append_assoc] at step
      exact step

end BoundedFifo
