import Mathlib.Data.List.Basic

/-!
# Slices of consecutive blocks

A range of a concatenation of blocks lies in parts of some of them.  `slices`
lists the parts that are not empty, in order.
-/

namespace Slicing

universe u


variable {Cell : Type u} {blocks before after : List (List Cell)} {block : List Cell}
  {start count : Nat}

/-- The parts of the blocks that `count` cells from `start` on lie in. -/
def slices : List (List Cell) → Nat → Nat → List (List Cell)
  | [], _, _ => []
  | block :: blocks, start, count =>
      let part := (block.drop start).take count
      let parts := slices blocks (start - block.length) (count - part.length)
      if part.isEmpty then parts else part :: parts

theorem slices_cons_of_nil (nothing : (block.drop start).take count = []) :
    slices (block :: blocks) start count = slices blocks (start - block.length) count := by
  simp [slices, nothing]

theorem slices_cons_of_ne_nil (nonempty : (block.drop start).take count ≠ []) :
    slices (block :: blocks) start count = (block.drop start).take count ::
      slices blocks (start - block.length) (count - ((block.drop start).take count).length) := by
  rw [slices]
  apply if_neg
  rwa [List.isEmpty_iff]

theorem slices_zero (blocks : List (List Cell)) (start : Nat) : slices blocks start 0 = [] := by
  induction blocks generalizing start with
  | nil => rfl
  | cons block blocks inductionHypothesis =>
      rw [slices_cons_of_nil List.take_zero]
      exact inductionHypothesis _

theorem ne_nil_of_mem_slices {part : List Cell} (membership : part ∈ slices blocks start count) :
    part ≠ [] := by
  induction blocks generalizing start count with
  | nil => simp [slices] at membership
  | cons block blocks inductionHypothesis =>
      by_cases nothing : (block.drop start).take count = []
      · rw [slices_cons_of_nil nothing] at membership
        exact inductionHypothesis membership
      · rw [slices_cons_of_ne_nil nothing] at membership
        rcases List.mem_cons.mp membership with here | later
        · rw [here]
          exact nothing
        · exact inductionHypothesis later

theorem flatten_slices (blocks : List (List Cell)) (start count : Nat) :
    (slices blocks start count).flatten = (blocks.flatten.drop start).take count := by
  induction blocks generalizing start count with
  | nil => simp [slices]
  | cons block blocks inductionHypothesis =>
      have parts : ((block :: blocks).flatten.drop start).take count =
          (block.drop start).take count ++
            (blocks.flatten.drop (start - block.length)).take
              (count - ((block.drop start).take count).length) := by
        rw [List.flatten_cons, List.drop_append, List.take_append, List.length_take]
        congr 2
        omega
      rw [parts, ← inductionHypothesis]
      by_cases nothing : (block.drop start).take count = []
      · rw [slices_cons_of_nil nothing, nothing]
        rfl
      · rw [slices_cons_of_ne_nil nothing, List.flatten_cons]

theorem slices_eq_nil (nothing : (blocks.flatten.drop start).take count = []) :
    slices blocks start count = [] := by
  rw [← flatten_slices, List.flatten_eq_nil_iff] at nothing
  apply List.eq_nil_iff_forall_not_mem.mpr
  intro part membership
  exact ne_nil_of_mem_slices membership (nothing part membership)

theorem slices_append (reached : before.flatten.length ≤ start) :
    slices (before ++ after) start count = slices after (start - before.flatten.length) count := by
  induction before generalizing start with
  | nil => rfl
  | cons block before inductionHypothesis =>
      rw [List.flatten_cons, List.length_append] at reached
      have nothing : (block.drop start).take count = [] := by
        rw [List.drop_of_length_le (by omega), List.take_nil]
      rw [List.cons_append, slices_cons_of_nil nothing, inductionHypothesis (by omega),
        List.flatten_cons, List.length_append, Nat.sub_add_eq]

theorem slices_next {entryOffset : Nat} (position : before.flatten.length + entryOffset = start)
    (inside : entryOffset < block.length) (wanted : 0 < count) :
    slices (before ++ block :: after) start count = (block.drop entryOffset).take count ::
      slices (before ++ block :: after)
        (start + ((block.drop entryOffset).take count).length)
        (count - ((block.drop entryOffset).take count).length) := by
  have offset : start - before.flatten.length = entryOffset := by omega
  have length : ((block.drop entryOffset).take count).length =
      min count (block.length - entryOffset) := by
    rw [List.length_take, List.length_drop]
  have nonempty : (block.drop entryOffset).take count ≠ [] := by
    rw [← List.length_pos_iff_ne_nil, length]
    omega
  rw [slices_append (by omega), offset, slices_cons_of_ne_nil nonempty, slices_append (by omega)]
  congr 1
  have behind : start + ((block.drop entryOffset).take count).length - before.flatten.length =
      entryOffset + ((block.drop entryOffset).take count).length := by omega
  have nothing : (block.drop (entryOffset + ((block.drop entryOffset).take count).length)).take
      (count - ((block.drop entryOffset).take count).length) = [] := by
    rw [List.take_eq_nil_iff, List.drop_eq_nil_iff]
    omega
  rw [behind, slices_cons_of_nil nothing]
  rcases Nat.lt_or_ge (block.length - entryOffset) count with ends | within
  · congr 1
    omega
  · rw [show count - ((block.drop entryOffset).take count).length = 0 by omega, slices_zero,
      slices_zero]

end Slicing
