import Mathlib.Data.List.Perm.Basic
import Mathlib.Data.List.Nodup

/-!
# A heap of blocks with identities

Every allocation hands out an identity that was never used before.  The heap
remembers the blocks that are live and, in order, the identities that were
given back.  `Owns heap pointers` says that `pointers` are exactly the live
blocks, each held once, and that no block was ever given back twice.
-/

namespace BlockHeap

universe u

structure Block (Cell : Type u) where
  capacity : Nat
  content : List Cell
  deriving DecidableEq, Repr

structure Heap (Cell : Type u) where
  /-- The first identity that has not been handed out. -/
  next : Nat
  block : Nat → Option (Block Cell)
  /-- The identities given back so far, the latest first. -/
  retired : List Nat

namespace Heap

variable {Cell : Type u}

def empty : Heap Cell := ⟨0, fun _ => none, []⟩

/-- The cells behind a pointer; a null or dead pointer has none. -/
def content (heap : Heap Cell) (pointer : Option Nat) : List Cell :=
  ((pointer.bind heap.block).map Block.content).getD []

/-- A successful resize: a fresh block takes over the cells of the old one,
which is given back. The new pointer is `heap.next`. -/
def resize (heap : Heap Cell) (old : Option Nat) (capacity : Nat) : Heap Cell where
  next := heap.next + 1
  block pointer :=
    if pointer = heap.next then some ⟨capacity, (heap.content old).take capacity⟩
    else if old = some pointer then none
    else heap.block pointer
  retired := old.toList ++ heap.retired

def free (heap : Heap Cell) (pointer : Nat) : Heap Cell where
  next := heap.next
  block other := if other = pointer then none else heap.block other
  retired := pointer :: heap.retired

/-- Overwrite the cells of a live block from `offset` on. -/
def store (heap : Heap Cell) (pointer offset : Nat) (data : List Cell) : Heap Cell :=
  { heap with
    block := fun other =>
      if other = pointer then
        (heap.block pointer).map fun block =>
          ⟨block.capacity, block.content.take offset ++ data ++
            block.content.drop (offset + data.length)⟩
      else heap.block other }

/-- The blocks of `pointers` are the live ones, each held exactly once, and
nothing was given back twice. -/
structure Owns (heap : Heap Cell) (pointers : List Nat) : Prop where
  distinct : pointers.Nodup
  live : ∀ pointer, (heap.block pointer).isSome ↔ pointer ∈ pointers
  retiredOnce : heap.retired.Nodup
  retiredDead : ∀ pointer ∈ heap.retired, pointer ∉ pointers
  fresh : ∀ pointer, pointer ∈ pointers ∨ pointer ∈ heap.retired → pointer < heap.next

theorem content_some {heap : Heap Cell} {pointer : Nat} {block : Block Cell}
    (found : heap.block pointer = some block) :
    heap.content (some pointer) = block.content := by
  simp [content, found]

theorem empty_owns : Owns (empty : Heap Cell) [] where
  distinct := List.nodup_nil
  live _ := by simp [empty]
  retiredOnce := List.nodup_nil
  retiredDead _ membership := by simp [empty] at membership
  fresh _ membership := by simp [empty] at membership

namespace Owns

variable {heap : Heap Cell} {pointers others : List Nat} {pointer : Nat}

theorem perm (owns : Owns heap pointers) (same : pointers.Perm others) :
    Owns heap others where
  distinct := same.nodup_iff.mp owns.distinct
  live p := (owns.live p).trans same.mem_iff
  retiredOnce := owns.retiredOnce
  retiredDead p retired := fun held => owns.retiredDead p retired (same.mem_iff.mpr held)
  fresh p given := owns.fresh p (given.imp_left same.mem_iff.mpr)

theorem next_notMem (owns : Owns heap pointers) : heap.next ∉ pointers :=
  fun held => Nat.lt_irrefl _ (owns.fresh _ (.inl held))

theorem free (owns : Owns heap (pointer :: pointers)) :
    Owns (heap.free pointer) pointers := by
  have parts := List.nodup_cons.mp owns.distinct
  refine ⟨parts.2, ?_, ?_, ?_, ?_⟩
  · intro other
    by_cases same : other = pointer
    · subst same
      simp [Heap.free, parts.1]
    · simp [Heap.free, same, owns.live]
  · refine List.nodup_cons.mpr ⟨fun again => ?_, owns.retiredOnce⟩
    exact owns.retiredDead _ again List.mem_cons_self
  · intro other retired held
    rcases List.mem_cons.mp retired with equality | earlier
    · exact parts.1 (equality ▸ held)
    · exact owns.retiredDead _ earlier (List.mem_cons_of_mem _ held)
  · rintro other (held | retired)
    · exact owns.fresh _ (.inl (List.mem_cons_of_mem _ held))
    · rcases List.mem_cons.mp retired with equality | earlier
      · exact owns.fresh _ (.inl (equality ▸ List.mem_cons_self))
      · exact owns.fresh _ (.inr earlier)

theorem resize {old : Option Nat} (capacity : Nat)
    (owns : Owns heap (old.toList ++ pointers)) :
    Owns (heap.resize old capacity) (heap.next :: pointers) := by
  have parts := List.nodup_append.mp owns.distinct
  have freshNext := owns.next_notMem
  have freshRetired : heap.next ∉ heap.retired :=
    fun retired => Nat.lt_irrefl _ (owns.fresh _ (.inr retired))
  have oldLive : ∀ other, old = some other ↔ other ∈ old.toList :=
    fun other => Option.mem_toList.symm
  refine ⟨?_, ?_, ?_, ?_, ?_⟩
  · exact List.nodup_cons.mpr
      ⟨fun held => freshNext (List.mem_append_right _ held), parts.2.1⟩
  · intro other
    simp only [Heap.resize, List.mem_cons]
    by_cases isNew : other = heap.next
    · simp [isNew]
    · by_cases isOld : old = some other
      · have dead : other ∉ pointers := fun held =>
          parts.2.2 other ((oldLive other).mp isOld) other held rfl
        simp [isNew, isOld, dead]
      · have notOld : other ∉ old.toList := fun held => isOld ((oldLive other).mpr held)
        simp [isNew, isOld, owns.live, notOld]
  · refine List.nodup_append.mpr ⟨parts.1, owns.retiredOnce, ?_⟩
    intro first firstOld second secondRetired equality
    exact owns.retiredDead second secondRetired
      (List.mem_append_left _ (equality ▸ firstOld))
  · intro other retired held
    rcases List.mem_append.mp retired with wasOld | earlier
    · rcases List.mem_cons.mp held with isNew | kept
      · exact freshNext (List.mem_append_left _ (isNew ▸ wasOld))
      · exact parts.2.2 other wasOld other kept rfl
    · rcases List.mem_cons.mp held with isNew | kept
      · exact freshRetired (isNew ▸ earlier)
      · exact owns.retiredDead _ earlier (List.mem_append_right _ kept)
  · rintro other (held | retired)
    · rcases List.mem_cons.mp held with isNew | kept
      · exact isNew ▸ Nat.lt_succ_self _
      · exact Nat.lt_succ_of_lt (owns.fresh _ (.inl (List.mem_append_right _ kept)))
    · rcases List.mem_append.mp retired with wasOld | earlier
      · exact Nat.lt_succ_of_lt (owns.fresh _ (.inl (List.mem_append_left _ wasOld)))
      · exact Nat.lt_succ_of_lt (owns.fresh _ (.inr earlier))

theorem store (owns : Owns heap pointers) (offset : Nat) (data : List Cell) :
    Owns (heap.store pointer offset data) pointers where
  distinct := owns.distinct
  live other := by
    rw [← owns.live]
    by_cases same : other = pointer
    · subst same
      simp [Heap.store]
    · simp [Heap.store, same]
  retiredOnce := owns.retiredOnce
  retiredDead := owns.retiredDead
  fresh := owns.fresh

end Owns

def freeAll (heap : Heap Cell) (pointers : List Nat) : Heap Cell := pointers.foldl free heap

theorem freeAll_append (heap : Heap Cell) (first second : List Nat) :
    heap.freeAll (first ++ second) = (heap.freeAll first).freeAll second :=
  List.foldl_append

theorem retired_freeAll (heap : Heap Cell) (pointers : List Nat) :
    (heap.freeAll pointers).retired = pointers.reverse ++ heap.retired := by
  induction pointers generalizing heap with
  | nil => rfl
  | cons pointer pointers inductionHypothesis =>
      rw [freeAll, List.foldl_cons, ← freeAll, inductionHypothesis, List.reverse_cons,
        List.append_assoc]
      rfl

theorem Owns.freeAll {heap : Heap Cell} {pointers others : List Nat}
    (owns : Owns heap (pointers ++ others)) : Owns (heap.freeAll pointers) others := by
  induction pointers generalizing heap with
  | nil => exact owns
  | cons pointer pointers inductionHypothesis => exact inductionHypothesis owns.free

/-! ## What the operations leave alone -/

section Frame

variable {heap : Heap Cell} {pointer other : Nat}

theorem block_free_of_ne (different : other ≠ pointer) :
    (heap.free pointer).block other = heap.block other := by
  simp [free, different]

theorem block_resize_of_ne {old : Option Nat} (capacity : Nat)
    (notNew : other ≠ heap.next) (notOld : old ≠ some other) :
    (heap.resize old capacity).block other = heap.block other := by
  simp [resize, notNew, notOld]

@[simp]
theorem block_resize_next (heap : Heap Cell) (old : Option Nat) (capacity : Nat) :
    (heap.resize old capacity).block heap.next =
      some ⟨capacity, (heap.content old).take capacity⟩ := by
  simp [resize]

theorem block_store_of_ne (offset : Nat) (data : List Cell) (different : other ≠ pointer) :
    (heap.store pointer offset data).block other = heap.block other := by
  simp [store, different]

theorem block_store_self {block : Block Cell} (offset : Nat) (data : List Cell)
    (found : heap.block pointer = some block) :
    (heap.store pointer offset data).block pointer =
      some ⟨block.capacity, block.content.take offset ++ data ++
        block.content.drop (offset + data.length)⟩ := by
  simp [store, found]

theorem content_congr {heap' : Heap Cell} {pointers : Option Nat}
    (same : ∀ pointer, pointers = some pointer → heap'.block pointer = heap.block pointer) :
    heap'.content pointers = heap.content pointers := by
  cases pointers with
  | none => rfl
  | some pointer => simp [content, same pointer rfl]

theorem content_store_resize (heap : Heap Cell) (old : Option Nat) {offset size : Nat}
    (data : List Cell) :
    ((heap.resize old (offset + size)).store heap.next offset data).content (some heap.next) =
      (heap.content old).take offset ++ data ++
        ((heap.content old).take (offset + size)).drop (offset + data.length) := by
  rw [content_some (block_store_self offset data (block_resize_next heap old _))]
  simp [List.take_take]

end Frame

end Heap

end BlockHeap
