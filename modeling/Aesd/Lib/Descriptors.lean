import Mathlib.Logic.Function.Basic
import Mathlib.Order.Nat

/-!
# File descriptors

The open files of a process by descriptor, and what the calls that open, close and
duplicate descriptors do to them.  A new descriptor is the lowest one that is not open.
-/

namespace Descriptors

universe u

abbrev Table (File : Type u) := Nat → Option File

variable {File : Type u}

structure Lowest (table : Table File) (fd : Nat) : Prop where
  free : table fd = none
  below : ∀ other < fd, table other ≠ none

/-- A call that opens a file returns a descriptor or a negative number. -/
inductive Opens (file : File) (table : Table File) : Int → Table File → Prop where
  | opened {fd : Nat} : Lowest table fd →
      Opens file table fd (Function.update table fd (some file))
  | failed {result : Int} : result < 0 → Opens file table result table

/-- `close`. A descriptor that is open is closed also when an error is reported. -/
inductive Closes (fd : Nat) (table : Table File) : Int → Table File → Prop where
  | closed {result : Int} : table fd ≠ none → result ≤ 0 →
      Closes fd table result (Function.update table fd none)
  | bad {result : Int} : table fd = none → result < 0 → Closes fd table result table

inductive Duplicates (old new : Nat) (table : Table File) : Int → Table File → Prop where
  | duplicated {file : File} : table old = some file →
      Duplicates old new table new (Function.update table new (some file))
  | failed {result : Int} : result < 0 → Duplicates old new table result table

def fillBelow (table : Table File) (count : Nat) (entry : Option File) : Table File :=
  fun fd => if fd < count then entry else table fd

section Fill

variable {table : Table File} {count fd : Nat} {entry : Option File}

theorem fillBelow_zero (table : Table File) (entry : Option File) :
    fillBelow table 0 entry = table := by
  funext fd
  exact if_neg (Nat.not_lt_zero fd)

theorem fillBelow_of_lt (less : fd < count) : fillBelow table count entry fd = entry :=
  if_pos less

theorem fillBelow_of_le (le : count ≤ fd) : fillBelow table count entry fd = table fd :=
  if_neg (Nat.not_lt.mpr le)

theorem update_fillBelow :
    Function.update (fillBelow table count entry) count entry =
      fillBelow table (count + 1) entry := by
  funext fd
  rcases Nat.lt_trichotomy fd count with less | rfl | greater
  · rw [Function.update_of_ne (Nat.ne_of_lt less), fillBelow_of_lt less,
      fillBelow_of_lt (Nat.lt_succ_of_lt less)]
  · rw [Function.update_self, fillBelow_of_lt (Nat.lt_succ_self fd)]
  · rw [Function.update_of_ne (Nat.ne_of_gt greater), fillBelow_of_le (Nat.le_of_lt greater),
      fillBelow_of_le greater]

theorem update_fillBelow_of_lt (less : fd < count) :
    Function.update (fillBelow table count entry) fd entry = fillBelow table count entry := by
  rw [Function.update_eq_self_iff, fillBelow_of_lt less]

end Fill

section Calls

variable {table table' : Table File} {file : File} {fd other old new : Nat} {result : Int}

theorem Lowest.unique (first : Lowest table fd) (second : Lowest table other) : fd = other := by
  rcases Nat.lt_trichotomy fd other with less | same | greater
  · exact absurd first.free (second.below fd less)
  · exact same
  · exact absurd second.free (first.below other greater)

theorem Lowest.zero (free : table 0 = none) : Lowest table 0 :=
  ⟨free, fun _ less => absurd less (Nat.not_lt_zero _)⟩

theorem exists_lowest (free : ∃ fd, table fd = none) : ∃ fd, Lowest table fd := by
  classical
  exact ⟨Nat.find free, Nat.find_spec free, fun other less => Nat.find_min free less⟩

theorem Opens.of_nonneg (opens : Opens file table result table') (nonnegative : 0 ≤ result) :
    ∃ fd : Nat, result = fd ∧ Lowest table fd ∧ table' = Function.update table fd (some file) := by
  cases opens with
  | opened lowest => exact ⟨_, rfl, lowest, rfl⟩
  | failed negative => omega

theorem Opens.of_neg (opens : Opens file table result table') (negative : result < 0) :
    table' = table := by
  cases opens with
  | opened lowest => omega
  | failed _ => rfl

theorem Closes.of_nonneg (closes : Closes fd table result table') (nonnegative : 0 ≤ result) :
    table fd ≠ none ∧ table' = Function.update table fd none := by
  cases closes with
  | closed isOpen _ => exact ⟨isOpen, rfl⟩
  | bad _ negative => omega

/-- After `close` the descriptor is not open, whatever is returned. -/
theorem Closes.eq_update (closes : Closes fd table result table') :
    table' = Function.update table fd none := by
  cases closes with
  | closed _ _ => rfl
  | bad free _ => rw [← free, Function.update_eq_self]

theorem Duplicates.of_nonneg (duplicates : Duplicates old new table result table')
    (nonnegative : 0 ≤ result) :
    ∃ file, table old = some file ∧ table' = Function.update table new (some file) := by
  cases duplicates with
  | duplicated isOpen => exact ⟨_, isOpen, rfl⟩
  | failed negative => omega

theorem Duplicates.of_neg (duplicates : Duplicates old new table result table')
    (negative : result < 0) : table' = table := by
  cases duplicates with
  | duplicated isOpen => omega
  | failed _ => rfl

/-- Opening the lowest free descriptor and closing it again changes nothing. -/
theorem Lowest.close_open (lowest : Lowest table fd) :
    Function.update (Function.update table fd (some file)) fd none = table := by
  rw [Function.update_idem, ← lowest.free, Function.update_eq_self]

end Calls

end Descriptors
