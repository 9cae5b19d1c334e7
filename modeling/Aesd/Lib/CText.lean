import Mathlib.Algebra.Order.Ring.Int
import Mathlib.Algebra.Order.Ring.Nat
import Mathlib.Data.List.Infix
import Mathlib.Data.List.TakeWhile

/-!
# Text functions of the C library

A text is a list of bytes, as a program finds them in memory; a C string ends at
the first zero byte.  `strstr` and `strtol` take the bytes before it.  `long`
has 64 bits.
-/

namespace CText

def cString (bytes : List UInt8) : List UInt8 := bytes.takeWhile (· ≠ 0)

def ascii (literal : String) : List UInt8 :=
  literal.toList.map fun character => UInt8.ofNat character.toNat

theorem cString_of_notMem {bytes : List UInt8} (absent : 0 ∉ bytes) : cString bytes = bytes := by
  apply List.takeWhile_eq_self_iff.mpr
  intro byte membership
  exact decide_eq_true fun zero => absent (zero ▸ membership)

theorem length_cString_le (bytes : List UInt8) : (cString bytes).length ≤ bytes.length :=
  (List.takeWhile_prefix _).length_le

/-- The C string of a concatenation goes on in the second part only if the first
part has no zero byte. -/
theorem cString_append (bytes more : List UInt8) :
    cString (bytes ++ more) = if 0 ∈ bytes then cString bytes else bytes ++ cString more := by
  induction bytes with
  | nil => rfl
  | cons byte bytes inductionHypothesis =>
      by_cases zero : byte = 0
      · simp [cString, zero]
      · have kept : ∀ bytes, cString (byte :: bytes) = byte :: cString bytes := by
          intro bytes
          simp [cString, zero]
        have elsewhere : 0 ∈ byte :: bytes ↔ 0 ∈ bytes := by simp [Ne.symm zero]
        simp only [List.cons_append, kept, inductionHypothesis, elsewhere]
        split <;> rfl

/-! ## `strstr` -/

/-- What begins at the first occurrence of `needle` in a string. -/
def strstr (needle : List UInt8) : List UInt8 → Option (List UInt8)
  | [] => if needle = [] then some [] else none
  | byte :: rest =>
      if needle.isPrefixOf (byte :: rest) then some (byte :: rest) else strstr needle rest

theorem strstr_ne_none_iff {needle string : List UInt8} :
    strstr needle string ≠ none ↔ needle <:+: string := by
  induction string with
  | nil => by_cases empty : needle = [] <;> simp [strstr, empty]
  | cons byte rest inductionHypothesis =>
      rw [List.infix_cons_iff, ← inductionHypothesis, strstr]
      by_cases begins : needle <+: byte :: rest
      · simp [begins]
      · have notPrefix : ¬ needle.isPrefixOf (byte :: rest) = true := by simpa using begins
        rw [if_neg notPrefix]
        simp [begins]

/-- A text is on one side of a byte that it does not contain. -/
theorem infix_append_cons {needle first second : List UInt8} {byte : UInt8}
    (absent : byte ∉ needle) (inside : needle <:+: first ++ byte :: second) :
    needle <:+: first ∨ needle <:+: second := by
  induction first with
  | nil =>
      rcases List.infix_cons_iff.mp inside with begins | later
      · cases needle with
        | nil => exact .inl (List.infix_refl [])
        | cons head needle =>
            have same : head = byte := (List.cons_prefix_cons.mp begins).1
            exact absurd (same ▸ List.mem_cons_self) absent
      · exact .inr later
  | cons head first inductionHypothesis =>
      rcases List.infix_cons_iff.mp inside with begins | later
      · have prefixFirst : head :: first <+: head :: first ++ byte :: second :=
          List.prefix_append _ _
        rcases List.prefix_or_prefix_of_prefix begins prefixFirst with short | long
        · exact .inl short.isInfix
        · obtain ⟨rest, rfl⟩ := long
          cases rest with
          | nil => exact .inl (by rw [List.append_nil])
          | cons next rest =>
              have following := (List.prefix_append_right_inj (head :: first)).mp begins
              have same : next = byte := (List.cons_prefix_cons.mp following).1
              exact absurd (by simp [same]) absent
      · rcases inductionHypothesis later with early | late
        · exact .inl (List.infix_cons early)
        · exact .inr late

/-! ## `strtol` -/

def isspace (byte : UInt8) : Bool := byte = 32 || (9 ≤ byte && byte ≤ 13)

def isdigit (byte : UInt8) : Bool := 48 ≤ byte && byte ≤ 57

/-- The number that decimal digits denote. -/
def decimal (digits : List UInt8) : Nat :=
  digits.foldl (fun value digit => 10 * value + (digit.toNat - 48)) 0

/-- A number that does not fit into a `long` becomes the nearest one that does. -/
def clampLong (value : Int) : Int := max (-2 ^ 63) (min value (2 ^ 63 - 1))

/-- `strtol` with base 10: the number, and where the conversion ended.  Without a
digit nothing is converted. -/
def strtol (string : List UInt8) : Int × List UInt8 :=
  let (negative, unsigned) :=
    match string.dropWhile isspace with
    | 45 :: unsigned => (true, unsigned)
    | 43 :: unsigned => (false, unsigned)
    | unsigned => (false, unsigned)
  let digits := unsigned.takeWhile isdigit
  if digits = [] then (0, string)
  else
    (clampLong (if negative then -(decimal digits : Int) else decimal digits),
      unsigned.dropWhile isdigit)

theorem takeWhile_isdigit {digits rest : List UInt8} (allDigits : ∀ digit ∈ digits, isdigit digit)
    (ends : ∀ byte ∈ rest.head?, isdigit byte = false) :
    (digits ++ rest).takeWhile isdigit = digits := by
  rw [List.takeWhile_append_of_pos allDigits]
  cases rest with
  | nil => simp
  | cons byte rest => simp [ends byte rfl]

theorem dropWhile_isdigit {digits rest : List UInt8} (allDigits : ∀ digit ∈ digits, isdigit digit)
    (ends : ∀ byte ∈ rest.head?, isdigit byte = false) :
    (digits ++ rest).dropWhile isdigit = rest := by
  rw [List.dropWhile_append_of_pos allDigits]
  cases rest with
  | nil => simp
  | cons byte rest => simp [ends byte rfl]

theorem isdigit_bounds {byte : UInt8} (digit : isdigit byte = true) : 48 ≤ byte ∧ byte ≤ 57 := by
  simpa [isdigit] using digit

theorem strtol_digits {digits rest : List UInt8} (nonempty : digits ≠ [])
    (allDigits : ∀ digit ∈ digits, isdigit digit)
    (ends : ∀ byte ∈ rest.head?, isdigit byte = false) (fits : decimal digits < 2 ^ 63) :
    strtol (digits ++ rest) = ((decimal digits : Int), rest) := by
  have taken := takeWhile_isdigit allDigits ends
  have dropped := dropWhile_isdigit allDigits ends
  obtain ⟨first, others, rfl⟩ := List.exists_cons_of_ne_nil nonempty
  have bounds := isdigit_bounds (allDigits first List.mem_cons_self)
  have noSpace : isspace first = false := by
    simp only [isspace]
    grind
  have noMinus : first ≠ 45 := by grind
  have noPlus : first ≠ 43 := by grind
  have clamped : clampLong (decimal (first :: others)) = decimal (first :: others) := by
    simp only [clampLong]
    omega
  have trimmed : (first :: others ++ rest).dropWhile isspace = first :: others ++ rest := by
    simp [noSpace]
  simp only [strtol, trimmed]
  split
  case h_1 equality => exact absurd (List.cons.inj equality).1 noMinus
  case h_2 equality => exact absurd (List.cons.inj equality).1 noPlus
  case h_3 =>
    simp only [taken, dropped, clamped, if_neg nonempty, Bool.false_eq_true, if_false]

end CText
