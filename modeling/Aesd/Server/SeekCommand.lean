import Aesd.Server.Connection

/-!
# Seek commands among the lines of a client

A seek command is a line with the key, two decimal numbers below `2 ^ 32` with a
comma between them, and the newline.  The parser of the server agrees with this
on seek commands; other lines with the key are its concern too, and it writes
none of them to the device.
-/

namespace Aesd

open CText

def comma : UInt8 := 44

def IsNumber (digits : List UInt8) : Prop :=
  digits ≠ [] ∧ (∀ digit ∈ digits, isdigit digit) ∧ decimal digits < 2 ^ 32

instance : DecidablePred IsNumber := fun _ => inferInstanceAs (Decidable (_ ∧ _))

def seekLine (command offset : List UInt8) : List UInt8 :=
  seekKey ++ (command ++ comma :: (offset ++ [newline]))

def seekCommand (line : List UInt8) : Option AesdSeekto :=
  let command := (line.drop seekKey.length).takeWhile isdigit
  let offset := (line.drop (seekKey.length + command.length + 1)).takeWhile isdigit
  if line = seekLine command offset ∧ IsNumber command ∧ IsNumber offset then
    some
      { writeCmd := .ofNat (decimal command)
        writeCmdOffset := .ofNat (decimal offset) }
  else none

/-- The key is in a text, as far as `strstr` looks. -/
def HasKey (data : List UInt8) : Prop := seekKey <:+: cString data

instance : DecidablePred HasKey := fun _ => inferInstanceAs (Decidable (_ <:+: _))

section Grammar

variable {line command offset : List UInt8} {seekto : AesdSeekto}

theorem seekCommand_seekLine (number : IsNumber command) (number' : IsNumber offset) :
    seekCommand (seekLine command offset) =
      some
        { writeCmd := .ofNat (decimal command)
          writeCmdOffset := .ofNat (decimal offset) } := by
  have first : ((seekLine command offset).drop seekKey.length).takeWhile isdigit = command := by
    rw [seekLine, List.drop_left]
    exact takeWhile_isdigit number.2.1 (by simp [comma, isdigit])
  have second : ((seekLine command offset).drop
      (seekKey.length + command.length + 1)).takeWhile isdigit = offset := by
    have cut : (seekLine command offset).drop (seekKey.length + command.length + 1) =
        offset ++ [newline] := by
      rw [Nat.add_assoc, ← List.drop_drop, seekLine, List.drop_left, ← List.drop_drop,
        List.drop_left]
      rfl
    rw [cut]
    exact takeWhile_isdigit number'.2.1 (by simp [newline, isdigit])
  simp only [seekCommand, first, second]
  exact if_pos ⟨trivial, number, number'⟩

theorem seekCommand_eq_some_iff :
    seekCommand line = some seekto ↔
      ∃ command offset, line = seekLine command offset ∧ IsNumber command ∧ IsNumber offset ∧
        seekto.writeCmd = .ofNat (decimal command) ∧
        seekto.writeCmdOffset = .ofNat (decimal offset) := by
  constructor
  · intro found
    simp only [seekCommand] at found
    split at found
    case isTrue grammar =>
      cases found
      exact ⟨_, _, grammar.1, grammar.2.1, grammar.2.2, rfl, rfl⟩
    case isFalse => cases found
  · rintro ⟨command, offset, rfl, number, number', first, second⟩
    rw [seekCommand_seekLine number number', ← first, ← second]

theorem zero_notMem_seekLine (number : IsNumber command) (number' : IsNumber offset) :
    0 ∉ seekLine command offset := by
  have digits : ∀ {digits : List UInt8}, IsNumber digits → 0 ∉ digits := by
    intro digits number zero
    exact absurd (number.2.1 0 zero) (by decide)
  have key : 0 ∉ seekKey := by decide
  simp [seekLine, digits number, digits number', key, comma, newline]

theorem hasKey_of_seekCommand (found : seekCommand line = some seekto) : HasKey line := by
  obtain ⟨command, offset, rfl, number, number', -, -⟩ := seekCommand_eq_some_iff.mp found
  rw [HasKey, cString_of_notMem (zero_notMem_seekLine number number')]
  exact List.IsPrefix.isInfix (List.prefix_append _ _)

theorem ofInt_toInt (number : Nat) : UInt32.ofInt (toInt number) = .ofNat number := by
  have same : toInt number % 2 ^ 32 = number % 2 ^ 32 := Int.bmod_emod
  apply UInt32.toNat_inj.mp
  simp only [UInt32.ofInt, UInt32.toNat_ofNat', same]
  omega

theorem parseSeekto_of_seekCommand (found : seekCommand line = some seekto) :
    parseSeekto line = some seekto := by
  obtain ⟨command, offset, rfl, number, number', first, second⟩ :=
    seekCommand_eq_some_iff.mp found
  have below : ∀ {digits : List UInt8}, IsNumber digits → decimal digits < 2 ^ 63 :=
    fun number => Nat.lt_trans number.2.2 (by decide)
  have parsed := strtol_digits number.1 number.2.1
    (show ∀ byte ∈ (comma :: (offset ++ [newline])).head?, isdigit byte = false from
      by simp [comma, isdigit]) (below number)
  have parsed' := strtol_digits number'.1 number'.2.1
    (show ∀ byte ∈ [newline].head?, isdigit byte = false from by simp [newline, isdigit])
    (below number')
  have text : (cString (seekLine command offset)).drop seekKey.length =
      command ++ comma :: (offset ++ [newline]) := by
    rw [cString_of_notMem (zero_notMem_seekLine number number'), seekLine, List.drop_left]
  simp only [parseSeekto, text, parsed]
  simp only [comma, parsed', ofInt_toInt, ← first, ← second]

end Grammar

end Aesd
