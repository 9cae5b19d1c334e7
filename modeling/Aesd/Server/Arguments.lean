import Aesd.Server.Connection
import Mathlib.Data.Nat.Digits.Defs

/-!
# The arguments of the server

`main` reads its arguments in a loop with two flags: an option, then a value if the
option takes one.  An argument is the bytes of a C string, without the zero byte.
-/

namespace Aesd

open CText

inductive ProgramParameter where
  | none
  | runAsDaemon
  | portNumber
  | outputFile
  deriving DecidableEq, Repr

structure Options where
  runningAsDaemon : Bool := false
  serverPort : Int := 9000
  outputFilePath : List UInt8 := ascii "/dev/aesdchar"
  deriving DecidableEq, Repr

def atoi (string : List UInt8) : Int := toInt (strtol string).1

/-- The port that the socket is bound to: `htons` takes 16 bits. -/
def Options.sinPort (options : Options) : Int := options.serverPort % 2 ^ 16

structure ArgumentLoop where
  options : Options := {}
  readingValue : Bool := false
  lastParameter : ProgramParameter := .none
  deriving DecidableEq, Repr

/-- One iteration of the loop over the arguments. It has no result if the usage is printed
and the program exits. -/
def argumentRound (state : ArgumentLoop) (argument : List UInt8) : Option ArgumentLoop :=
  if !state.readingValue then
    if argument = ascii "-d" then
      some
        { options := { state.options with runningAsDaemon := true }
          readingValue := false
          lastParameter := .runAsDaemon }
    else if argument = ascii "-p" then
      some { state with readingValue := true, lastParameter := .portNumber }
    else if argument = ascii "-f" then
      some { state with readingValue := true, lastParameter := .outputFile }
    else none
  else
    match state.lastParameter with
    | .portNumber =>
        some
          { options := { state.options with serverPort := atoi argument }
            readingValue := false
            lastParameter := .none }
    | .outputFile =>
        some
          { options := { state.options with outputFilePath := argument }
            readingValue := false
            lastParameter := .none }
    | _ => none

def readArguments (arguments : List (List UInt8)) : Option Options :=
  (arguments.foldlM argumentRound {}).map ArgumentLoop.options

/-! ## The command lines that are accepted -/

inductive Setting where
  | daemon
  | port (value : List UInt8)
  | file (value : List UInt8)
  deriving DecidableEq, Repr

namespace Setting

def arguments : Setting → List (List UInt8)
  | daemon => [ascii "-d"]
  | port value => [ascii "-p", value]
  | file value => [ascii "-f", value]

def port? : Setting → Option (List UInt8)
  | port value => some value
  | _ => none

def file? : Setting → Option (List UInt8)
  | file value => some value
  | _ => none

def choose (defaults : Options) (settings : List Setting) : Options where
  runningAsDaemon := defaults.runningAsDaemon || settings.contains daemon
  serverPort := ((settings.filterMap port?).getLast?.map atoi).getD defaults.serverPort
  outputFilePath := (settings.filterMap file?).getLast?.getD defaults.outputFilePath

end Setting

/-- An option without its value, at the end of the command line. -/
def Unfinished (arguments : List (List UInt8)) : Prop :=
  arguments = [] ∨ arguments = [ascii "-p"] ∨ arguments = [ascii "-f"]

def Unknown (arguments : List (List UInt8)) : Prop :=
  ∃ argument rest, arguments = argument :: rest ∧
    argument ∉ [ascii "-d", ascii "-p", ascii "-f"]

section Arguments

variable {options : Options} {lastParameter : ProgramParameter} {setting : Setting}
  {settings : List Setting} {arguments rest : List (List UInt8)}

theorem choose_nil (options : Options) : Setting.choose options [] = options := by
  simp [Setting.choose]

theorem choose_cons (options : Options) (setting : Setting) (settings : List Setting) :
    Setting.choose options (setting :: settings) =
      Setting.choose (Setting.choose options [setting]) settings := by
  cases setting with
  | daemon => simp [Setting.choose, Setting.port?, Setting.file?]
  | port value =>
      cases following : (settings.filterMap Setting.port?).getLast? <;>
        simp [Setting.choose, Setting.port?, Setting.file?, List.filterMap_cons,
          List.getLast?_cons, following, -List.getLast?_filterMap]
  | file value => simp [Setting.choose, Setting.port?, Setting.file?, List.getLast?_cons]

theorem foldlM_setting (options : Options) (lastParameter : ProgramParameter) (setting : Setting) :
    ∃ lastParameter', setting.arguments.foldlM argumentRound ⟨options, false, lastParameter⟩ =
      some ⟨Setting.choose options [setting], false, lastParameter'⟩ := by
  have portIsNotDaemon : ascii "-p" ≠ ascii "-d" := by decide
  have fileIsNotDaemon : ascii "-f" ≠ ascii "-d" := by decide
  have fileIsNotPort : ascii "-f" ≠ ascii "-p" := by decide
  cases setting with
  | daemon => exact ⟨.runAsDaemon, by simp [Setting.arguments, argumentRound, Setting.choose,
      Setting.port?, Setting.file?]⟩
  | port value => exact ⟨.none, by simp [Setting.arguments, argumentRound, Setting.choose,
      Setting.port?, Setting.file?, portIsNotDaemon]⟩
  | file value => exact ⟨.none, by simp [Setting.arguments, argumentRound, Setting.choose,
      Setting.port?, Setting.file?, fileIsNotDaemon, fileIsNotPort]⟩

theorem foldlM_settings (options : Options) (lastParameter : ProgramParameter)
    (settings : List Setting) (rest : List (List UInt8)) :
    ∃ lastParameter',
      (settings.flatMap Setting.arguments ++ rest).foldlM argumentRound
          ⟨options, false, lastParameter⟩ =
        rest.foldlM argumentRound ⟨Setting.choose options settings, false, lastParameter'⟩ := by
  induction settings generalizing options lastParameter with
  | nil => exact ⟨lastParameter, by rw [choose_nil]; rfl⟩
  | cons setting settings inductionHypothesis =>
      obtain ⟨middle, first⟩ := foldlM_setting options lastParameter setting
      obtain ⟨last, others⟩ := inductionHypothesis (Setting.choose options [setting]) middle
      refine ⟨last, ?_⟩
      rw [List.flatMap_cons, List.append_assoc, List.foldlM_append, first,
        choose_cons options setting settings]
      exact others

theorem foldlM_unfinished (unfinished : Unfinished arguments) :
    (arguments.foldlM argumentRound ⟨options, false, lastParameter⟩).map ArgumentLoop.options =
      some options := by
  rcases unfinished with rfl | rfl | rfl
  · rfl
  · rfl
  · rfl

theorem foldlM_unknown (unknown : Unknown arguments) :
    arguments.foldlM argumentRound ⟨options, false, lastParameter⟩ = none := by
  obtain ⟨argument, rest, rfl, noOption⟩ := unknown
  simp only [List.mem_cons, List.not_mem_nil, or_false, not_or] at noOption
  simp [argumentRound, noOption]

theorem exists_settings : ∀ arguments : List (List UInt8), ∃ (settings : List Setting) (rest : _),
    arguments = settings.flatMap Setting.arguments ++ rest ∧ (Unfinished rest ∨ Unknown rest)
  | [] => ⟨[], [], rfl, .inl (.inl rfl)⟩
  | [argument] => by
      by_cases daemon : argument = ascii "-d"
      · exact ⟨[.daemon], [], by simp [Setting.arguments, daemon], .inl (.inl rfl)⟩
      · by_cases valued : argument = ascii "-p" ∨ argument = ascii "-f"
        · exact ⟨[], [argument], rfl, .inl (.inr (by simpa using valued))⟩
        · refine ⟨[], [argument], rfl, .inr ⟨argument, [], rfl, ?_⟩⟩
          simpa using ⟨daemon, not_or.mp valued⟩
  | argument :: value :: others => by
      by_cases daemon : argument = ascii "-d"
      · obtain ⟨settings, rest, split, outcome⟩ := exists_settings (value :: others)
        exact ⟨.daemon :: settings, rest, by simp [Setting.arguments, daemon, split], outcome⟩
      · obtain ⟨settings, rest, split, outcome⟩ := exists_settings others
        by_cases port : argument = ascii "-p"
        · exact ⟨.port value :: settings, rest, by simp [Setting.arguments, port, split], outcome⟩
        · by_cases file : argument = ascii "-f"
          · exact ⟨.file value :: settings, rest, by simp [Setting.arguments, file, split],
              outcome⟩
          · refine ⟨[], argument :: value :: others, rfl, .inr ⟨argument, _, rfl, ?_⟩⟩
            simpa using ⟨daemon, port, file⟩

theorem readArguments_settings (unfinished : Unfinished rest) :
    readArguments (settings.flatMap Setting.arguments ++ rest) =
      some (Setting.choose {} settings) := by
  obtain ⟨last, read⟩ := foldlM_settings {} .none settings rest
  rw [readArguments, read]
  exact foldlM_unfinished unfinished

theorem readArguments_unknown (unknown : Unknown rest) :
    readArguments (settings.flatMap Setting.arguments ++ rest) = none := by
  obtain ⟨last, read⟩ := foldlM_settings {} .none settings rest
  rw [readArguments, read, foldlM_unknown unknown]
  rfl

/-- The loop accepts exactly the sequences of settings, also with the last value missing,
and the last port and file count. It stops exactly where an option should be and is not. -/
theorem readArguments_iff (arguments : List (List UInt8)) :
    (∀ options, readArguments arguments = some options ↔
      ∃ (settings : List Setting) (rest : _),
        arguments = settings.flatMap Setting.arguments ++ rest ∧
          Unfinished rest ∧ options = Setting.choose {} settings) ∧
    (readArguments arguments = none ↔
      ∃ (settings : List Setting) (rest : _),
        arguments = settings.flatMap Setting.arguments ++ rest ∧ Unknown rest) := by
  obtain ⟨settings, rest, split, outcome⟩ := exists_settings arguments
  refine ⟨fun options => ⟨?_, ?_⟩, ?_, ?_⟩
  · intro accepted
    refine ⟨settings, rest, split, ?_⟩
    rcases outcome with unfinished | unknown
    · rw [split, readArguments_settings unfinished] at accepted
      exact ⟨unfinished, (Option.some.inj accepted).symm⟩
    · rw [split, readArguments_unknown unknown] at accepted
      cases accepted
  · rintro ⟨settings, rest, rfl, unfinished, rfl⟩
    exact readArguments_settings unfinished
  · intro refused
    refine ⟨settings, rest, split, ?_⟩
    rcases outcome with unfinished | unknown
    · rw [split, readArguments_settings unfinished] at refused
      cases refused
    · exact unknown
  · rintro ⟨settings, rest, rfl, unknown⟩
    exact readArguments_unknown unknown

end Arguments

/-! ## A command line for every choice -/

def decimalText (number : Nat) : List UInt8 :=
  if number = 0 then [48]
  else (Nat.digits 10 number).reverse.map fun digit => UInt8.ofNat (48 + digit)

def Options.commandLine (options : Options) : List (List UInt8) :=
  (if options.runningAsDaemon then [ascii "-d"] else []) ++
    [ascii "-p", decimalText options.serverPort.toNat, ascii "-f", options.outputFilePath]

theorem toNat_digit {digit : Nat} (small : digit < 10) :
    (UInt8.ofNat (48 + digit)).toNat - 48 = digit := by
  rw [UInt8.toNat_ofNat', Nat.mod_eq_of_lt (by omega)]
  omega

theorem isdigit_digit {digit : Nat} (small : digit < 10) :
    isdigit (UInt8.ofNat (48 + digit)) = true := by
  have bounded : ∀ digit < 10, isdigit (UInt8.ofNat (48 + digit)) = true := by decide
  exact bounded digit small

theorem decimal_reverse {digits : List Nat} (small : ∀ digit ∈ digits, digit < 10) :
    decimal (digits.reverse.map fun digit => UInt8.ofNat (48 + digit)) =
      Nat.ofDigits 10 digits := by
  rw [decimal, List.map_reverse, List.foldl_reverse]
  induction digits with
  | nil => rfl
  | cons digit digits inductionHypothesis =>
      obtain ⟨first, others⟩ := List.forall_mem_cons.mp small
      rw [List.map_cons, List.foldr_cons, inductionHypothesis others, toNat_digit first,
        Nat.ofDigits_cons]
      exact Nat.add_comm _ _

theorem decimal_decimalText (number : Nat) : decimal (decimalText number) = number := by
  by_cases zero : number = 0
  · subst zero
    rfl
  · rw [decimalText, if_neg zero, decimal_reverse fun digit => Nat.digits_lt_base (by decide),
      Nat.ofDigits_digits]

theorem isdigit_decimalText {number : Nat} {digit : UInt8}
    (membership : digit ∈ decimalText number) : isdigit digit = true := by
  unfold decimalText at membership
  split at membership
  · rw [List.mem_singleton.mp membership]
    rfl
  · obtain ⟨digit, isDigit, rfl⟩ := List.mem_map.mp membership
    exact isdigit_digit (Nat.digits_lt_base (by decide) (List.mem_reverse.mp isDigit))

theorem decimalText_ne_nil (number : Nat) : decimalText number ≠ [] := by
  by_cases zero : number = 0
  · rw [decimalText, if_pos zero]
    exact List.cons_ne_nil _ _
  · rw [decimalText, if_neg zero]
    simpa [Nat.digits_eq_nil_iff_eq_zero] using zero

theorem atoi_decimalText {number : Nat} (small : number < 2 ^ 31) :
    atoi (decimalText number) = number := by
  have fits : decimal (decimalText number) < 2 ^ 63 := by
    rw [decimal_decimalText]
    omega
  have converted := @strtol_digits (decimalText number) [] (decimalText_ne_nil number)
    (fun digit membership => isdigit_decimalText membership) (by simp) fits
  rw [List.append_nil] at converted
  rw [atoi, converted, toInt, decimal_decimalText]
  exact Int.bmod_eq_of_le (by omega) (by omega)

/-- Every choice of a port that there is, of a file and of the daemon has a command line, with
which the socket is bound to that port. -/
theorem readArguments_commandLine (runningAsDaemon : Bool) (port : UInt16) (path : List UInt8) :
    readArguments (Options.mk runningAsDaemon port.toNat path).commandLine =
        some (Options.mk runningAsDaemon port.toNat path) ∧
      (Options.mk runningAsDaemon port.toNat path).sinPort = port.toNat := by
  have small := port.toNat_lt
  have isPort := atoi_decimalText (show port.toNat < 2 ^ 31 by omega)
  have settings : (Options.mk runningAsDaemon port.toNat path).commandLine =
      ((if runningAsDaemon then [Setting.daemon] else []) ++
        [Setting.port (decimalText port.toNat), Setting.file path]).flatMap
          Setting.arguments ++ [] := by
    cases runningAsDaemon <;> rfl
  have chosen : Setting.choose {} ((if runningAsDaemon then [Setting.daemon] else []) ++
        [Setting.port (decimalText port.toNat), Setting.file path]) =
      ⟨runningAsDaemon, atoi (decimalText port.toNat), path⟩ := by
    cases runningAsDaemon <;> rfl
  refine ⟨?_, ?_⟩
  · rw [settings, readArguments_settings (.inl rfl), chosen, isPort]
  · simp only [Options.sinPort]
    omega

end Aesd
