import Aesd.Lib.Framing
import Aesd.Server.Session

/-!
# How a stream is cut into socket reads

The lines of a client are its requests, but a packet ends with the last byte of a
socket read: it can hold several lines, and a line whose newline is not the last
byte of a read waits for more.  So what the device is made to do depends on how
the stream is cut, unless the stream ends with a newline and either none of its
lines has the key or it is a single seek command.
-/

namespace Aesd

open CText Framing Loop Reactive

/-! ## Lines -/

/-- What a client means with a line. -/
def lineEffects (line : List UInt8) : List DeviceEffect :=
  match seekCommand line with
  | some seekto => [.ioctl seekto]
  | none => line.map .write

def streamEffects (stream : List UInt8) : List DeviceEffect :=
  (frames newline stream).flatMap lineEffects

section Lines

variable {line text more : List UInt8} {seekto : AesdSeekto}

theorem lineEffects_of_seekCommand (found : seekCommand line = some seekto) :
    lineEffects line = [.ioctl seekto] := by
  simp only [lineEffects, found]

theorem lineEffects_of_noKey (noKey : ¬ HasKey line) :
    lineEffects line = line.map .write ∧ packetEffects line = line.map .write := by
  have none : seekCommand line = none := by
    apply Option.eq_none_iff_forall_ne_some.mpr
    exact fun seekto found => noKey (hasKey_of_seekCommand found)
  exact ⟨by simp only [lineEffects, none], if_neg noKey⟩

theorem packetEffects_of_seekCommand (found : seekCommand line = some seekto) :
    packetEffects line = [.ioctl seekto] := by
  rw [packetEffects, if_pos (hasKey_of_seekCommand found), parseSeekto_of_seekCommand found]
  rfl

theorem length_packetEffects_of_hasKey (key : HasKey line) : (packetEffects line).length ≤ 1 := by
  rw [packetEffects, if_pos key, List.length_map]
  cases parseSeekto line <;> simp

theorem HasKey.length (key : HasKey line) : 19 ≤ line.length :=
  Nat.le_trans key.length_le (length_cString_le line)

theorem length_packetEffects_le (line : List UInt8) :
    (packetEffects line).length ≤ (lineEffects line).length := by
  by_cases key : HasKey line
  · have few := length_packetEffects_of_hasKey key
    have long := key.length
    cases found : seekCommand line with
    | none =>
        simp only [lineEffects, found, List.length_map]
        omega
    | some seekto =>
        rw [lineEffects_of_seekCommand found]
        exact few
  · rw [(lineEffects_of_noKey key).1, (lineEffects_of_noKey key).2]

theorem exists_seekCommand (key : HasKey line) (same : packetEffects line = lineEffects line) :
    ∃ seekto, seekCommand line = some seekto := by
  have few := length_packetEffects_of_hasKey key
  have long := key.length
  cases found : seekCommand line with
  | none =>
      simp only [same, lineEffects, found, List.length_map] at few
      omega
  | some seekto => exact ⟨seekto, rfl⟩

theorem lineEffects_ne_nil (nonempty : line ≠ []) : lineEffects line ≠ [] := by
  cases found : seekCommand line with
  | none => simpa [lineEffects, found] using nonempty
  | some seekto => simp [lineEffects, found]

theorem isFrame_of_seekCommand (found : seekCommand line = some seekto) :
    IsFrame newline line := by
  obtain ⟨command, offset, rfl, number, number', -, -⟩ := seekCommand_eq_some_iff.mp found
  have digits : ∀ {digits : List UInt8}, IsNumber digits → newline ∉ digits :=
    fun number inside => absurd (number.2.1 newline inside) (by decide)
  have key : newline ∉ seekKey := by decide
  refine ⟨seekKey ++ (command ++ comma :: offset), ?_, by simp [seekLine]⟩
  simp [key, digits number, digits number', show newline ≠ comma by decide]

/-- The key does not reach over the end of a line. -/
theorem hasKey_append (framed : IsFrame newline line) (key : HasKey (line ++ text)) :
    HasKey line ∨ HasKey text := by
  obtain ⟨body, -, rfl⟩ := framed
  rw [HasKey, cString_append] at key
  by_cases zero : 0 ∈ body ++ [newline]
  · rw [if_pos zero] at key
    exact .inl key
  · rw [if_neg zero] at key
    have absent : newline ∉ seekKey := by decide
    rw [List.append_assoc, List.singleton_append] at key
    rcases infix_append_cons absent key with early | late
    · refine .inl ?_
      rw [HasKey, cString_of_notMem zero]
      exact early.trans (List.prefix_append _ _).isInfix
    · exact .inr late

theorem exists_hasKey {lines : List (List UInt8)} (framed : ∀ line ∈ lines, IsFrame newline line)
    (key : HasKey lines.flatten) : ∃ line ∈ lines, HasKey line := by
  induction lines with
  | nil => exact absurd key (by decide)
  | cons line lines inductionHypothesis =>
      obtain ⟨first, others⟩ := List.forall_mem_cons.mp framed
      rcases hasKey_append first key with here | later
      · exact ⟨line, List.mem_cons_self, here⟩
      · obtain ⟨other, membership, found⟩ := inductionHypothesis others later
        exact ⟨other, List.mem_cons_of_mem _ membership, found⟩

end Lines

/-! ## Streams that are handled in every way to cut them -/

theorem packetsFrom_spec (received : List UInt8) (pieces : List (List UInt8))
    (goesOn : received.getLast? ≠ some newline) :
    (∀ packet ∈ packetsFrom received pieces, packet.getLast? = some newline) ∧
    ∃ rest, (packetsFrom received pieces).flatten ++ rest = received ++ pieces.flatten ∧
      rest.getLast? ≠ some newline := by
  induction pieces generalizing received with
  | nil => exact ⟨by simp [packetsFrom], received, by simp [packetsFrom], goesOn⟩
  | cons piece pieces inductionHypothesis =>
      by_cases ends : (received ++ piece).getLast? = some newline
      · obtain ⟨ended, rest, parts, unfinished⟩ := inductionHypothesis [] (by simp)
        rw [packetsFrom_ended ends]
        refine ⟨List.forall_mem_cons.mpr ⟨ends, ended⟩, rest, ?_, unfinished⟩
        rw [List.flatten_cons, List.append_assoc, parts]
        simp
      · obtain ⟨ended, rest, parts, unfinished⟩ := inductionHypothesis _ ends
        rw [packetsFrom_open ends]
        refine ⟨ended, rest, ?_, unfinished⟩
        rw [parts]
        simp

section Sufficient

variable {stream : List UInt8} {pieces : List (List UInt8)}

theorem piecesEffects_of_notMem (absent : newline ∉ pieces.flatten) :
    piecesEffects [] pieces = [] := by
  obtain ⟨ended, rest, parts, -⟩ := packetsFrom_spec [] pieces (by simp)
  rw [piecesEffects]
  cases packets : packetsFrom [] pieces with
  | nil => rfl
  | cons packet others =>
      rw [packets] at ended parts
      have inside := List.mem_of_getLast? (ended packet List.mem_cons_self)
      rw [List.nil_append] at parts
      exact absurd (by simp [← parts, inside]) absent

theorem packetsFrom_flatten (whole : remainder newline pieces.flatten = []) :
    (packetsFrom [] pieces).flatten = pieces.flatten ∧
    frames newline pieces.flatten = (packetsFrom [] pieces).flatMap (frames newline) := by
  obtain ⟨ended, rest, parts, unfinished⟩ := packetsFrom_spec [] pieces (by simp)
  rw [List.nil_append] at parts
  have nothing : rest = [] := by
    by_contra nonempty
    have last := getLast?_of_remainder whole (by simp [← parts, nonempty])
    rw [← parts, List.getLast?_append_of_ne_nil _ nonempty] at last
    exact unfinished last
  rw [nothing, List.append_nil] at parts
  refine ⟨parts, ?_⟩
  rw [← parts]
  exact frames_flatten fun packet membership => remainder_eq_nil (ended packet membership)

theorem flatMap_writes {parts : List (List UInt8)} {effects : List UInt8 → List DeviceEffect}
    (writes : ∀ part ∈ parts, effects part = part.map .write) :
    parts.flatMap effects = parts.flatten.map .write := by
  induction parts with
  | nil => rfl
  | cons part parts inductionHypothesis =>
      obtain ⟨first, others⟩ := List.forall_mem_cons.mp writes
      rw [List.flatMap_cons, List.flatten_cons, List.map_append, first,
        inductionHypothesis others]

/-- Lines without the key are written in order, however they are packed. -/
theorem piecesEffects_of_noKey (whole : remainder newline pieces.flatten = [])
    (noKey : ∀ line ∈ frames newline pieces.flatten, ¬ HasKey line) :
    piecesEffects [] pieces = streamEffects pieces.flatten := by
  obtain ⟨parts, framing⟩ := packetsFrom_flatten whole
  obtain ⟨ended, -⟩ := packetsFrom_spec [] pieces (by simp)
  obtain ⟨lines, -, -⟩ := frames_remainder newline pieces.flatten
  rw [whole, List.append_nil] at lines
  have plain : ∀ packet ∈ packetsFrom [] pieces, packetEffects packet = packet.map .write := by
    intro packet membership
    apply fun noKey => (lineEffects_of_noKey noKey).2
    intro key
    obtain ⟨packetLines, framed, -⟩ := frames_remainder newline packet
    rw [remainder_eq_nil (ended packet membership), List.append_nil] at packetLines
    obtain ⟨line, inside, found⟩ := exists_hasKey framed (packetLines ▸ key)
    apply noKey line _ found
    rw [framing]
    exact List.mem_flatMap.mpr ⟨packet, membership, inside⟩
  rw [piecesEffects, flatMap_writes plain, parts, streamEffects, flatMap_writes
    fun line membership => (lineEffects_of_noKey (noKey line membership)).1, ← lines]

theorem piecesEffects_of_seekCommand {seekto : AesdSeekto}
    (found : seekCommand pieces.flatten = some seekto) :
    piecesEffects [] pieces = streamEffects pieces.flatten := by
  obtain ⟨single, whole⟩ := (isFrame_of_seekCommand found).frames_eq
  obtain ⟨parts, framing⟩ := packetsFrom_flatten whole
  obtain ⟨ended, -⟩ := packetsFrom_spec [] pieces (by simp)
  rw [streamEffects, single, piecesEffects]
  rw [single] at framing
  have someFrame : ∀ packet ∈ packetsFrom [] pieces, frames newline packet ≠ [] := by
    intro packet membership none
    obtain ⟨lines, -⟩ := frames_remainder newline packet
    rw [none, remainder_eq_nil (ended packet membership)] at lines
    rw [lines] at membership
    exact absurd (ended _ membership) (by decide)
  cases packets : packetsFrom [] pieces with
  | nil => simp [packets] at framing
  | cons packet others =>
      rw [packets] at parts framing someFrame
      cases others with
      | nil =>
          rw [List.flatten_singleton] at parts
          rw [parts, List.flatMap_singleton, List.flatMap_singleton,
            packetEffects_of_seekCommand found, lineEffects_of_seekCommand found]
      | cons second others =>
          have firstFrame := List.length_pos_iff.mpr (someFrame packet (by simp))
          have secondFrame := List.length_pos_iff.mpr (someFrame second (by simp))
          have lengths := congrArg List.length framing
          simp only [List.flatMap_cons, List.length_append, List.length_singleton] at lengths
          omega

end Sufficient

/-! ## Ways to cut a stream -/

structure Gathers (pieces packets : List (List UInt8)) : Prop where
  sizes : ∀ piece ∈ pieces, piece ≠ [] ∧ piece.length ≤ 128
  packets : ∀ later, packetsFrom [] (pieces ++ later) = packets ++ packetsFrom [] later

def singles (text : List UInt8) : List (List UInt8) := text.map fun byte => [byte]

section Cuts

variable {pieces pieces' packets packets' : List (List UInt8)} {body received : List UInt8}

theorem flatten_singles (text : List UInt8) : (singles text).flatten = text := by
  induction text with
  | nil => rfl
  | cons byte text inductionHypothesis => exact congrArg (byte :: ·) inductionHypothesis

theorem singles_sizes (text : List UInt8) :
    ∀ piece ∈ singles text, piece ≠ [] ∧ piece.length ≤ 128 := by
  simp [singles]

theorem pair_sizes (first second : UInt8) :
    [first, second] ≠ [] ∧ [first, second].length ≤ 128 :=
  ⟨List.cons_ne_nil _ _, show 2 ≤ 128 by decide⟩

theorem packetsFrom_singles (absent : newline ∉ body) (later : List (List UInt8)) :
    packetsFrom received (singles body ++ later) = packetsFrom (received ++ body) later := by
  induction body generalizing received with
  | nil => simp [singles]
  | cons byte body inductionHypothesis =>
      have parts : newline ≠ byte ∧ newline ∉ body := by simpa using absent
      have goesOn : (received ++ [byte]).getLast? ≠ some newline := by
        simpa using Ne.symm parts.1
      have first : singles (byte :: body) ++ later = [byte] :: (singles body ++ later) := rfl
      rw [first, packetsFrom_open goesOn, inductionHypothesis parts.2, List.append_assoc]
      rfl

theorem Gathers.append (first : Gathers pieces packets) (second : Gathers pieces' packets') :
    Gathers (pieces ++ pieces') (packets ++ packets') := by
  refine ⟨List.forall_mem_append.mpr ⟨first.sizes, second.sizes⟩, fun later => ?_⟩
  rw [List.append_assoc, first.packets, second.packets, List.append_assoc]

theorem gathers_frame {line : List UInt8} (framed : IsFrame newline line) :
    Gathers (singles line) [line] := by
  obtain ⟨body, absent, rfl⟩ := framed
  refine ⟨singles_sizes _, fun later => ?_⟩
  have last : singles (body ++ [newline]) ++ later = singles body ++ [newline] :: later := by
    simp [singles]
  rw [last, packetsFrom_singles absent, List.nil_append, packetsFrom_ended (by simp)]
  rfl

theorem gathers_frames {lines : List (List UInt8)}
    (framed : ∀ line ∈ lines, IsFrame newline line) :
    Gathers (singles lines.flatten) lines := by
  induction lines with
  | nil => exact ⟨by simp [singles], fun later => rfl⟩
  | cons line lines inductionHypothesis =>
      obtain ⟨first, others⟩ := List.forall_mem_cons.mp framed
      have cut : singles (line :: lines).flatten = singles line ++ singles lines.flatten := by
        simp [singles]
      rw [cut]
      exact (gathers_frame first).append (inductionHypothesis others)

/-- Two lines are one packet if a read takes the newline of the first together with
the first byte of the second. -/
theorem exists_gathers_joined {line line' : List UInt8} (framed : IsFrame newline line)
    (framed' : IsFrame newline line') :
    ∃ pieces, Gathers pieces [line ++ line'] ∧ pieces.flatten = line ++ line' := by
  obtain ⟨body, absent, rfl⟩ := framed
  obtain ⟨body', absent', rfl⟩ := framed'
  cases body' with
  | nil =>
      refine ⟨singles body ++ [[newline, newline]], ⟨?_, fun later => ?_⟩, ?_⟩
      · exact List.forall_mem_append.mpr ⟨singles_sizes _, by decide⟩
      · rw [List.append_assoc, packetsFrom_singles absent, List.singleton_append,
          List.nil_append, packetsFrom_ended (by simp)]
        simp
      · simp [flatten_singles]
  | cons byte body' =>
      have parts : newline ≠ byte ∧ newline ∉ body' := by simpa using absent'
      have goesOn : (body ++ [newline, byte]).getLast? ≠ some newline := by
        simpa using Ne.symm parts.1
      refine ⟨singles body ++ ([newline, byte] :: (singles body' ++ [[newline]])),
        ⟨?_, fun later => ?_⟩, ?_⟩
      · apply List.forall_mem_append.mpr ⟨singles_sizes _, ?_⟩
        refine List.forall_mem_cons.mpr ⟨pair_sizes newline byte, ?_⟩
        exact List.forall_mem_append.mpr ⟨singles_sizes _, by decide⟩
      · rw [List.append_assoc, packetsFrom_singles absent, List.nil_append, List.cons_append,
          packetsFrom_open goesOn, List.append_assoc, packetsFrom_singles parts.2,
          List.singleton_append, packetsFrom_ended List.getLast?_concat]
        simp
      · simp [flatten_singles]

end Cuts

/-! ## Streams that are handled differently -/

/-- In every way to cut it into small reads, the stream has the effects that the
client means. -/
def Handled (stream : List UInt8) : Prop :=
  ∀ pieces : List (List UInt8), (∀ piece ∈ pieces, piece ≠ [] ∧ piece.length ≤ 128) →
    pieces.flatten = stream → piecesEffects [] pieces = streamEffects stream

section Necessary

variable {stream line line' : List UInt8} {lines before after : List (List UInt8)}

theorem length_flatMap_packetEffects_le (lines : List (List UInt8)) :
    (lines.flatMap packetEffects).length ≤ (lines.flatMap lineEffects).length := by
  induction lines with
  | nil => exact Nat.le_refl 0
  | cons line lines inductionHypothesis =>
      rw [List.flatMap_cons, List.flatMap_cons, List.length_append, List.length_append]
      exact Nat.add_le_add (length_packetEffects_le line) inductionHypothesis

theorem packetEffects_eq_of_flatMap
    (same : lines.flatMap packetEffects = lines.flatMap lineEffects) :
    ∀ line ∈ lines, packetEffects line = lineEffects line := by
  induction lines with
  | nil => simp
  | cons line lines inductionHypothesis =>
      rw [List.flatMap_cons, List.flatMap_cons] at same
      have total := congrArg List.length same
      rw [List.length_append, List.length_append] at total
      have first := length_packetEffects_le line
      have others := length_flatMap_packetEffects_le lines
      obtain ⟨here, later⟩ := List.append_inj same (by omega)
      exact List.forall_mem_cons.mpr ⟨here, inductionHypothesis later⟩

/-- A packet of two lines does not execute a seek command among them. -/
theorem packetEffects_joined_ne {seekto : AesdSeekto} (nonempty : line ≠ [])
    (nonempty' : line' ≠ [])
    (found : seekCommand line = some seekto ∨ seekCommand line' = some seekto) :
    packetEffects (line ++ line') ≠ lineEffects line ++ lineEffects line' := by
  intro same
  by_cases key : HasKey (line ++ line')
  · have few := length_packetEffects_of_hasKey key
    have first := List.length_pos_iff.mpr (lineEffects_ne_nil nonempty)
    have second := List.length_pos_iff.mpr (lineEffects_ne_nil nonempty')
    rw [same, List.length_append] at few
    omega
  · have sought : DeviceEffect.ioctl seekto ∈ lineEffects line ++ lineEffects line' := by
      rcases found with found | found
      · simp [lineEffects_of_seekCommand found]
      · simp [lineEffects_of_seekCommand found]
    rw [← same, packetEffects, if_neg key] at sought
    simp at sought

theorem Handled.line_effects (handled : Handled stream) (whole : remainder newline stream = []) :
    ∀ line ∈ frames newline stream, packetEffects line = lineEffects line := by
  obtain ⟨parts, framed, -⟩ := frames_remainder newline stream
  rw [whole, List.append_nil] at parts
  have gathers := gathers_frames framed
  have packets := gathers.packets []
  have same := handled (singles (frames newline stream).flatten) gathers.sizes
    (by rw [flatten_singles, ← parts])
  rw [List.append_nil] at packets
  rw [piecesEffects, packets, packetsFrom, List.append_nil] at same
  exact packetEffects_eq_of_flatMap same

/-- A read that takes the newline of a line together with the beginning of an
unfinished one holds the line back. -/
theorem exists_holding_back {rest : List UInt8}
    (framed : ∀ frame ∈ before ++ [line], IsFrame newline frame) (absent : newline ∉ rest)
    (unfinished : rest ≠ []) :
    ∃ pieces : List (List UInt8), (∀ piece ∈ pieces, piece ≠ [] ∧ piece.length ≤ 128) ∧
      pieces.flatten = (before ++ [line]).flatten ++ rest ∧ packetsFrom [] pieces = before := by
  obtain ⟨earlier, framedLine⟩ := List.forall_mem_append.mp framed
  obtain ⟨body, absentBody, rfl⟩ := framedLine line (List.mem_singleton_self line)
  obtain ⟨byte, rest, rfl⟩ := List.exists_cons_of_ne_nil unfinished
  have other : newline ≠ byte ∧ newline ∉ rest := by simpa using absent
  have goesOn : (body ++ [newline, byte]).getLast? ≠ some newline := by
    simpa using Ne.symm other.1
  have gathers := gathers_frames earlier
  refine ⟨singles before.flatten ++ (singles body ++ [newline, byte] :: (singles rest ++ [])),
    ?_, by simp [flatten_singles], ?_⟩
  · apply List.forall_mem_append.mpr ⟨gathers.sizes, ?_⟩
    apply List.forall_mem_append.mpr ⟨singles_sizes _, ?_⟩
    rw [List.append_nil]
    exact List.forall_mem_cons.mpr ⟨pair_sizes newline byte, singles_sizes _⟩
  · rw [gathers.packets, packetsFrom_singles absentBody, List.nil_append,
      packetsFrom_open goesOn, packetsFrom_singles other.2, packetsFrom, List.append_nil]

/-- A stream with an unfinished line behind a finished one is not always handled. -/
theorem Handled.remainder_eq_nil (handled : Handled stream) (finished : newline ∈ stream) :
    remainder newline stream = [] := by
  obtain ⟨parts, framed, absent⟩ := frames_remainder newline stream
  by_contra unfinished
  rcases List.eq_nil_or_concat (frames newline stream) with none | ⟨before, line, equality⟩
  · rw [none, List.flatten_nil, List.nil_append] at parts
    exact absent (parts ▸ finished)
  · rw [List.concat_eq_append] at equality
    rw [equality] at parts framed
    obtain ⟨pieces, sizes, flat, packets⟩ := exists_holding_back framed absent unfinished
    have same := handled pieces sizes (flat.trans parts.symm)
    rw [piecesEffects, packets, streamEffects, equality, List.flatMap_append,
      List.flatMap_singleton] at same
    have lengths := congrArg List.length same
    rw [List.length_append] at lengths
    obtain ⟨body, -, shape⟩ := framed line (by simp)
    have some := List.length_pos_iff.mpr (@lineEffects_ne_nil line (by simp [shape]))
    have few := length_flatMap_packetEffects_le before
    omega

/-- A seek command and a neighbour of it can be one packet. -/
theorem Handled.not_adjacent {seekto : AesdSeekto} (handled : Handled stream)
    (whole : remainder newline stream = [])
    (split : frames newline stream = before ++ line :: line' :: after) :
    ¬ (seekCommand line = some seekto ∨ seekCommand line' = some seekto) := by
  intro found
  obtain ⟨parts, framed, -⟩ := frames_remainder newline stream
  have here := handled.line_effects whole
  rw [whole, List.append_nil] at parts
  rw [split] at parts framed here
  obtain ⟨earlier, others⟩ := List.forall_mem_append.mp here
  have later := (List.forall_mem_cons.mp (List.forall_mem_cons.mp others).2).2
  obtain ⟨framedBefore, framedOthers⟩ := List.forall_mem_append.mp framed
  obtain ⟨framedLine, framedOthers⟩ := List.forall_mem_cons.mp framedOthers
  obtain ⟨framedLine', framedAfter⟩ := List.forall_mem_cons.mp framedOthers
  obtain ⟨pieces, gathers, flat⟩ := exists_gathers_joined framedLine framedLine'
  have gathered := ((gathers_frames framedBefore).append gathers).append
    (gathers_frames framedAfter)
  have packets := gathered.packets []
  rw [List.append_nil, packetsFrom, List.append_nil] at packets
  have same := handled _ gathered.sizes (by simp [flat, flatten_singles, parts])
  rw [piecesEffects, packets, streamEffects, split] at same
  simp only [List.flatMap_append, List.flatMap_cons, List.flatMap_nil, List.append_nil,
    List.flatMap_congr earlier, List.flatMap_congr later, List.append_assoc] at same
  rw [← List.append_assoc (lineEffects line)] at same
  have middle := List.append_cancel_right (List.append_cancel_left same)
  obtain ⟨body, -, rfl⟩ := framedLine
  obtain ⟨body', -, rfl⟩ := framedLine'
  exact packetEffects_joined_ne (by simp) (by simp) found middle

/-- A seek command is the only line of a stream that is always handled. -/
theorem Handled.exists_seekCommand (handled : Handled stream)
    (whole : remainder newline stream = []) (membership : line ∈ frames newline stream)
    (key : HasKey line) : ∃ seekto, seekCommand stream = some seekto := by
  obtain ⟨seekto, found⟩ :=
    Aesd.exists_seekCommand key (handled.line_effects whole line membership)
  obtain ⟨before, after, split⟩ := List.append_of_mem membership
  cases after with
  | cons line' after => exact absurd (.inl found) (handled.not_adjacent whole split)
  | nil =>
      rcases List.eq_nil_or_concat before with rfl | ⟨before', line', rfl⟩
      · obtain ⟨parts, -, -⟩ := frames_remainder newline stream
        rw [whole, split] at parts
        exact ⟨seekto, by rw [parts]; simpa using found⟩
      · rw [List.concat_eq_append, List.append_assoc] at split
        exact absurd (.inr found) (handled.not_adjacent whole split)

end Necessary

theorem handled_of_sessions {stream : List UInt8}
    (agree : ∀ trace, Session stream trace →
      trace.flatMap deviceEffects = streamEffects stream) : Handled stream := by
  intro pieces sizes flat
  obtain ⟨trace, session, results⟩ := exists_session sizes
  rw [flat] at session
  rw [← agree trace session, session.effects_eq, results]

/-- All sessions of a stream make the device do what the lines mean, and so the same,
exactly if the stream has no line, or ends with a newline and either no line has the
key or the stream is a single seek command. Every write of a session returns, that of
several lines too, and no key is found behind the bytes of a packet. -/
theorem sessions_agree_iff (stream : List UInt8) :
    (∀ trace trace', Session stream trace → Session stream trace' →
      trace.flatMap deviceEffects = trace'.flatMap deviceEffects ∧
      trace.flatMap deviceEffects = streamEffects stream) ↔
    newline ∉ stream ∨
      (remainder newline stream = [] ∧
        ((∀ line ∈ frames newline stream, ¬ HasKey line) ∨
          ∃ seekto, seekCommand stream = some seekto)) := by
  constructor
  · intro agree
    have handled := handled_of_sessions fun trace session => (agree trace trace session session).2
    by_cases finished : newline ∈ stream
    · have whole := handled.remainder_eq_nil finished
      refine .inr ⟨whole, ?_⟩
      by_cases noKey : ∀ line ∈ frames newline stream, ¬ HasKey line
      · exact .inl noKey
      · simp only [not_forall, not_not] at noKey
        obtain ⟨line, membership, key⟩ := noKey
        exact .inr (handled.exists_seekCommand whole membership key)
    · exact .inl finished
  · intro condition
    have agree : ∀ trace, Session stream trace →
        trace.flatMap deviceEffects = streamEffects stream := by
      intro trace session
      rw [session.effects_eq]
      have flat := session.stream
      rcases condition with absent | ⟨whole, noKey | ⟨seekto, found⟩⟩
      · rw [streamEffects, frames_of_notMem absent]
        exact piecesEffects_of_notMem (flat ▸ absent)
      · rw [← flat] at whole noKey ⊢
        exact piecesEffects_of_noKey whole noKey
      · rw [← flat] at found ⊢
        exact piecesEffects_of_seekCommand found
    intro trace trace' session session'
    exact ⟨(agree trace session).trans (agree trace' session').symm, agree trace session⟩

/-- A line behind a seek command is lost if one read returns both. -/
theorem sessions_disagree :
    ∃ trace trace', Session (ascii "AESDCHAR_IOCSEEKTO:0,0\na\n") trace ∧
      Session (ascii "AESDCHAR_IOCSEEKTO:0,0\na\n") trace' ∧
      trace.flatMap readResults = [ascii "AESDCHAR_IOCSEEKTO:0,0\n", ascii "a\n"] ∧
      trace'.flatMap readResults = [ascii "AESDCHAR_IOCSEEKTO:0,0\na\n"] ∧
      trace.flatMap deviceEffects = [.ioctl ⟨0, 0⟩, .write 97, .write newline] ∧
      trace'.flatMap deviceEffects = [.ioctl ⟨0, 0⟩] := by
  obtain ⟨trace, session, results⟩ := @exists_session
    [ascii "AESDCHAR_IOCSEEKTO:0,0\n", ascii "a\n"] (by decide +kernel)
  obtain ⟨trace', session', results'⟩ := @exists_session
    [ascii "AESDCHAR_IOCSEEKTO:0,0\na\n"] (by decide +kernel)
  refine ⟨trace, trace', session, session', results, results', ?_, ?_⟩
  · rw [session.effects_eq, results]
    decide +kernel
  · rw [session'.effects_eq, results']
    decide +kernel

end Aesd
