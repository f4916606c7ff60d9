import Rpi5.Bootloader.Pl011
import Rpi5.Logical.Fifo
import Rpi5.Logical.Utf8

/-!
# What the UART sends

`write` stores one word for every character, and the transmitter takes the low byte of
it. So what is sent is one byte for a character, which is its UTF-8 only for characters
below 128.
-/

namespace Rpi5.Bootloader

open Rpi5.Logical Rpi5.Semantics

/-- The byte the transmitter takes of a word. -/
def lowByte (word : Word) : UInt8 := .ofNat word.toNat

/-- A transmit FIFO: what it holds at first, and how much leaves it before each access. -/
structure Draining where
  capacity : Nat
  positive : 0 < capacity
  queued : List UInt8
  fits : queued.length ≤ capacity
  drain : Nat → Nat

namespace Draining

variable (line : Draining) (uart : Pl011Uart)

/-- A store to the data register offers a byte to the FIFO. Nothing else touches it. -/
def take (fifo : Fifo UInt8) : Access → Fifo UInt8
  | .read _ => fifo
  | .write address word => if address = uart.data then fifo.offered line.capacity (lowByte word) else fifo

/-- The FIFO after some accesses. -/
def after (history : List Access) : Fifo UInt8 :=
  history.zipIdx.foldl (fun fifo (access, index) => line.take uart (fifo.drained (line.drain index)) access)
    ⟨line.queued, []⟩

/-- The FIFO as the next access finds it. -/
def found (history : List Access) : Fifo UInt8 :=
  (line.after uart history).drained (line.drain history.length)

/-- The FIFO is full at the next access. -/
def Full (history : List Access) : Prop := line.capacity ≤ (line.found uart history).held.length

instance (history : List Access) : Decidable (line.Full uart history) := inferInstanceAs (Decidable (_ ≤ _))

/-- One more access is one more step of the FIFO. -/
theorem after_append (history : List Access) (access : Access) :
    line.after uart (history ++ [access]) = line.take uart (line.found uart history) access := by
  unfold after found
  rw [List.zipIdx_append, List.foldl_append]
  simp [after]

/-- No access makes it longer than its capacity. -/
theorem length_take {fifo : Fifo UInt8} (within : fifo.held.length ≤ line.capacity) (access : Access) :
    (line.take uart fifo access).held.length ≤ line.capacity := by
  cases access with
  | read => exact within
  | write address word =>
      rw [take]
      split
      · exact fifo.length_offered within _
      · exact within

/-- The FIFO never holds more than fits. -/
theorem length_after (history : List Access) :
    (line.after uart history).held.length ≤ line.capacity := by
  induction history using List.reverseRecOn with
  | nil => exact line.fits
  | append_singleton history access ih =>
      rw [after_append]
      apply length_take
      rw [found, Fifo.length_drained]
      exact (Nat.sub_le _ _).trans ih

/-- Once something leaves the FIFO there is room. -/
theorem not_full_of_drain {history : List Access} (drains : 0 < line.drain history.length) :
    ¬ line.Full uart history := by
  have within := line.length_after uart history
  have positive := line.positive
  unfold Full found
  rw [Fifo.length_drained]
  omega

/-- Reading leaves room in the FIFO. -/
theorem not_full_read {history : List Access} (room : ¬ line.Full uart history) (address : Nat) :
    ¬ line.Full uart (history ++ [.read address]) := by
  have less : (line.found uart (history ++ [.read address])).held.length ≤
      (line.found uart history).held.length := by
    rw [found, after_append, Fifo.length_drained]
    exact Nat.sub_le _ _
  unfold Full at room ⊢
  omega

end Draining

/-- A UART whose flags say when its FIFO is full. Its other answers are arbitrary. -/
structure Transmitter (uart : Pl011Uart) extends Draining where
  answer : Device
  txff : ∀ history, UARTFR.txff.read (answer history (.read uart.flags)) =
    if toDraining.Full uart history then 1 else 0

namespace Transmitter

variable {uart : Pl011Uart} (line : Transmitter uart) {history middle calls : List Access}

/-- Everything the transmitter has taken, in order. -/
def sent (history : List Access) : List UInt8 := (line.after uart history).through

/-- Between two points of a run some bytes are taken, and nothing is stored while the FIFO
is full. -/
structure Sends (history calls : List Access) (bytes : List UInt8) : Prop where
  grows : history <+: calls
  sent : line.sent calls = line.sent history ++ bytes
  guarded : ∀ past word, history <+: past → past ++ [.write uart.data word] <+: calls →
    ¬ line.Full uart past

section Sends

variable {line} {bytes more : List UInt8}

/-- What is sent has gone through the FIFO found by the next access. -/
theorem sent_eq_found (history : List Access) :
    line.sent history = (line.found uart history).through := by
  rw [sent, Draining.found, Fifo.through_drained]

/-- One access. -/
theorem Sends.single {access : Access}
    (taken : line.sent (history ++ [access]) = line.sent history ++ bytes)
    (room : ∀ word, access = .write uart.data word → ¬ line.Full uart history) :
    line.Sends history (history ++ [access]) bytes where
  grows := List.prefix_append _ _
  sent := taken
  guarded past word before within := by
    rcases List.prefix_concat_iff.mp within with same | shorter
    · obtain ⟨rfl, last⟩ := List.append_inj' same rfl
      exact room word (List.singleton_inj.mp last).symm
    · have longer := before.length_le.trans (List.prefix_append past _ |>.trans shorter).length_le
      have length := shorter.length_le
      have start := before.length_le
      rw [List.length_append, List.length_singleton] at length
      omega

/-- Behind one more access it is what has gone through then. -/
theorem sent_append (history : List Access) (access : Access) :
    line.sent (history ++ [access]) = (line.take uart (line.found uart history) access).through := by
  rw [sent, Draining.after_append]

/-- A read sends nothing. -/
theorem Sends.read (address : Nat) : line.Sends history (history ++ [.read address]) [] := by
  have same : line.sent (history ++ [.read address]) = line.sent history ++ [] := by
    rw [sent_append, List.append_nil, sent_eq_found]
    rfl
  exact .single same nofun

/-- A store into the data register sends its lowest byte while there is room. -/
theorem Sends.store (room : ¬ line.Full uart history) (word : Word) :
    line.Sends history (history ++ [.write uart.data word]) [lowByte word] := by
  have taken : line.take uart (line.found uart history) (.write uart.data word) =
      (line.found uart history).offered line.capacity (lowByte word) := if_pos rfl
  have same : line.sent (history ++ [.write uart.data word]) = line.sent history ++ [lowByte word] := by
    rw [sent_append, taken, Fifo.through_offered _ (Nat.not_le.mp room), sent_eq_found]
  exact .single same fun _ _ => room

/-- No access sends nothing. -/
theorem Sends.refl : line.Sends history history [] where
  grows := List.prefix_rfl
  sent := (List.append_nil _).symm
  guarded past word before within := by
    have length := within.length_le
    have start := before.length_le
    rw [List.length_append, List.length_singleton] at length
    omega

/-- What is sent adds up. -/
theorem Sends.trans (one : line.Sends history middle bytes) (two : line.Sends middle calls more) :
    line.Sends history calls (bytes ++ more) where
  grows := one.grows.trans two.grows
  sent := by rw [two.sent, one.sent, List.append_assoc]
  guarded past word before within := by
    rcases List.prefix_or_prefix_of_prefix within two.grows with early | late
    · exact one.guarded past word before early
    · rcases List.prefix_concat_iff.mp late with same | later
      · exact one.guarded past word before (same ▸ List.prefix_rfl)
      · exact two.guarded past word later within

/-- Polling sends nothing. -/
theorem Sends.reads (address count : Nat) :
    line.Sends history (history ++ List.replicate count (.read address)) [] := by
  induction count generalizing history with
  | zero =>
      rw [List.replicate_zero, List.append_nil]
      exact .refl
  | succ count ih =>
      rw [List.replicate_succ, List.append_cons]
      exact (Sends.read address).trans ih

end Sends
end Transmitter

namespace Pl011Uart

/-- A text is sent as it is, never into a full FIFO, and to its end if the FIFO drains. -/
structure Faithful (tock : TockRegisters) (uart : Pl011Uart) (pieces : List String) : Prop where
  guarded : ∀ (line : Transmitter uart) fuel past word,
    past ++ [.write uart.data word] <+: ((uart.writeFmt tock fuel pieces).run line.answer []).2 →
      ¬ line.Full uart past
  started : ∀ (line : Transmitter uart) fuel, ∃ bytes, bytes <+: pieces.flatMap utf8 ∧
    line.sent ((uart.writeFmt tock fuel pieces).run line.answer []).2 = line.queued ++ bytes
  finished : ∀ (line : Transmitter uart) fuel calls,
    (uart.writeFmt tock fuel pieces).run line.answer [] = (.ok (), calls) →
      line.sent calls = line.queued ++ pieces.flatMap utf8
  returns : ∀ line : Transmitter uart, (∀ index, ∃ later ≥ index, 0 < line.drain later) →
    ∃ enough, ∀ fuel > enough,
      ((uart.writeFmt tock fuel pieces).run line.answer []).1 = .ok ()

section Runs

variable {tock : TockRegisters} {uart : Pl011Uart} {line : Transmitter uart} {fuel : Nat}

/-- The byte which is sent for a character. -/
def codeByte (char : Char) : UInt8 := lowByte (.ofNat 32 char.toNat)

/-- From every point a program sends these bytes, or some of them before it waits for too long. -/
def Sending (line : Transmitter uart) (program : Driver Unit) (bytes : List UInt8) : Prop :=
  ∀ history, (∃ calls, program.run line.answer history = (.ok (), calls) ∧
      line.Sends history calls bytes) ∨
    ∃ calls some, program.run line.answer history = (.error (.stopped .outOfFuel), calls) ∧
      some <+: bytes ∧ line.Sends history calls some

/-- So do drivers. -/
theorem Sending.bind {first : Driver Unit} {next : Unit → Driver Unit} {bytes more : List UInt8}
    (one : Sending line first bytes) (two : Sending line (next ()) more) :
    Sending line (first >>= next) (bytes ++ more) := by
  intro history
  rcases one history with ⟨middle, run, sends⟩ | ⟨calls, some, run, begun, sends⟩
  · rw [Accessing.run_bind_of_ok run]
    rcases two middle with ⟨calls, last, rest⟩ | ⟨calls, some, last, begun, rest⟩
    · exact .inl ⟨calls, last, sends.trans rest⟩
    · exact .inr ⟨calls, bytes ++ some, last, (List.prefix_append_right_inj bytes).mpr begun,
        sends.trans rest⟩
  · rw [Accessing.run_bind_of_error run]
    exact .inr ⟨calls, some, rfl, begun.trans (List.prefix_append _ _), sends⟩

/-- A driver which is done sends nothing. -/
theorem Sending.done : Sending line (.done ()) [] :=
  fun history => .inl ⟨history, rfl, .refl⟩

/-- The flag is set exactly if the FIFO is full. -/
theorem isSet_txff (line : Transmitter uart) (history : List Access) :
    tock.isSet UARTFR.txff (line.answer history (.read uart.flags)) = decide (line.Full uart history) := by
  rw [Bool.eq_iff_iff, tock.isSet_iff, line.txff, decide_eq_true_eq]
  split <;> simp [*]

/-- A character is sent as the lowest byte of its code. -/
theorem writeChar_sending (char : Char) : Sending line (uart.writeChar tock fuel char) [codeByte char] := by
  intro history
  unfold writeChar
  rcases Driver.run_spinWhile_cases line.answer uart.flags (tock.isSet UARTFR.txff) fuel history with
    waited | ⟨polls, free, ready⟩
  · rw [Accessing.run_bind_of_error waited]
    exact .inr ⟨_, [], rfl, List.nil_prefix, .reads _ _⟩
  · rw [isSet_txff, decide_eq_false_iff_not] at free
    have room := line.not_full_read uart free uart.flags
    rw [List.append_assoc, ← List.replicate_succ'] at room
    rw [Accessing.run_bind_of_ok ready, Driver.run_set]
    exact .inl ⟨_, rfl, (Transmitter.Sends.reads _ _).trans (.store room _)⟩

/-- So are the characters of a text. -/
theorem writeLoop_sending (chars : List Char) :
    Sending line (uart.writeLoop tock fuel chars) (chars.map codeByte) := by
  induction chars with
  | nil => exact .done
  | cons char chars ih => exact (writeChar_sending char).bind ih

/-- And those of all pieces. -/
theorem writeFmt_sending (tock : TockRegisters) (line : Transmitter uart) (fuel : Nat)
    (pieces : List String) :
    Sending line (uart.writeFmt tock fuel pieces) (pieces.flatMap (·.toList.map codeByte)) := by
  induction pieces with
  | nil => exact .done
  | cons piece pieces ih => exact (writeLoop_sending piece.toList).bind ih

end Runs

section Returns

variable {tock : TockRegisters} {uart : Pl011Uart} {line : Transmitter uart} {device : Device}

/-- With enough fuel a program returns from every point. -/
def Ends (device : Device) (program : Nat → Driver Unit) : Prop :=
  ∀ history, ∃ enough calls, ∀ fuel > enough, (program fuel).run device history = (.ok (), calls)

/-- A sequence ends if its parts do. -/
theorem Ends.bind {first : Nat → Driver Unit} {next : Nat → Driver Unit} (one : Ends device first)
    (two : Ends device next) : Ends device fun fuel => first fuel >>= fun _ => next fuel := by
  intro history
  obtain ⟨enough, middle, run⟩ := one history
  obtain ⟨more, calls, rest⟩ := two middle
  refine ⟨max enough more, calls, fun fuel above => ?_⟩
  rw [Accessing.run_bind_of_ok (run fuel (lt_of_le_of_lt (le_max_left _ _) above))]
  exact rest fuel (lt_of_le_of_lt (le_max_right _ _) above)

/-- What is done has ended. -/
theorem Ends.done : Ends device fun _ => .done () := fun history => ⟨0, history, fun _ _ => rfl⟩

/-- A FIFO which drains makes room for the next character. -/
theorem writeChar_ends (drains : ∀ index, ∃ later ≥ index, 0 < line.drain later) (char : Char) :
    Ends line.answer fun fuel => uart.writeChar tock fuel char := by
  intro history
  obtain ⟨later, after, leaves⟩ := drains history.length
  have free : ∃ polls, tock.isSet UARTFR.txff
      (line.answer (history ++ List.replicate polls (.read uart.flags)) (.read uart.flags)) = false := by
    refine ⟨later - history.length, ?_⟩
    rw [isSet_txff, decide_eq_false_iff_not]
    apply line.not_full_of_drain
    rw [List.length_append, List.length_replicate, Nat.add_sub_cancel' after]
    exact leaves
  obtain ⟨enough, ready⟩ := Driver.run_spinWhile_of_free free
  refine ⟨enough, history ++ List.replicate (enough + 1) (.read uart.flags) ++
    [.write uart.data (.ofNat 32 char.toNat)], fun fuel more => ?_⟩
  exact Accessing.run_bind_of_ok (ready fuel more)

/-- If the FIFO is drained again and again, a text is sent to its end. -/
theorem writeLoop_ends (drains : ∀ index, ∃ later ≥ index, 0 < line.drain later) (chars : List Char) :
    Ends line.answer fun fuel => uart.writeLoop tock fuel chars := by
  induction chars with
  | nil => exact .done
  | cons char chars ih => exact (writeChar_ends drains char).bind ih

/-- So are all pieces. -/
theorem writeFmt_ends (tock : TockRegisters)
    (drains : ∀ index, ∃ later ≥ index, 0 < line.drain later) (pieces : List String) : Ends line.answer fun fuel => uart.writeFmt tock fuel pieces := by
  induction pieces with
  | nil => exact .done
  | cons piece pieces ih => exact (writeLoop_ends drains piece.toList).bind ih

end Returns

section Characters

/-- The byte of a character below 128 is its UTF-8 byte. -/
theorem codeByte_of_isAscii {char : Char} (ascii : IsAscii char) : [codeByte char] = utf8Char char := by
  have narrow : char.toNat < 2 ^ 32 := lt_trans ascii (by decide)
  rw [utf8Char_of_isAscii ascii, codeByte, lowByte, BitVec.toNat_ofNat, Nat.mod_eq_of_lt narrow]

/-- One byte for each character is the UTF-8 of a text exactly if they are all below 128. -/
theorem map_codeByte_eq_iff {chars : List Char} :
    chars.map codeByte = chars.flatMap utf8Char ↔ ∀ char ∈ chars, IsAscii char := by
  constructor
  · intro same
    apply isAscii_of_length_le
    rw [← same, List.length_map]
  · intro ascii
    induction chars with
    | nil => rfl
    | cons char chars ih =>
        rw [List.forall_mem_cons] at ascii
        rw [List.map_cons, List.flatMap_cons, ← codeByte_of_isAscii ascii.1, ih ascii.2]
        rfl

/-- Only of such characters are the bytes sent those of UTF-8. -/
theorem codeBytes_eq_iff {pieces : List String} :
    (pieces.flatMap (·.toList.map codeByte)) = pieces.flatMap utf8 ↔
      ∀ piece ∈ pieces, ∀ char ∈ piece.toList, IsAscii char := by
  have bytes : pieces.flatMap (·.toList.map codeByte) = (pieces.flatMap String.toList).map codeByte := by
    rw [List.map_flatMap]
  have text : pieces.flatMap utf8 = (pieces.flatMap String.toList).flatMap utf8Char := by
    have each : utf8 = fun piece => piece.toList.flatMap utf8Char := funext utf8_eq_flatMap
    rw [List.flatMap_assoc, each]
  rw [bytes, text, map_codeByte_eq_iff]
  simp only [List.mem_flatMap, forall_exists_index, and_imp]
  exact ⟨fun all piece member char within => all char piece member within,
    fun all char piece member within => all piece member char within⟩

end Characters

/-- A transmitter with room for one byte, which is gone at the next access. -/
def quick (uart : Pl011Uart) : Transmitter uart where
  capacity := 1
  positive := Nat.one_pos
  queued := []
  fits := Nat.zero_le 1
  drain _ := 1
  answer _ _ := 0
  txff history := by
    rw [if_neg (Draining.not_full_of_drain _ _ Nat.one_pos)]
    rfl

variable {tock : TockRegisters} {uart : Pl011Uart}

/-- A single piece is written as by `write`. -/
theorem writeFmt_singleton (fuel : Nat) (text : String) :
    uart.writeFmt tock fuel [text] = uart.write tock fuel text :=
  bind_pure_unit

/-- What is sent are the UTF-8 bytes of the text exactly if all its characters are below 128. -/
theorem faithful_iff (pieces : List String) :
    Faithful tock uart pieces ↔ ∀ piece ∈ pieces, ∀ char ∈ piece.toList, IsAscii char := by
  rw [← codeBytes_eq_iff]
  constructor
  · intro faithful
    have drains : ∀ index, ∃ later ≥ index, 0 < (quick uart).drain later :=
      fun index => ⟨index, Nat.le_refl index, Nat.one_pos⟩
    obtain ⟨enough, calls, run⟩ := writeFmt_ends tock drains pieces []
    have returned := run (enough + 1) (Nat.lt_succ_self enough)
    have expected := faithful.finished _ _ _ returned
    rcases writeFmt_sending tock (quick uart) (enough + 1) pieces [] with
      ⟨_, same, sends⟩ | ⟨_, _, stopped, -⟩
    · rw [returned] at same
      cases same
      exact sends.sent.symm.trans expected
    · rw [returned] at stopped
      cases stopped
  · intro same
    have cases (line : Transmitter uart) (fuel : Nat) := writeFmt_sending tock line fuel pieces []
    rw [same] at cases
    refine ⟨fun line fuel past word within => ?_, fun line fuel => ?_, fun line fuel calls run => ?_,
      fun line drains => ?_⟩
    · rcases cases line fuel with ⟨calls, run, sends⟩ | ⟨calls, _, run, -, sends⟩
      · rw [run] at within
        exact sends.guarded past word List.nil_prefix within
      · rw [run] at within
        exact sends.guarded past word List.nil_prefix within
    · rcases cases line fuel with ⟨calls, run, sends⟩ | ⟨calls, begun, run, before, sends⟩
      · rw [run]
        exact ⟨_, List.prefix_rfl, sends.sent⟩
      · rw [run]
        exact ⟨begun, before, sends.sent⟩
    · rcases cases line fuel with ⟨_, other, sends⟩ | ⟨_, _, stopped, -⟩
      · rw [run] at other
        cases other
        exact sends.sent
      · rw [run] at stopped
        cases stopped
    · obtain ⟨enough, calls, run⟩ := writeFmt_ends tock drains pieces []
      exact ⟨enough, fun fuel above => by rw [run fuel above]⟩

/-- Two texts which send the same byte, not the UTF-8 of the second. -/
theorem same_output :
    let run (text : String) := ((⟨0x107d001000⟩ : Pl011Uart).write tockRegisters 1 text).run
      (quick ⟨0x107d001000⟩).answer []
    (run "A").1 = .ok () ∧ (run "\u0141").1 = .ok () ∧ (quick ⟨0x107d001000⟩).sent (run "A").2 = [0x41] ∧
      (quick ⟨0x107d001000⟩).sent (run "\u0141").2 = [0x41] ∧ utf8 "\u0141" = [0xc5, 0x81] := by
  decide +kernel

end Pl011Uart
end Rpi5.Bootloader
