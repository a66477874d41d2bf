import Rp2350Stepper.Lan9250.TxRecords
import Rp2350Stepper.Lan9250.Environment
import Rp2350Stepper.Semantics.Implementation

/-!
# The SPI wire

The driver reaches a register by shifting bytes: an instruction, the address from its high byte
and the word from its low byte. The chip takes a word from a register with the first byte of it
which is shifted out, and stores one with the last byte shifted in; it goes on by itself between
any two bytes, and the SPI controller may give up after any of them. For every program of
`lan9250_write_sys_reg`, `lan9250_read_sys_reg` and `lan9250_read_buf` this is the same as
transactions which happen at once. `lan9250_tx` with `lan9250_write_buf`, and what
`lan9250_thread` asks for itself, are programs over other interfaces and not among these.
-/

namespace Rp2350Stepper.Lan9250

open Rp2350Stepper.Data Rp2350Stepper.Semantics

/-! ### Words as bytes -/

/-- `sys_put_be16`. -/
def putBe16 (value : Address) : List Byte := [(value >>> 8).setWidth 8, value.setWidth 8]

/-- The bytes of a `uint32_t`, from its low byte. -/
def getLe32 : List Byte → Word
  | [first, second, third, fourth] => fourth ++ third ++ second ++ first
  | _ => 0

/-- A word is that of its bytes. -/
theorem getLe32_putLe32 (value : Word) : getLe32 (putLe32 value) = value := by
  unfold putLe32 getLe32
  simp only
  grind

/-- Four bytes are those of their word. -/
theorem putLe32_of_bytes (first second third fourth : Byte) :
    putLe32 (fourth ++ third ++ second ++ first) = [first, second, third, fourth] := by
  unfold putLe32
  simp only [List.cons.injEq, and_true]
  refine ⟨?_, ?_, ?_, ?_⟩
  · grind
  · grind
  · grind
  · grind

/-- The address in two bytes. -/
def getBe16 (high low : Byte) : Address := high ++ low

/-- An address is that of its bytes. -/
theorem getBe16_putBe16 (value : Address) :
    getBe16 ((value >>> 8).setWidth 8) (value.setWidth 8) = value := by
  unfold getBe16
  grind

/-! ### The SPI controller -/

/-- A `struct spi_buf` to send from; without a buffer zeros are sent. -/
inductive TxBuf where
  | bytes (data : List Byte)
  | null (len : Nat)
deriving DecidableEq, Repr

/-- A `struct spi_buf` to receive to; without a buffer what is received is dropped. -/
inductive RxBuf where
  | into (len : Nat)
  | null (len : Nat)
deriving DecidableEq, Repr

/-- What a buffer has to send. -/
def TxBuf.data : TxBuf → List Byte
  | .bytes data => data
  | .null len => List.replicate len 0

/-- How many bytes a buffer receives. -/
def RxBuf.len : RxBuf → Nat
  | .into len => len
  | .null len => len

/-- The bytes the controller sends. -/
def sent (tx : List TxBuf) (rx : List RxBuf) : List Byte :=
  let data := tx.flatMap TxBuf.data
  data ++ List.replicate ((rx.map RxBuf.len).sum - data.length) 0

/-- What is received in the buffers there are. -/
def received : List RxBuf → List Byte → List Byte
  | [], _ => []
  | .into len :: rx, bytes => bytes.take len ++ received rx (bytes.drop len)
  | .null len :: rx, bytes => received rx (bytes.drop len)

/-! ### The chip -/

/-- A chip behind its SPI interface. -/
structure Registers where
  State : Type
  /-- What it does by itself. -/
  Move : Type
  move : State → Move → State
  read : State → Address → Word × State
  write : State → Address → Word → State
  /-- What the kernel and the stack choose, and how they answer. -/
  Other : Type
  other : State → (request : Request) → Other → Option (Response request × State)

/-- `LAN9250_SPI_INSTR_WRITE`. -/
def spiInstrWrite : Byte := 0x02
/-- `LAN9250_SPI_INSTR_READ`. -/
def spiInstrRead : Byte := 0x03

/-- What the chip expects of the next byte. -/
inductive Phase where
  | instruction
  | addressHigh (reads : Bool)
  | addressLow (reads : Bool) (high : Byte)
  /-- A read, with the bytes left of the word it has taken. -/
  | reading (address : Address) (left : List Byte)
  /-- A write, with the bytes it has got of the word. -/
  | writing (address : Address) (got : List Byte)
  | ignoring
deriving DecidableEq, Repr

namespace Registers

variable (chip : Registers)

/-- The chip goes on. -/
def settle (moves : List chip.Move) (state : chip.State) : chip.State := moves.foldl chip.move state

/-- One byte is shifted in and another one out. -/
def shift (state : chip.State) (byte : Byte) : Phase → Byte × Phase × chip.State
  | .instruction =>
      if byte = spiInstrRead then (0, .addressHigh true, state)
      else if byte = spiInstrWrite then (0, .addressHigh false, state)
      else (0, .ignoring, state)
  | .addressHigh reads => (0, .addressLow reads byte, state)
  | .addressLow reads high =>
      (0, if reads then .reading (getBe16 high byte) [] else .writing (getBe16 high byte) [], state)
  | .reading address (next :: left) => (next, .reading address left, state)
  | .reading address [] =>
      let (word, after) := chip.read state address
      (word.setWidth 8, .reading address (putLe32 word).tail, after)
  | .writing address got =>
      if got.length = 3 then (0, .writing address [], chip.write state address (getLe32 (got ++ [byte])))
      else (0, .writing address (got ++ [byte]), state)
  | .ignoring => (0, .ignoring, state)

/-- Several bytes; the chip goes on before each. A word which is not shifted out to its end is
taken all the same. -/
def shiftAll : List Byte → (Nat → List chip.Move) → Phase → chip.State → List Byte × chip.State
  | [], _, _, state => ([], state)
  | byte :: bytes, moves, phase, state =>
      let (out, phase, state) := chip.shift (chip.settle (moves 0) state) byte phase
      let (outs, state) := shiftAll bytes (fun index => moves (index + 1)) phase state
      (out :: outs, state)

/-! ### The two devices -/

end Registers

/-- What the functions which reach the bus ask for. -/
inductive WireRequest where
  /-- `spi_transceive_dt`; `spi_write_dt` receives to no buffer. -/
  | transceive (tx : List TxBuf) (rx : List RxBuf)
  | other (request : Request)

/-- How a transfer ends, with what is received. -/
@[reducible] def WireResponse : WireRequest → Type
  | .transceive _ _ => Except Errno (List Byte)
  | .other request => Response request

/-- The interface of these functions. -/
abbrev wireInterface : Interface := ⟨WireRequest, WireResponse⟩

namespace Registers

variable (chip : Registers)

/-- What happens around the bytes of a transaction, and where it fails. -/
structure WireChoice where
  moves : Nat → List chip.Move
  after : List chip.Move
  /-- The number of bytes after which the controller gives up, and its error. -/
  failure : Option (Nat × Errno)
  other : chip.Other

/-- A transfer shifts all its bytes, or fails after some. -/
def wireAnswer (state : chip.State) : (request : WireRequest) → chip.WireChoice →
    Option (WireResponse request × chip.State)
  | .transceive tx rx, choice =>
      match choice.failure with
      | none =>
          let (bytes, next) := chip.shiftAll (sent tx rx) choice.moves .instruction state
          some (.ok (received rx bytes), chip.settle choice.after next)
      | some (count, error) =>
          let (_, next) := chip.shiftAll ((sent tx rx).take count) choice.moves .instruction state
          some (.error error, chip.settle choice.after next)
  | .other request, choice => chip.other state request choice.other

/-- The chip, byte by byte. -/
abbrev wire : Device wireInterface := ⟨chip.State, chip.WireChoice, chip.wireAnswer⟩

/-- Words of a register, one after another. -/
def readWords (address : Address) : List (List chip.Move) → chip.State → List Word × chip.State
  | [], state => ([], state)
  | moves :: rest, state =>
      let (word, after) := chip.read (chip.settle moves state) address
      let (words, finish) := readWords address rest after
      (word :: words, finish)

/-- What happens before each word of a transaction, and after the last. -/
structure BusChoice where
  words : List (List chip.Move)
  after : List chip.Move
  failure : Option Errno
  other : chip.Other

/-- A transaction reads all its words, or fails after some. -/
def readAnswer (state : chip.State) (address : Address) (count : Nat) (choice : chip.BusChoice) :
    Option (Except Errno (List Word) × chip.State) :=
  let (words, next) := chip.readWords address choice.words state
  match choice.failure with
  | none =>
      if choice.words.length = count then some (.ok words, chip.settle choice.after next) else none
  | some error =>
      if choice.words.length ≤ count then some (.error error, chip.settle choice.after next) else none

/-- One writes its word at once, or fails with its effect or without it. -/
def writeAnswer (state : chip.State) (address : Address) (value : Word) (choice : chip.BusChoice) :
    Option (Except Errno Unit × chip.State) :=
  match choice.words, choice.failure with
  | [moves], none =>
      some (.ok (), chip.settle choice.after (chip.write (chip.settle moves state) address value))
  | [moves], some error =>
      some (.error error,
        chip.settle choice.after (chip.write (chip.settle moves state) address value))
  | [], some error => some (.error error, chip.settle choice.after state)
  | _, _ => none

/-- The registers, in transactions which happen at once. -/
def busAnswer (state : chip.State) : (request : driverInterface.Request) → chip.BusChoice →
    Option (driverInterface.Response request × chip.State)
  | .readSysReg address, choice =>
      (chip.readAnswer state address 1 choice).map fun (result, next) =>
        (result.map fun words => words.headD 0, next)
  | .writeSysReg address value, choice => chip.writeAnswer state address value choice
  | .readBuf len, choice =>
      (chip.readAnswer state rxDataFifo ((len + 3) / 4) choice).map fun (result, next) =>
        (result.map fun words => (words.flatMap putLe32).take len, next)
  | request, choice => chip.other state request choice.other

end Registers

/-! ### The driver's transactions -/

/-- A read of some bytes: those sent, and where those received go. -/
def readTransfer (address : Address) (len : Nat) : WireRequest :=
  .transceive [.bytes [spiInstrRead], .bytes (putBe16 address), .null len]
    [.null 1, .null 2, .into len]

/-- A write of a word. -/
def writeTransfer (address : Address) (value : Word) : WireRequest :=
  .transceive [.bytes [spiInstrWrite], .bytes (putBe16 address), .bytes (putLe32 value)] []

/-- The functions of the driver which reach the bus. -/
def wireBody : (request : driverInterface.Request) →
    Program wireInterface (driverInterface.Response request)
  | .readSysReg address => .ask (readTransfer address 4) fun result => .done (result.map getLe32)
  | .writeSysReg address value =>
      .ask (writeTransfer address value) fun result => .done (result.map fun _ => ())
  | .readBuf len => .ask (readTransfer rxDataFifo len) .done
  | request => .ask (.other request) .done

/-! ### Words from bytes -/

section Transfers

variable {chip : Registers}

/-- The chip goes on, and then again. -/
theorem Registers.settle_append (first second : List chip.Move) (state : chip.State) :
    chip.settle (first ++ second) state = chip.settle second (chip.settle first state) :=
  List.foldl_append ..

/-- After its first three bytes a read has taken no word, whatever the chip has done. -/
theorem shiftAll_header (address : Address) (data : List Byte) (moves : Nat → List chip.Move)
    (state : chip.State) :
    chip.shiftAll (spiInstrRead :: (putBe16 address ++ data)) moves .instruction state =
      let (outs, finish) := chip.shiftAll data (fun index => moves (index + 3)) (.reading address [])
        (chip.settle (moves 0 ++ moves 1 ++ moves 2) state)
      (0 :: 0 :: 0 :: outs, finish) := by
  rw [Registers.settle_append, Registers.settle_append]
  have address_back := getBe16_putBe16 address
  simp only [putBe16, List.cons_append, List.nil_append, Registers.shiftAll, Registers.shift,
    if_true, address_back, Nat.zero_add]

/-- What a read shifts out are words of its register, from their low bytes. -/
theorem words_of_shiftAll (address : Address) :
    ∀ (data : List Byte) (moves : Nat → List chip.Move) (before : List chip.Move) (state : chip.State),
    ∃ words after, words.length = (data.length + 3) / 4 ∧
      chip.shiftAll data moves (.reading address []) (chip.settle before state) =
        (((chip.readWords address words state).1.flatMap putLe32).take data.length,
          chip.settle after (chip.readWords address words state).2)
  | [], _, before, state => ⟨[], before, rfl, rfl⟩
  | [_], moves, before, state => ⟨[before ++ moves 0], [], by simp, by
      simp only [Registers.shiftAll, Registers.shift, Registers.readWords, Registers.settle_append]
      rfl⟩
  | [_, _], moves, before, state => ⟨[before ++ moves 0], moves 1, by simp, by
      simp only [Registers.shiftAll, Registers.shift, Registers.readWords, Registers.settle_append]
      rfl⟩
  | [_, _, _], moves, before, state => ⟨[before ++ moves 0], moves 1 ++ moves 2, by simp, by
      simp only [Registers.shiftAll, Registers.shift, Registers.readWords, Registers.settle_append]
      rfl⟩
  | _ :: _ :: _ :: _ :: data, moves, before, state => by
      obtain ⟨words, after, count, shifted⟩ := words_of_shiftAll address data
        (fun index => moves (index + 4)) (moves 1 ++ moves 2 ++ moves 3)
        (chip.read (chip.settle (before ++ moves 0) state) address).2
      refine ⟨(before ++ moves 0) :: words, after, ?_, ?_⟩
      · simp only [List.length_cons, count]
        omega
      · simp only [Registers.settle_append] at shifted
        simp only [Registers.shiftAll, Registers.shift, Registers.readWords, Registers.settle_append,
          putLe32, List.tail_cons, Nat.zero_add, shifted]
        rfl

/-- The moves of a run of bytes, four of which are a word. -/
def wordMoves (words : List (List chip.Move)) (index : Nat) : List chip.Move :=
  if index % 4 = 0 then words.getD (index / 4) [] else []

/-- After four bytes it is the next word's turn. -/
theorem wordMoves_later (moves : List chip.Move) (words : List (List chip.Move)) :
    (fun index => wordMoves (moves :: words) (index + 4)) = wordMoves words := by
  funext index
  unfold wordMoves
  rw [Nat.add_mod_right, Nat.add_div_right index (by decide), List.getD_cons_succ]

/-- Any words can be shifted out. -/
theorem shiftAll_of_words (address : Address) :
    ∀ (data : List Byte) (words : List (List chip.Move)) (state : chip.State),
    words.length = (data.length + 3) / 4 →
      chip.shiftAll data (wordMoves words) (.reading address []) state =
        (((chip.readWords address words state).1.flatMap putLe32).take data.length,
          (chip.readWords address words state).2)
  | [], words, state, count => by
      obtain rfl := List.length_eq_zero_iff.mp count
      rfl
  | [_], words, state, count => by
      obtain ⟨moves, rfl⟩ := List.length_eq_one_iff.mp (count.trans (by simp))
      rfl
  | [_, _], words, state, count => by
      obtain ⟨moves, rfl⟩ := List.length_eq_one_iff.mp (count.trans (by simp))
      rfl
  | [_, _, _], words, state, count => by
      obtain ⟨moves, rfl⟩ := List.length_eq_one_iff.mp (count.trans (by simp))
      rfl
  | _ :: _ :: _ :: _ :: data, words, state, count => by
      cases words with
      | nil =>
          simp only [List.length_nil, List.length_cons] at count
          omega
      | cons moves words =>
          have shifted := shiftAll_of_words address data words
            (chip.read (chip.settle moves state) address).2 (by
              simp only [List.length_cons] at count
              omega)
          rw [← wordMoves_later moves words] at shifted
          simp only [Registers.shiftAll, Registers.shift, Registers.readWords, putLe32,
            List.tail_cons, Nat.zero_add]
          change (_ :: _ :: _ :: _ :: (chip.shiftAll data
            (fun index => wordMoves (moves :: words) (index + 4)) (.reading address [])
            (chip.read (chip.settle moves state) address).2).1, (chip.shiftAll data
            (fun index => wordMoves (moves :: words) (index + 4)) (.reading address [])
            (chip.read (chip.settle moves state) address).2).2) = _
          rw [shifted]
          rfl

/-! ### Transactions -/

/-- A read sends its instruction, its address and zeros. -/
theorem sent_read (address : Address) (len : Nat) :
    sent [.bytes [spiInstrRead], .bytes (putBe16 address), .null len] [.null 1, .null 2, .into len] =
      spiInstrRead :: (putBe16 address ++ List.replicate len 0) := by
  simp [sent, TxBuf.data, RxBuf.len, putBe16]
  omega

/-- What comes in with the instruction and the address is dropped. -/
theorem received_read (bytes : List Byte) (len : Nat) :
    received [.null 1, .null 2, .into len] (0 :: 0 :: 0 :: bytes) = bytes.take len :=
  List.append_nil _

/-- The moves of a transaction whose first three bytes nothing happens before. -/
def afterHeader (moves : Nat → List chip.Move) : Nat → List chip.Move
  | index + 3 => moves index
  | _ => []

/-- Any words can be read. -/
theorem shiftAll_read_words (address : Address) (data : List Byte) (words : List (List chip.Move))
    (state : chip.State) (count : words.length = (data.length + 3) / 4) :
    chip.shiftAll (spiInstrRead :: (putBe16 address ++ data)) (afterHeader (wordMoves words))
        .instruction state =
      (0 :: 0 :: 0 :: ((chip.readWords address words state).1.flatMap putLe32).take data.length,
        (chip.readWords address words state).2) := by
  have shifted := shiftAll_of_words address data words state count
  rw [shiftAll_header]
  change (0 :: 0 :: 0 :: (chip.shiftAll data (wordMoves words) (.reading address []) state).1,
    (chip.shiftAll data (wordMoves words) (.reading address []) state).2) = _
  rw [shifted]

variable {state next : chip.State}

/-- A read which is given up has taken some of its words. -/
theorem shiftAll_cut (address : Address) (len : Nat) (moves : Nat → List chip.Move)
    (state : chip.State) (count : Nat) : ∃ words between, words.length ≤ (len + 3) / 4 ∧
      (chip.shiftAll ((spiInstrRead :: (putBe16 address ++ List.replicate len 0)).take count) moves
        .instruction state).2 = chip.settle between (chip.readWords address words state).2 := by
  match count with
  | 0 => exact ⟨[], [], Nat.zero_le _, rfl⟩
  | 1 => exact ⟨[], moves 0, Nat.zero_le _, rfl⟩
  | 2 => exact ⟨[], moves 0 ++ moves 1, Nat.zero_le _, (Registers.settle_append ..).symm⟩
  | count + 3 =>
      have kept : (spiInstrRead :: (putBe16 address ++ List.replicate len 0)).take (count + 3) =
          spiInstrRead :: (putBe16 address ++ (List.replicate len 0).take count) := rfl
      obtain ⟨words, between, taken, shifted⟩ := words_of_shiftAll address
        ((List.replicate len 0).take count) (fun index => moves (index + 3))
        (moves 0 ++ moves 1 ++ moves 2) state
      refine ⟨words, between, ?_, ?_⟩
      · rw [taken, List.length_take, List.length_replicate]
        omega
      · rw [kept, shiftAll_header, shifted]

/-- Byte by byte a read gives what it does word by word. -/
theorem readTransfer_iff (address : Address) (len : Nat) (result : Except Errno (List Byte)) :
    (∃ choice, chip.wireAnswer state (readTransfer address len) choice = some (result, next)) ↔
      ∃ choice words, chip.readAnswer state address ((len + 3) / 4) choice = some (words, next) ∧
        words.map (fun words => (words.flatMap putLe32).take len) = result := by
  constructor
  · rintro ⟨⟨moves, after, failure, other⟩, answered⟩
    unfold readTransfer Registers.wireAnswer at answered
    simp only [sent_read] at answered
    cases failure with
    | none =>
        obtain ⟨words, between, count, shifted⟩ := words_of_shiftAll address (List.replicate len 0)
          (fun index => moves (index + 3)) (moves 0 ++ moves 1 ++ moves 2) state
        simp only [shiftAll_header, shifted, received_read, List.length_replicate,
          Option.some.injEq, Prod.ext_iff] at answered count
        obtain ⟨rfl, rfl⟩ := answered
        refine ⟨⟨words, between ++ after, none, other⟩, .ok (chip.readWords address words state).1,
          ?_, ?_⟩
        · unfold Registers.readAnswer
          simp only [count, if_true, Registers.settle_append]
        · simp only [Except.map, List.take_take, Nat.min_self]
    | some failure =>
        obtain ⟨count, error⟩ := failure
        obtain ⟨words, between, taken, shifted⟩ := shiftAll_cut address len moves state count
        simp only [shifted, Option.some.injEq, Prod.ext_iff] at answered
        obtain ⟨rfl, rfl⟩ := answered
        refine ⟨⟨words, between ++ after, some error, other⟩, .error error, ?_, rfl⟩
        unfold Registers.readAnswer
        simp only [taken, if_true, Registers.settle_append]
  · rintro ⟨⟨words, after, failure, other⟩, result', answered, rfl⟩
    unfold Registers.readAnswer at answered
    simp only at answered
    unfold readTransfer Registers.wireAnswer
    simp only [sent_read]
    cases failure with
    | none =>
        simp only at answered
        split at answered
        · rename_i count
          obtain ⟨rfl, rfl⟩ := Prod.ext_iff.mp (Option.some.inj answered)
          have shifted := shiftAll_read_words address (List.replicate len 0) words state (by
            rw [count, List.length_replicate])
          refine ⟨⟨afterHeader (wordMoves words), after, none, other⟩, ?_⟩
          simp only [shifted, received_read, List.length_replicate, List.take_take, Nat.min_self]
          rfl
        · cases answered
    | some error =>
        simp only at answered
        split at answered
        · rename_i count
          obtain ⟨rfl, rfl⟩ := Prod.ext_iff.mp (Option.some.inj answered)
          -- The controller gives up once the first byte of the last word is out.
          have shifted := shiftAll_read_words address
            ((List.replicate len 0).take (4 * words.length - 3)) words state (by
              rw [List.length_take, List.length_replicate]
              omega)
          refine ⟨⟨afterHeader (wordMoves words), after, some (4 * words.length - 3 + 3, error),
            other⟩, ?_⟩
          have kept : (spiInstrRead :: (putBe16 address ++ List.replicate len 0)).take
              (4 * words.length - 3 + 3) = spiInstrRead :: (putBe16 address ++
                (List.replicate len 0).take (4 * words.length - 3)) := rfl
          simp only [kept, shifted]
          rfl
        · cases answered

/-- A write sends its instruction, its address and its word. -/
theorem sent_write (address : Address) (value : Word) :
    sent [.bytes [spiInstrWrite], .bytes (putBe16 address), .bytes (putLe32 value)] [] =
      spiInstrWrite :: (putBe16 address ++ putLe32 value) := by
  simp [sent, TxBuf.data]

/-- A write stores its word with the last of its seven bytes. -/
theorem shiftAll_write (address : Address) (value : Word) (moves : Nat → List chip.Move)
    (state : chip.State) :
    (chip.shiftAll (spiInstrWrite :: (putBe16 address ++ putLe32 value)) moves .instruction state).2 =
      chip.write (chip.settle (moves 0 ++ moves 1 ++ moves 2 ++ moves 3 ++ moves 4 ++ moves 5 ++
        moves 6) state) address value := by
  have address_back := getBe16_putBe16 address
  have value_back := getLe32_putLe32 value
  have differ : spiInstrWrite ≠ spiInstrRead := by decide
  simp only [putLe32] at value_back
  simp only [putBe16, putLe32, List.cons_append, List.nil_append, Registers.shiftAll,
    Registers.shift, if_neg differ, if_true, address_back, Registers.settle_append, Nat.zero_add]
  exact congrArg (chip.write _ address) value_back

/-- With a single word everything happens before its first byte. -/
theorem wordMoves_single (moves : List chip.Move) :
    wordMoves [moves] 0 ++ wordMoves [moves] 1 ++ wordMoves [moves] 2 ++ wordMoves [moves] 3 ++
      wordMoves [moves] 4 ++ wordMoves [moves] 5 ++ wordMoves [moves] 6 = moves := by
  simp [wordMoves]

/-- A write which is given up has stored its word or has had no effect. -/
theorem shiftAll_write_cut (address : Address) (value : Word) (moves : Nat → List chip.Move)
    (state : chip.State) (count : Nat) : ∃ before,
    let finish := (chip.shiftAll ((spiInstrWrite :: (putBe16 address ++ putLe32 value)).take count)
      moves .instruction state).2
    finish = chip.settle before state ∨ finish = chip.write (chip.settle before state) address value := by
  match count with
  | 0 => exact ⟨[], .inl rfl⟩
  | 1 => exact ⟨moves 0, .inl rfl⟩
  | 2 => exact ⟨moves 0 ++ moves 1, .inl (by simp only [Registers.settle_append]; rfl)⟩
  | 3 => exact ⟨moves 0 ++ moves 1 ++ moves 2, .inl (by simp only [Registers.settle_append]; rfl)⟩
  | 4 => exact ⟨moves 0 ++ moves 1 ++ moves 2 ++ moves 3,
      .inl (by simp only [Registers.settle_append]; rfl)⟩
  | 5 => exact ⟨moves 0 ++ moves 1 ++ moves 2 ++ moves 3 ++ moves 4,
      .inl (by simp only [Registers.settle_append]; rfl)⟩
  | 6 => exact ⟨moves 0 ++ moves 1 ++ moves 2 ++ moves 3 ++ moves 4 ++ moves 5,
      .inl (by simp only [Registers.settle_append]; rfl)⟩
  | count + 7 =>
      have kept : (spiInstrWrite :: (putBe16 address ++ putLe32 value)).take (count + 7) =
          spiInstrWrite :: (putBe16 address ++ putLe32 value) :=
        List.take_of_length_le (by simp [putBe16, putLe32])
      exact ⟨_, .inr (kept ▸ shiftAll_write address value moves state)⟩

/-- Byte by byte a write gives what it does at once. -/
theorem writeTransfer_iff (address : Address) (value : Word) (result : Except Errno (List Byte)) :
    (∃ choice, chip.wireAnswer state (writeTransfer address value) choice = some (result, next)) ↔
      ∃ choice outcome, chip.writeAnswer state address value choice = some (outcome, next) ∧
        outcome.map (fun _ => []) = result := by
  constructor
  · rintro ⟨⟨moves, after, failure, other⟩, answered⟩
    unfold writeTransfer Registers.wireAnswer at answered
    simp only [sent_write] at answered
    cases failure with
    | none =>
        simp only [shiftAll_write, Option.some.injEq, Prod.ext_iff] at answered
        obtain ⟨rfl, rfl⟩ := answered
        exact ⟨⟨[_], after, none, other⟩, .ok (), rfl, rfl⟩
    | some failure =>
        obtain ⟨count, error⟩ := failure
        obtain ⟨before, finish⟩ := shiftAll_write_cut address value moves state count
        simp only [Option.some.injEq, Prod.ext_iff] at answered
        obtain ⟨rfl, rfl⟩ := answered
        rcases finish with settled | written
        · refine ⟨⟨[], before ++ after, some error, other⟩, .error error, ?_, rfl⟩
          rw [settled]
          simp only [Registers.writeAnswer, Registers.settle_append]
        · refine ⟨⟨[before], after, some error, other⟩, .error error, ?_, rfl⟩
          rw [written]
          rfl
  · rintro ⟨⟨words, after, failure, other⟩, outcome, answered, rfl⟩
    unfold writeTransfer Registers.wireAnswer
    simp only [sent_write]
    unfold Registers.writeAnswer at answered
    simp only at answered
    split at answered
    · obtain ⟨rfl, rfl⟩ := Prod.ext_iff.mp (Option.some.inj answered)
      rename_i moves
      exact ⟨⟨wordMoves [moves], after, none, other⟩, by
        simp only [shiftAll_write, wordMoves_single]
        rfl⟩
    · obtain ⟨rfl, rfl⟩ := Prod.ext_iff.mp (Option.some.inj answered)
      rename_i moves error
      have whole : (spiInstrWrite :: (putBe16 address ++ putLe32 value)).take 7 =
          spiInstrWrite :: (putBe16 address ++ putLe32 value) := rfl
      refine ⟨⟨wordMoves [moves], after, some (7, error), other⟩, ?_⟩
      simp only [whole, shiftAll_write, wordMoves_single]
      rfl
    · obtain ⟨rfl, rfl⟩ := Prod.ext_iff.mp (Option.some.inj answered)
      rename_i error
      exact ⟨⟨fun _ => [], after, some (0, error), other⟩, rfl⟩
    · cases answered

/-! ### All programs -/

/-- As many words are read as there are moves before them. -/
theorem Registers.length_readWords (address : Address) (words : List (List chip.Move))
    (state : chip.State) : (chip.readWords address words state).1.length = words.length := by
  induction words generalizing state with
  | nil => rfl
  | cons moves words inductionHypothesis =>
      simp only [Registers.readWords, List.length_cons, inductionHypothesis]

/-- A whole transaction has read as many words as it should. -/
theorem length_of_readAnswer {address : Address} {count : Nat} {choice : chip.BusChoice}
    {words : List Word} (answered : chip.readAnswer state address count choice = some (.ok words, next)) :
    words.length = count := by
  unfold Registers.readAnswer at answered
  simp only at answered
  split at answered
  · split at answered
    · rename_i whole
      obtain ⟨same, -⟩ := Prod.ext_iff.mp (Option.some.inj answered)
      obtain rfl := Except.ok.inj same
      rw [Registers.length_readWords, whole]
    · cases answered
  · split at answered
    · obtain ⟨same, -⟩ := Prod.ext_iff.mp (Option.some.inj answered)
      cases same
    · cases answered

/-- The word of a register, as the driver gets it from its bytes. -/
theorem word_of_bytes {address : Address} {choice : chip.BusChoice} {words : Except Errno (List Word)}
    (answered : chip.readAnswer state address 1 choice = some (words, next)) :
    (words.map fun words => (words.flatMap putLe32).take 4).map getLe32 =
      words.map fun words => words.headD 0 := by
  cases words with
  | error error => rfl
  | ok words =>
      obtain ⟨word, rfl⟩ := List.length_eq_one_iff.mp (length_of_readAnswer answered)
      exact congrArg Except.ok (getLe32_putLe32 word)

/-- What is no transaction is answered alike. -/
theorem other_iff (request : Request) (response : Response request) :
    (∃ choices, chip.wire.Returns chip.wire.unguarded (.ask (.other request) .done) state choices
        response next) ↔
      ∃ choice : chip.BusChoice, chip.other state request choice.other = some (response, next) := by
  refine Device.returns_asked_iff.trans ⟨?_, ?_⟩
  · rintro ⟨choice, -, answered⟩
    exact ⟨⟨[], [], none, choice.other⟩, answered⟩
  · rintro ⟨choice, answered⟩
    exact ⟨⟨fun _ => [], [], none, choice.other⟩, trivial, answered⟩

/-- Each transaction on the wire is a transaction which happens at once. -/
theorem wire_implements (chip : Registers) : chip.wire.Implements wireBody chip.busAnswer := by
  intro state request response next
  cases request with
  | readSysReg address =>
      refine Device.returns_mapped_iff.trans ⟨?_, ?_⟩
      · rintro ⟨choice, bytes, -, shifted, rfl⟩
        obtain ⟨choice, words, answered, rfl⟩ :=
          (readTransfer_iff address 4 bytes).mp ⟨choice, shifted⟩
        exact ⟨choice, Option.map_eq_some_iff.mpr
          ⟨(words, next), answered, Prod.ext (word_of_bytes answered).symm rfl⟩⟩
      · rintro ⟨choice, answered⟩
        obtain ⟨⟨words, _⟩, taken, same⟩ := Option.map_eq_some_iff.mp answered
        obtain ⟨rfl, rfl⟩ := Prod.ext_iff.mp same
        obtain ⟨wires, shifted⟩ := (readTransfer_iff address 4 _).mpr ⟨choice, words, taken, rfl⟩
        exact ⟨wires, _, trivial, shifted, word_of_bytes taken⟩
  | writeSysReg address value =>
      refine Device.returns_mapped_iff.trans ⟨?_, ?_⟩
      · rintro ⟨choice, bytes, -, shifted, rfl⟩
        obtain ⟨choice, outcome, answered, rfl⟩ :=
          (writeTransfer_iff address value bytes).mp ⟨choice, shifted⟩
        refine ⟨choice, answered.trans ?_⟩
        cases outcome <;> rfl
      · rintro ⟨choice, answered⟩
        obtain ⟨wires, shifted⟩ := (writeTransfer_iff address value _).mpr
          ⟨choice, response, answered, rfl⟩
        refine ⟨wires, _, trivial, shifted, ?_⟩
        cases response <;> rfl
  | readBuf len =>
      refine Device.returns_asked_iff.trans ⟨?_, ?_⟩
      · rintro ⟨choice, -, shifted⟩
        obtain ⟨choice, words, answered, rfl⟩ :=
          (readTransfer_iff rxDataFifo len response).mp ⟨choice, shifted⟩
        exact ⟨choice, Option.map_eq_some_iff.mpr ⟨(words, next), answered, rfl⟩⟩
      · rintro ⟨choice, answered⟩
        obtain ⟨⟨words, _⟩, taken, same⟩ := Option.map_eq_some_iff.mp answered
        obtain ⟨rfl, rfl⟩ := Prod.ext_iff.mp same
        obtain ⟨wires, shifted⟩ := (readTransfer_iff rxDataFifo len _).mpr
          ⟨choice, words, taken, rfl⟩
        exact ⟨wires, trivial, shifted⟩
  | _ => exact other_iff _ _

end Transfers

/-- What goes on between two bytes: the environment moves, or an observer records something. -/
inductive Between where
  | environment (choice : Choice)
  | recorded (event : Event)

/-- One such move. -/
def World.between (world : World) : Between → World
  | .environment choice => world.advance choice
  | .recorded event => world.record event

/-- The chip of the world as registers behind an SPI interface. -/
abbrev worldRegisters : Registers where
  State := World
  Move := Between
  move := World.between
  read world address :=
    ((world.chip.read address).1, { world with chip := (world.chip.read address).2 })
  write world address value := { world with chip := world.chip.write address value }
  Other := Choice
  other := answer

/-- What is recorded of a register read is a move between two bytes. -/
theorem exists_noteRead (world : World) (address : Address) :
    ∃ notes, world.noteRead address = worldRegisters.settle notes world := by
  unfold World.noteRead
  split
  · exact ⟨[.recorded _], rfl⟩
  · exact ⟨[], rfl⟩

/-- So is what is recorded of a register write. -/
theorem exists_noteWrite (world : World) (address : Address) (value : Word) :
    ∃ notes, world.noteWrite address value = worldRegisters.settle notes world := by
  unfold World.noteWrite
  split
  · split
    · exact ⟨[], rfl⟩
    · exact ⟨[.recorded _], rfl⟩
  · exact ⟨[], rfl⟩

/-- Words of `RX_DATA_FIFO` are taken off its bytes. -/
theorem readWords_rxData (count : Nat) (world : World) :
    (worldRegisters.readWords rxDataFifo (List.replicate count []) world).2 =
      { world with chip := { world.chip with rxData := world.chip.rxData.drop (4 * count) } } := by
  induction count generalizing world with
  | zero => rfl
  | succ count inductionHypothesis =>
      rw [List.replicate_succ, Registers.readWords]
      have taken : world.chip.read rxDataFifo =
          (Chip.wordOfBytes (world.chip.rxData.take 4),
            { world.chip with rxData := world.chip.rxData.drop 4 }) := rfl
      have sum : 4 * (count + 1) = 4 + 4 * count := by omega
      simp only [Registers.settle, List.foldl_nil, taken, inductionHypothesis, List.drop_drop, sum]

/-- As long as there are enough of them, they are those bytes. -/
theorem bytes_of_readWords {count : Nat} {world : World}
    (enough : 4 * count ≤ world.chip.rxData.length) :
    (worldRegisters.readWords rxDataFifo (List.replicate count []) world).1.flatMap putLe32 =
      world.chip.rxData.take (4 * count) := by
  induction count generalizing world with
  | zero => rfl
  | succ count inductionHypothesis =>
      obtain ⟨first, second, third, fourth, rest, bytes⟩ :
          ∃ first second third fourth rest,
            world.chip.rxData = first :: second :: third :: fourth :: rest := by
        match bytes : world.chip.rxData with
        | first :: second :: third :: fourth :: rest => exact ⟨_, _, _, _, _, rfl⟩
        | [] | [_] | [_, _] | [_, _, _] =>
            rw [bytes] at enough
            simp only [List.length_cons, List.length_nil] at enough
            omega
      rw [List.replicate_succ, Registers.readWords]
      have taken : world.chip.read rxDataFifo =
          (fourth ++ third ++ second ++ first, { world.chip with rxData := rest }) := by
        change (Chip.wordOfBytes (world.chip.rxData.take 4),
          { world.chip with rxData := world.chip.rxData.drop 4 }) = _
        rw [bytes]
        rfl
      have sum : 4 * (count + 1) = 4 * count + 4 := by omega
      rw [bytes] at enough
      have left : 4 * count ≤ rest.length := by
        simp only [List.length_cons] at enough
        omega
      simp only [Registers.settle, List.foldl_nil, taken, List.flatMap_cons, putLe32_of_bytes]
      rw [inductionHypothesis left, bytes, sum]
      rfl

/-- A buffer is read in whole words, of which the FIFO holds that many. -/
def WholeWords (world : World) (request : Request) (choice : Choice) : Prop :=
  ∀ len, request = .readBuf len → 4 ∣ len ∧ len ≤ (world.advance choice).chip.rxData.length

/-- A buffer of whole words is read as the bytes it is made of, or given up before or after
them. -/
theorem readBuf_by_registers {world : World} {count : Nat} {choice : Choice}
    (enough : 4 * count ≤ (world.advance choice).chip.rxData.length) :
    ∃ bus, worldRegisters.busAnswer world (.readBuf (4 * count)) bus =
      some (world.readBuf (4 * count) choice) := by
  have words : (4 * count + 3) / 4 = count := by omega
  have bytes := bytes_of_readWords enough
  have left := readWords_rxData count (world.advance choice)
  unfold World.readBuf Registers.busAnswer Registers.readAnswer
  simp only [words]
  cases count with
  | zero =>
      cases outcome : choice.outcome with
      | ok => exact ⟨⟨[], [.environment choice], none, choice⟩, rfl⟩
      | failed applied error =>
          refine ⟨⟨[], [.environment choice], some error, choice⟩, ?_⟩
          cases applied <;> rfl
  | succ count =>
      have moved : worldRegisters.readWords rxDataFifo
          ([.environment choice] :: List.replicate count []) world =
          worldRegisters.readWords rxDataFifo (List.replicate (count + 1) [])
            (world.advance choice) := rfl
      have length : ([.environment choice] :: List.replicate count [] :
          List (List Between)).length = count + 1 := by simp
      cases outcome : choice.outcome with
      | ok =>
          refine ⟨⟨[.environment choice] :: List.replicate count [], [], none, choice⟩, ?_⟩
          simp only [moved, length, if_true, left, Option.map_some, Except.map, bytes, List.take_take,
            Nat.min_self]
          rfl
      | failed applied error =>
          cases applied with
          | true =>
              refine ⟨⟨[.environment choice] :: List.replicate count [], [], some error, choice⟩, ?_⟩
              simp only [moved, length, le_refl, if_true, left]
              rfl
          | false => exact ⟨⟨[], [.environment choice], some error, choice⟩, rfl⟩

/-- A transaction of one word over the bus: the word follows these moves, unless the transaction
fails without it. -/
def oneWord (moves : List Between) (choice : Choice) : worldRegisters.BusChoice :=
  match choice.outcome with
  | .ok => ⟨[moves], [], none, choice⟩
  | .failed true error => ⟨[moves], [], some error, choice⟩
  | .failed false error => ⟨[], moves, some error, choice⟩

/-- Each answer of the world is one of its registers. -/
theorem answered_by_registers {world next : World} {request : Request} {choice : Choice}
    {response : Response request} (whole : WholeWords world request choice)
    (answered : answer world request choice = some (response, next)) :
    ∃ bus, worldRegisters.busAnswer world request bus = some (response, next) := by
  cases request with
  | readSysReg address =>
      obtain ⟨notes, noted⟩ := exists_noteRead (world.advance choice) address
      obtain ⟨rfl, rfl⟩ := Prod.ext_iff.mp (Option.some.inj answered)
      refine ⟨oneWord (.environment choice :: notes) choice, ?_⟩
      simp only [World.readSysReg, noted, oneWord]
      rcases choice.outcome with _ | ⟨_ | _, error⟩ <;> rfl
  | writeSysReg address value =>
      obtain ⟨notes, noted⟩ := exists_noteWrite (world.advance choice) address value
      obtain ⟨rfl, rfl⟩ := Prod.ext_iff.mp (Option.some.inj answered)
      refine ⟨oneWord (.environment choice :: notes) choice, ?_⟩
      simp only [World.writeSysReg, noted, oneWord]
      rcases choice.outcome with _ | ⟨_ | _, error⟩ <;> rfl
  | readBuf len =>
      obtain ⟨⟨count, rfl⟩, enough⟩ := whole len rfl
      obtain ⟨bus, read⟩ := readBuf_by_registers enough
      exact ⟨bus, read.trans answered⟩
  | _ => exact ⟨⟨[], [], none, choice⟩, answered⟩

/-- What the driver does with the world it can do over the wire, if it reads buffers in whole
words. A read of any other length leaves the rest of its last word in the world, which hands out
single bytes, and takes it along over the wire. -/
theorem wire_of_returns {α : Type} {program : Code α} {world finish : World}
    {choices : List Choice} {value : α}
    (returns : lan9250.Returns WholeWords program world choices value finish) :
    ∃ choices, worldRegisters.wire.Returns worldRegisters.wire.unguarded
      (program.translate wireBody) world choices value finish := by
  refine ((wire_implements worldRegisters).returns_iff program world value finish).mpr ?_
  exact returns.simulate (worldRegisters.wire.withStates worldRegisters.busAnswer)
    (fun world : World => world) answered_by_registers

end Rp2350Stepper.Lan9250
