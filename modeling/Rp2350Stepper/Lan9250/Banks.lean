import Rp2350Stepper.Lan9250.Quiet
import Rp2350Stepper.Lan9250.ReceiveRequests
import Rp2350Stepper.Lan9250.TxTimestamp
import Rp2350Stepper.Semantics.Locking

/-!
# The banked registers

The registers from 0x158 to 0x18C are those of the bank which `1588_BANK_PORT_GPIO_SEL`
selects: one address is `RX_MSG_HEADER` or `TX_MSG_HEADER`. The functions which use them run
in different threads and select their banks under `bank_lock`.

A thread which has just taken the lock knows nothing of the selected bank. From there each
function goes on only after a select which has succeeded, to registers of that bank.
-/

namespace Rp2350Stepper.Lan9250

open Rp2350Stepper.Data Rp2350Stepper.Semantics

/-! ### Configuration -/

/-- The part of `lan9250_1588_timestamping_init` between taking and giving back `bank_lock`. -/
def enableTimestamps : Driver Unit := do
  ieee1588BankSelect bankSelPortRx
  let rxTsConfig ← readSysReg rxTimestampConfig
  writeSysReg rxTimestampConfig
    ((rxTsConfig &&& ~~~rxTimestampConfigMessageEnMask) ||| ptpMessageEnDefault)
  ieee1588BankSelect bankSelPortTx
  let txTsConfig ← readSysReg txTimestampConfig
  writeSysReg txTimestampConfig
    ((txTsConfig &&& ~~~txTimestampConfigMessageEnMask) ||| ptpMessageEnDefault)

/-- `lan9250_1588_timestamping_init`. -/
def timestampingInit : Code (Except Errno Unit) := do
  call (.mutexLock .bankLock)
  let ret ← enableTimestamps.run
  call (.mutexUnlock .bankLock)
  return ret

/-! ### The lock -/

/-- An address whose register depends on the selected bank. -/
def Banked (address : Address) : Prop := 0x0158 ≤ address ∧ address ≤ 0x018C

instance : DecidablePred Banked := fun _ => inferInstanceAs (Decidable (_ ∧ _))

/-- The register of a transaction. -/
def Request.register? : Request → Option Address
  | .readSysReg address => some address
  | .writeSysReg address _ => some address
  | _ => none

/-- What a request is to `bank_lock`. -/
def Request.bankRole : Request → Lock.Role
  | .mutexLock .bankLock => .acquire
  | .mutexUnlock .bankLock => .release
  | .readSysReg address => if Banked address then .guarded else .outside
  | .writeSysReg address _ =>
      if Banked address ∨ address = bankPortGpioSel then .guarded else .outside
  | _ => .outside

/-- However a transaction ends, the bank is as it leaves it. -/
theorem conclude_bank {α : Type} (world : World) (outcome : Outcome) {result : α × Chip}
    (same : result.2.bank = world.chip.bank) :
    (world.conclude outcome result).2.chip.bank = world.chip.bank := by
  unfold World.conclude
  split <;> first | exact same | rfl

/-- Only a write of `1588_BANK_PORT_GPIO_SEL` selects a bank. -/
theorem write_bank (chip : Chip) {address : Address} (value : Word)
    (other : address ≠ bankPortGpioSel) : (chip.write address value).bank = chip.bank := by
  unfold Chip.write
  rw [if_neg other]
  repeat' split
  all_goals rfl

/-- Only a write of `1588_BANK_PORT_GPIO_SEL` selects a bank. -/
theorem answer_bank {world next : World} {request : Request} {choice : Choice}
    {response : Response request} (other : ∀ value, request ≠ .writeSysReg bankPortGpioSel value)
    (answered : answer world request choice = some (response, next)) :
    next.chip.bank = world.chip.bank := by
  have timed := advance_bank world choice
  cases request with
  | crash => simp [answer] at answered
  | hang => simp [answer] at answered
  | readSysReg address =>
      simp only [answer, Option.some.injEq, Prod.ext_iff] at answered
      obtain ⟨_, rfl⟩ := answered
      exact readSysReg_bank world address choice
  | writeSysReg address value =>
      simp only [answer, Option.some.injEq, Prod.ext_iff] at answered
      obtain ⟨_, rfl⟩ := answered
      have noted : ((world.advance choice).noteWrite address value).chip.bank = world.chip.bank := by
        rw [noteWrite_chip, timed]
      refine (conclude_bank _ _ (write_bank _ _ ?_)).trans noted
      rintro rfl
      exact other value rfl
  | readBuf len =>
      simp only [answer, Option.some.injEq, Prod.ext_iff] at answered
      obtain ⟨_, rfl⟩ := answered
      exact (conclude_bank _ _ rfl).trans timed
  | rxAlloc len =>
      simp only [answer, Option.some.injEq, Prod.ext_iff] at answered
      obtain ⟨_, rfl⟩ := answered
      unfold World.rxAlloc
      split <;> exact timed
  | _ =>
      simp only [answer, Option.some.injEq, Prod.ext_iff] at answered
      obtain ⟨_, rfl⟩ := answered
      first | exact timed | rfl

/-- `bank_lock` guards the selected bank. -/
def bankLock : Lock lan9250 where
  Value := Word
  value world := world.chip.bank
  role := Request.bankRole
  outside_value {_ request _ _ _} outside answered := by
    refine answer_bank ?_ answered
    rintro value rfl
    simp [Request.bankRole] at outside

/-! ### Calls -/

/-- The calls which use the banked registers. -/
inductive TimestampCall where
  /-- `lan9250_1588_timestamping_init`. -/
  | init
  /-- `lan9250_1588_rx_timestamp_check`. -/
  | rx (pkt : NetPkt) (pktLen : Nat)
  /-- `lan9250_1588_tx_timestamp_check`. -/
  | tx (timestampThread : Bool) (pkt : PktId) (frame : List Byte) (len : Nat)

namespace TimestampCall

/-- The code of each call. -/
def body : TimestampCall → Code Unit
  | init => do let _ ← timestampingInit
  | rx pkt pktLen => rxTimestampCheck pkt pktLen
  | tx timestampThread pkt frame len => txTimestampCheck timestampThread pkt frame len

/-- The banked registers a call uses, each with the bank its name belongs to. -/
def registers : TimestampCall → List (Address × Word)
  | init => [(rxTimestampConfig, bankSelPortRx), (txTimestampConfig, bankSelPortTx)]
  | rx _ _ => [(capInfo, bankSelPortGeneral), (rxMsgHeader, bankSelPortRx),
      (rxIngressSec, bankSelPortRx), (rxIngressNs, bankSelPortRx)]
  | tx _ _ _ _ => [(capInfo, bankSelPortGeneral), (txMsgHeader, bankSelPortTx),
      (txEgressSec, bankSelPortTx), (txEgressNs, bankSelPortTx)]

/-- The events whose times a call reads. -/
def captures? : TimestampCall → Option (Chip → List Capture)
  | init => none
  | rx _ _ => some fun chip => chip.rxCaptures.items
  | tx _ _ _ _ => some fun chip => chip.txCaptures.items

end TimestampCall

/-- The bank a banked register is used in is that of its name. -/
def InBank (registers : List (Address × Word)) (request : Request) (bank : Word) : Prop :=
  ∀ address, request.register? = some address → Banked address → (address, bank) ∈ registers

section Disciplined

variable {registers : List (Address × Word)} {bank : Word} {held : Option Word} {α : Type}

/-- The fields of the driver are outside the lock. -/
theorem bookkeeping_outside (request : Request) (known : request.bookkeeping) :
    bankLock.role request = .outside := by
  cases request <;> first | rfl | exact known.elim

/-- A program over these fields leaves the bank alone. -/
theorem bookkeeping_disciplined {program : Code α} {post : α → Option Word → Prop}
    (only : program.Only Request.bookkeeping) (holds : ∀ result, post result held) :
    bankLock.Disciplined (InBank registers) program held post :=
  .of_only (only.weaken bookkeeping_outside) holds

/-- Such a program, and what follows it. -/
theorem bookkeeping_then {β : Type} {program : Code α} {next : α → Code β}
    {post : β → Option Word → Prop} (only : program.Only Request.bookkeeping)
    (continues : ∀ result, bankLock.Disciplined (InBank registers) (next result) held post) :
    bankLock.Disciplined (InBank registers) (program >>= next) held post := by
  have kept : bankLock.Disciplined (InBank registers) program held fun _ held' => held' = held :=
    bookkeeping_disciplined only fun _ => rfl
  apply kept.bind
  rintro result held rfl
  exact continues result

/-- An access to a register of the selected bank. -/
theorem access_disciplined {request : Request} {post : Response request → Option Word → Prop}
    {address : Address} (register : request.register? = some address) (banked : Banked address)
    (known : (address, bank) ∈ registers) (holds : ∀ response, post response (some bank)) :
    bankLock.Disciplined (InBank registers) (call request) (some bank) post := by
  have role : bankLock.role request = .guarded := by
    cases request <;> simp_all [bankLock, Request.bankRole, Request.register?]
  refine .guarded role ?_ ?_
  · intro accessed same _
    rw [register, Option.some.injEq] at same
    exact same ▸ known
  · intro world choice response next here answered
    have other : ∀ value, request ≠ .writeSysReg bankPortGpioSel value := by
      rintro value rfl
      obtain rfl := Option.some.inj register
      exact absurd banked (by decide)
    have kept : bankLock.value next = bank := (answer_bank other answered).trans here
    exact kept ▸ holds response

/-- A banked register is read in its bank. -/
theorem read_disciplined {address : Address} (banked : Banked address)
    (known : (address, bank) ∈ registers) :
    bankLock.Disciplined (InBank registers) (readSysReg address).run (some bank)
      fun _ held => held = some bank :=
  access_disciplined rfl banked known fun _ => rfl

/-- A banked register is written in its bank. -/
theorem write_disciplined {address : Address} {value : Word} (banked : Banked address)
    (known : (address, bank) ∈ registers) :
    bankLock.Disciplined (InBank registers) (writeSysReg address value).run (some bank)
      fun _ held => held = some bank :=
  access_disciplined rfl banked known fun _ => rfl

/-- A read, and what follows it if it succeeds. -/
theorem read_then {address : Address} {next : Word → Driver α}
    {post : Except Errno α → Option Word → Prop} (banked : Banked address)
    (known : (address, bank) ∈ registers)
    (continues : ∀ value, bankLock.Disciplined (InBank registers) (next value).run (some bank) post)
    (fails : ∀ error, post (.error error) (some bank)) :
    bankLock.Disciplined (InBank registers) (readSysReg address >>= next).run (some bank) post := by
  apply (read_disciplined banked known).run_bind
  · rintro value held rfl
    exact continues value
  · rintro error held rfl
    exact fails error

/-- A bank select leaves some bank selected, and the one asked for if it succeeds. -/
theorem bankSelect_disciplined {before : Word} :
    bankLock.Disciplined (InBank registers) (ieee1588BankSelect bank).run (some before)
      fun result held => held.isSome = true ∧ (result = .ok () → held = some bank) := by
  refine .guarded rfl ?_ ?_
  · intro accessed same banked
    obtain rfl := Option.some.inj same
    exact absurd banked (by decide)
  · intro world choice response next _ answered
    simp only [answer, Option.some.injEq, Prod.ext_iff] at answered
    obtain ⟨rfl, rfl⟩ := answered
    exact ⟨rfl, fun succeeded => congrArg some (bankSelect_bank succeeded)⟩

/-- `1588_INT_STS` is in no bank. -/
theorem acknowledge_disciplined (value : Word) :
    bankLock.Disciplined (InBank registers) (writeSysReg ieee1588IntSts value).run held
      fun _ held' => held' = held :=
  .of_only ⟨rfl, fun _ => trivial⟩ fun _ => rfl

end Disciplined

/-! ### The calls are disciplined -/

section Calls

variable (pkt : NetPkt) (pktLen : Nat) (key : MsgKey)

/-- An ingress event is read in its bank. -/
private theorem readIngress_disciplined :
    bankLock.Disciplined (InBank (TimestampCall.rx pkt pktLen).registers) readIngress.run
      (some bankSelPortRx) fun _ held => held = some bankSelPortRx := by
  refine read_then (by decide) (by simp [TimestampCall.registers]) (fun msgHeader => ?_) fun _ => rfl
  refine read_then (by decide) (by simp [TimestampCall.registers]) (fun sec => ?_) fun _ => rfl
  refine read_then (by decide) (by simp [TimestampCall.registers]) (fun ns => ?_) fun _ => rfl
  exact .pure rfl

/-- It is read and acknowledged with the lock held. -/
private theorem drainIngress_disciplined (bank : Word) :
    bankLock.Disciplined (InBank (TimestampCall.rx pkt pktLen).registers)
      (drainIngress pkt.id key) (some bank) fun _ held => held.isSome = true := by
  have logs (message : Message) : (do call (.log message); return false : Code Bool).Only
      Request.bookkeeping := (only_call trivial).bind fun _ => Program.only_pure
  apply bankSelect_disciplined.bind
  rintro selected held ⟨isSome, known⟩
  cases selected with
  | error => exact bookkeeping_disciplined (logs _) fun _ => isSome
  | ok _ =>
      obtain rfl := known rfl
      apply (read_disciplined (by decide) (by simp [TimestampCall.registers])).bind
      rintro counted held rfl
      cases counted with
      | error => exact bookkeeping_disciplined (logs _) fun _ => rfl
      | ok info =>
          simp only
          split
          · exact .pure rfl
          · apply bankSelect_disciplined.bind
            rintro selected held ⟨isSome, known⟩
            cases selected with
            | error => exact .pure isSome
            | ok _ =>
                obtain rfl := known rfl
                apply (readIngress_disciplined pkt pktLen).bind
                rintro shown held rfl
                cases shown with
                | error => exact .pure rfl
                | ok event =>
                    apply (acknowledge_disciplined _).bind
                    rintro _ held rfl
                    exact bookkeeping_disciplined (settleIngress_only _ _ _ _) fun _ => rfl

/-- So it is where no stashed event matches. -/
private theorem attachEvent_disciplined (bank : Word) :
    bankLock.Disciplined (InBank (TimestampCall.rx pkt pktLen).registers)
      (attachEvent pkt.id key) (some bank) fun _ held => held.isSome = true := by
  apply bookkeeping_then (attachUnclaimed_only _ _)
  intro attached
  cases attached with
  | true => exact .pure rfl
  | false => exact drainIngress_disciplined pkt pktLen key bank

/-- The matching of a received message takes the lock and returns it. -/
private theorem rxTimestampMatch_disciplined :
    bankLock.Disciplined (InBank (TimestampCall.rx pkt pktLen).registers)
      (rxTimestampMatch pkt.id key) none fun _ held => held = none := by
  refine .acquire rfl fun _ bank => ?_
  refine .outside rfl fun now => ?_
  apply bookkeeping_then (rxPendingExpire_only now)
  intro _
  apply (attachEvent_disciplined pkt pktLen key bank).bind
  intro attached held isSome
  obtain ⟨bank, rfl⟩ := Option.isSome_iff_exists.mp isSome
  have unlocks : bankLock.Disciplined (InBank (TimestampCall.rx pkt pktLen).registers)
      (call (.mutexUnlock .bankLock)) (some bank) fun _ held => held = none :=
    .release rfl fun _ => .pure rfl
  split
  · exact bookkeeping_then (queuePending_only _ _) fun _ => unlocks
  · exact unlocks

/-- A received frame without a header takes no lock at all. -/
private theorem rxTimestampCheck_disciplined :
    bankLock.Disciplined (InBank (TimestampCall.rx pkt pktLen).registers)
      (rxTimestampCheck pkt pktLen) none fun _ held => held = none := by
  unfold rxTimestampCheck
  simp only
  split
  · exact .outside rfl fun _ => .pure rfl
  · split
    · exact .pure rfl
    · exact rxTimestampMatch_disciplined pkt pktLen _

end Calls

section Transmit

variable (timestampThread : Bool) (pkt : PktId) (frame : List Byte) (len : Nat) (key : MsgKey)

/-- However long it polls, the bank stays selected. -/
private theorem pollCapInfo_disciplined (attempts : Nat) (info : Word) :
    bankLock.Disciplined (InBank (TimestampCall.tx timestampThread pkt frame len).registers)
      (pollCapInfo attempts info).run (some bankSelPortGeneral)
      fun _ held => held = some bankSelPortGeneral := by
  induction attempts generalizing info with
  | zero => exact .pure rfl
  | succ attempts inductionHypothesis =>
      refine read_then (by decide) (by simp [TimestampCall.registers]) (fun info => ?_) fun _ => rfl
      split
      · exact .pure rfl
      · exact .outside rfl fun _ => inductionHypothesis info

/-- An egress event is read in its bank. -/
private theorem readEgress_disciplined :
    bankLock.Disciplined (InBank (TimestampCall.tx timestampThread pkt frame len).registers)
      readEgress.run (some bankSelPortTx) fun _ held => held = some bankSelPortTx := by
  refine read_then (by decide) (by simp [TimestampCall.registers]) (fun msgHeader => ?_) fun _ => rfl
  refine read_then (by decide) (by simp [TimestampCall.registers]) (fun sec => ?_) fun _ => rfl
  refine read_then (by decide) (by simp [TimestampCall.registers]) (fun ns => ?_) fun _ => rfl
  exact .pure rfl

/-- It is read and acknowledged with the lock held. -/
private theorem txTimestampMatch_disciplined (bank : Word) :
    bankLock.Disciplined (InBank (TimestampCall.tx timestampThread pkt frame len).registers)
      (txTimestampMatch timestampThread pkt key) (some bank) fun _ held => held.isSome = true := by
  have acknowledges (message : Message) :
      bankLock.Disciplined (InBank (TimestampCall.tx timestampThread pkt frame len).registers)
        (do
          call (.log message)
          let _ ← (writeSysReg ieee1588IntSts intStsTxTsInt).run)
        (some bankSelPortTx) fun _ held => held.isSome = true :=
    .outside rfl fun _ => .outside rfl fun _ => .pure rfl
  apply bankSelect_disciplined.bind
  rintro selected held ⟨isSome, known⟩
  cases selected with
  | error => exact .outside rfl fun _ => .pure isSome
  | ok _ =>
      obtain rfl := known rfl
      apply (pollCapInfo_disciplined timestampThread pkt frame len _ _).bind
      rintro polled held rfl
      cases polled with
      | error => exact .outside rfl fun _ => .pure rfl
      | ok info =>
          simp only
          split
          · exact .pure rfl
          · apply bankSelect_disciplined.bind
            rintro selected held ⟨isSome, known⟩
            cases selected with
            | error => exact .outside rfl fun _ => .pure isSome
            | ok _ =>
                obtain rfl := known rfl
                apply (readEgress_disciplined timestampThread pkt frame len).bind
                rintro shown held rfl
                cases shown with
                | error => exact .outside rfl fun _ => .pure rfl
                | ok event =>
                    simp only
                    split
                    · refine .outside rfl fun _ => ?_
                      split
                      · exact .outside rfl fun _ => acknowledges _
                      · exact acknowledges _
                    · exact acknowledges _

/-- The check of a sent frame takes the lock and returns it. -/
private theorem txTimestampCheck_disciplined :
    bankLock.Disciplined (InBank (TimestampCall.tx timestampThread pkt frame len).registers)
      (txTimestampCheck timestampThread pkt frame len) none fun _ held => held = none := by
  unfold txTimestampCheck
  split
  · exact .pure rfl
  · refine .acquire rfl fun _ bank => ?_
    apply (txTimestampMatch_disciplined timestampThread pkt frame len _ bank).bind
    intro _ held isSome
    obtain ⟨bank, rfl⟩ := Option.isSome_iff_exists.mp isSome
    exact .release rfl fun _ => .pure rfl

end Transmit

section Init

/-- The time stamps are enabled in their two banks. -/
private theorem enableTimestamps_disciplined (bank : Word) :
    bankLock.Disciplined (InBank TimestampCall.init.registers) enableTimestamps.run (some bank)
      fun _ held => held.isSome = true := by
  apply bankSelect_disciplined.run_bind
  · rintro _ held ⟨_, known⟩
    obtain rfl := known rfl
    refine read_then (by decide) (by simp [TimestampCall.registers]) (fun rxTsConfig => ?_) fun _ => rfl
    apply (write_disciplined (by decide) (by simp [TimestampCall.registers])).run_bind
    · rintro _ held rfl
      apply bankSelect_disciplined.run_bind
      · rintro _ held ⟨_, known⟩
        obtain rfl := known rfl
        refine read_then (by decide) (by simp [TimestampCall.registers]) (fun txTsConfig => ?_)
          fun _ => rfl
        apply (write_disciplined (by decide) (by simp [TimestampCall.registers])).weaken
        rintro _ held rfl
        rfl
      · rintro _ held ⟨isSome, _⟩
        exact isSome
    · rintro _ held rfl
      rfl
  · rintro _ held ⟨isSome, _⟩
    exact isSome

/-- Configuration gives the lock back whether or not it has succeeded. -/
private theorem timestampingInit_disciplined :
    bankLock.Disciplined (InBank TimestampCall.init.registers) timestampingInit none
      fun _ held => held = none := by
  refine .acquire rfl fun _ bank => ?_
  apply (enableTimestamps_disciplined bank).bind
  intro ret held isSome
  obtain ⟨bank, rfl⟩ := Option.isSome_iff_exists.mp isSome
  exact .release rfl fun _ => .pure rfl

end Init

/-- Every call uses banked registers only while it holds `bank_lock` and their bank is selected,
and it gives the lock back. -/
theorem timestampCall_disciplined (timestampCall : TimestampCall) :
    bankLock.Disciplined (InBank timestampCall.registers) timestampCall.body none
      fun _ held => held = none := by
  cases timestampCall with
  | init =>
      apply timestampingInit_disciplined.bind
      intro ret held returned
      exact .pure returned
  | rx pkt pktLen => exact rxTimestampCheck_disciplined pkt pktLen
  | tx timestampThread pkt frame len => exact txTimestampCheck_disciplined timestampThread pkt frame len

/-! ### Runs -/

/-- The threads which use the banked registers. -/
abbrev timestampThreads (ThreadId : Type) [DecidableEq ThreadId] :
    System (Lock.Access lan9250 ThreadId TimestampCall) :=
  bankLock.system TimestampCall.body ThreadId

/-- The chip as a transaction finds it. -/
def chipAt {ThreadId : Type} (access : Lock.Access lan9250 ThreadId TimestampCall) : Chip :=
  (access.before.advance access.choice).chip

/-- In its bank the ingress events are shown. -/
theorem bankCaptures_rx {chip : Chip} (bank : chip.bank = bankSelPortRx) :
    chip.bankCaptures = chip.rxCaptures.items := by
  rw [Chip.bankCaptures, if_pos bank]

/-- In its bank the egress events are shown. -/
theorem bankCaptures_tx {chip : Chip} (bank : chip.bank = bankSelPortTx) :
    chip.bankCaptures = chip.txCaptures.items := by
  rw [Chip.bankCaptures, bank, if_neg (by decide), if_pos rfl]

variable {ThreadId : Type} [DecidableEq ThreadId]
  {start finish : bankLock.Threads ThreadId TimestampCall}
  {choices : List (ThreadId × Lock.Turn lan9250 TimestampCall)}
  {accesses : List (Lock.Access lan9250 ThreadId TimestampCall)}

/-- However calls interleave and whichever transactions fail, a banked register is used only
while the bank of its name is selected; so the events it shows are those of the call's own
direction. -/
theorem banked_accesses_in_bank (initially : (timestampThreads ThreadId).Initial start)
    (run : (timestampThreads ThreadId).Run (System.unguarded _) start choices accesses finish) :
    ∀ access ∈ accesses, ∀ address, access.request.register? = some address → Banked address →
      (address, (chipAt access).bank) ∈ access.call.registers ∧
      (address ≠ capInfo → ∀ captures, access.call.captures? = some captures →
        (chipAt access).bankCaptures = captures (chipAt access)) := by
  intro access member address register banked
  have role : bankLock.role access.request = .guarded := by
    cases request : access.request <;>
      simp_all [bankLock, Request.bankRole, Request.register?]
  have selected : (chipAt access).bank = access.before.chip.bank := advance_bank _ _
  have known : (address, (chipAt access).bank) ∈ access.call.registers := selected ▸
    bankLock.accesses_permitted TimestampCall.body timestampCall_disciplined initially run access member role address
      register banked
  refine ⟨known, fun unshared captures own => ?_⟩
  cases timestampCall : access.call with
  | init => simp [timestampCall, TimestampCall.captures?] at own
  | rx pkt pktLen =>
      simp only [timestampCall, TimestampCall.captures?, Option.some.injEq] at own
      simp only [timestampCall, TimestampCall.registers, List.mem_cons, Prod.mk.injEq, unshared,
        false_and, false_or, List.not_mem_nil, or_false] at known
      have bank : (chipAt access).bank = bankSelPortRx := by
        rcases known with ⟨_, bank⟩ | ⟨_, bank⟩ | ⟨_, bank⟩ <;> exact bank
      rw [← own, bankCaptures_rx bank]
  | tx timestampThread pkt frame len =>
      simp only [timestampCall, TimestampCall.captures?, Option.some.injEq] at own
      simp only [timestampCall, TimestampCall.registers, List.mem_cons, Prod.mk.injEq, unshared,
        false_and, false_or, List.not_mem_nil, or_false] at known
      have bank : (chipAt access).bank = bankSelPortTx := by
        rcases known with ⟨_, bank⟩ | ⟨_, bank⟩ | ⟨_, bank⟩ <;> exact bank
      rw [← own, bankCaptures_tx bank]

private def sync5 : MsgKey := ⟨0, 5⟩

/-- A thread goes on with its call. -/
private def goesOn (thread : Bool) (steps : Nat) (choice : Choice) :
    List (Bool × Lock.Turn lan9250 TimestampCall) :=
  List.replicate steps (thread, .go choice)

/-- A transmitted Sync is polled for while a received one waits for the lock; then each gets the
time from the registers of its own bank. -/
theorem both_directions_in_bank : ∃ start choices accesses finish,
    (timestampThreads Bool).Initial start ∧
    (timestampThreads Bool).Run (System.unguarded _) start choices accesses finish ∧
    (accesses.filter fun access => access.request.register? = some rxMsgHeader).map
      (fun access => (access.thread, (chipAt access).bank)) =
      [(false, bankSelPortTx), (true, bankSelPortRx)] ∧
    ∀ access ∈ accesses, ∀ address, access.request.register? = some address → Banked address →
      (address, (chipAt access).bank) ∈ access.call.registers ∧
      (address ≠ capInfo → ∀ captures, access.call.captures? = some captures →
        (chipAt access).bankCaptures = captures (chipAt access)) := by
  let captured : Choice :=
    { Choice.quiet with rxCaptures := [⟨5, 100, 1⟩], txCaptures := [⟨5, 200, 2⟩] }
  let start : bankLock.Threads Bool TimestampCall := ⟨.idle, none, fun _ => none⟩
  have ran : (System.execute (bankLock.step TimestampCall.body) (fun _ _ => true) start
      ([(false, .begin (.tx false 3 (rawFrame sync5) 46)),
          (true, .begin (.rx ⟨7, [rawFrame sync5]⟩ 46))] ++
        goesOn false 4 .quiet ++ goesOn false 10 captured ++ goesOn true 46 .quiet)).map
      (fun (accesses, _) => (accesses.filter fun access => access.request.register? = some rxMsgHeader).map
          fun access => (access.thread, (chipAt access).bank)) =
      some [(false, bankSelPortTx), (true, bankSelPortRx)] := by
    decide +kernel
  obtain ⟨⟨accesses, finish⟩, executed, banks⟩ := Option.map_eq_some_iff.mp ran
  have initially : (timestampThreads Bool).Initial start := ⟨rfl, fun _ => rfl⟩
  have run : (timestampThreads Bool).Run (System.unguarded _) start _ accesses finish :=
    System.unguarded_run_of_execute executed
  exact ⟨start, _, accesses, finish, initially, run, banks, banked_accesses_in_bank initially run⟩

end Rp2350Stepper.Lan9250
