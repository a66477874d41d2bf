import Rp2350Stepper.Lan9250.Station
import Rp2350Stepper.Semantics.Implementation

/-!
# PHY registers used from one thread

A PHY register is reached through two Host MAC registers, and each of these through two more.
Any transaction on the way may fail, and what an access given up half-way has started may still
happen later. It touches no register but its own: a read which succeeds returns the last word
written, whatever has failed for other registers in between. The accesses come one after another:
after the bring-up the interrupt thread alone makes them.
-/

namespace Rp2350Stepper.Lan9250

open Rp2350Stepper.Data Rp2350Stepper.Semantics

/-! ### The accesses as transactions -/

/-- A function over the Host MAC registers, down to the transactions. -/
def onBus {α : Type} (function : MacClient α) : Driver α :=
  ExceptT.mk (function.run.translate macImplementation.body)

/-- Its program is the translated one. -/
theorem run_onBus {α : Type} (function : MacClient α) :
    (onBus function).run = function.run.translate macImplementation.body := rfl

theorem onBus_bind {α β : Type} (first : MacClient α) (next : α → MacClient β) :
    onBus (first >>= next) = onBus first >>= fun value => onBus (next value) := by
  apply ExceptT.ext
  rw [run_onBus, ExceptT.run_bind, ExceptT.run_bind, Program.translate_bind]
  refine congrArg _ (funext fun result => ?_)
  cases result <;> rfl

/-- A read is the driver's. -/
theorem onBus_read (address : MacAddress) : onBus (MacClient.read address) = readMacReg address :=
  ExceptT.ext (Program.bind_done _)

theorem onBus_write (address : MacAddress) (value : Word) :
    onBus (MacClient.write address value) = writeMacReg address value :=
  ExceptT.ext (Program.bind_done _)

/-- A program which cannot fail. -/
theorem onBus_lift {α : Type} (program : Program macCalls α) :
    onBus (liftM program) = liftM (program.translate macImplementation.body) := by
  apply ExceptT.ext
  exact Program.translate_bind _ program _

/-- `lan9250_read_phy_reg`, down to the transactions. -/
def phyRead (address : BitVec 8) : Driver (BitVec 16) := onBus (readPhyReg address)

/-- `lan9250_write_phy_reg`, down to the transactions. -/
def phyWrite (address : BitVec 8) (data : BitVec 16) : Driver Unit := onBus (writePhyReg address data)

/-! ### Waiting for the PHY -/

/-- No PHY access is under way. -/
def Mii.Free (mii : Mii) : Prop := mii.registers hmacMiiAcc &&& miiAccMiibzy = 0

/-- A free unit does nothing. -/
theorem Mii.operate_of_free {mii : Mii} (free : mii.Free) : mii.operate = mii := if_pos free

section Accesses

variable {volatile : PhyAddress → Prop} {station : Station} {α β : Type}

theorem Timely.onBus_bind {first : MacClient α} {next : α → MacClient β}
    {after : Except Errno β → Station → Prop}
    (timely : Timely volatile (onBus first).run station fun result middle =>
      match result with
      | .ok value => Timely volatile (onBus (next value)).run middle after
      | .error error => after (.error error) middle) :
    Timely volatile (onBus (first >>= next)).run station after := by
  rw [Lan9250.onBus_bind]
  exact Timely.run_bind timely

/-- A call which cannot fail. -/
theorem Timely.onBus_ask {made : MacCall} {post : Except Errno made.Result → Station → Prop}
    (timely : Timely volatile (macImplementation.body made) station fun value next =>
      post (.ok value) next) :
    Timely volatile (onBus (liftM (MacClient.ask made))).run station post := by
  have single : (MacClient.ask made).translate macImplementation.body = macImplementation.body made :=
    Program.bind_done _
  rw [onBus_lift, single]
  exact Timely.run_lift timely

variable {holds : Option (MacAddress × Word) → Mii → Prop}

/-- How a wait for the PHY ends. -/
def PhyWaited (holds : Option (MacAddress × Word) → Mii → Prop) (result : Except Errno Unit)
    (next : Station) : Prop :=
  holds next.waiting next.mii ∧ (result = .ok () → next.waiting = none ∧ next.mii.Free)

/-- What has been read from `HMAC_MII_ACC` once the PHY is done stays true. -/
theorem stable_shownFree (value : Word) : Stable volatile fun waiting mii =>
    value &&& miiAccMiibzy = 0 → waiting = none ∧ mii.Free where
  store here free := by
    have impossible := (here free).1
    cases impossible
  operate here free := by
    obtain ⟨stored, done⟩ := here free
    rw [Mii.operate_of_free done]
    exact ⟨stored, done⟩
  change _ _ here := here

/-- One round of waiting finds the unit free, sleeps, or fails. -/
private theorem timely_waitMacReady_round (stable : Stable volatile holds) {deadline : Int}
    {rounds : Nat} (here : holds station.waiting station.mii)
    (continues : ∀ next, holds next.waiting next.mii → station.uptime < deadline →
      station.uptime + 1 ≤ next.uptime →
      Timely volatile (onBus (waitMacReadyLoop hmacMiiAcc miiAccMiibzy 0 deadline rounds)).run next
        (PhyWaited holds)) :
    Timely volatile (onBus (waitMacReadyLoop hmacMiiAcc miiAccMiibzy 0 deadline (rounds + 1))).run
      station (PhyWaited holds) := by
  unfold waitMacReadyLoop
  have goesOn : ∀ read : Station, station.uptime ≤ read.uptime → holds read.waiting read.mii →
      Timely volatile (onBus (do
        let now ← MacClient.ask .uptimeGet
        if deadline ≤ now then throw .eio
        MacClient.ask (.sleep 1)
        waitMacReadyLoop hmacMiiAcc miiAccMiibzy 0 deadline rounds : MacClient Unit)).run read
          (PhyWaited holds) := by
    intro read later kept
    apply Timely.onBus_bind
    apply Timely.onBus_ask
    apply (timely_uptimeGet stable.lasting kept).later.weaken
    rintro now timed ⟨later', kept, rfl⟩
    simp only
    split
    · exact Timely.done ⟨kept, by simp⟩
    · apply Timely.onBus_bind
      apply Timely.onBus_ask
      apply (timely_sleep stable.lasting kept).weaken
      rintro _ waited ⟨kept, later''⟩
      exact continues waited kept (by omega) (by omega)
  apply Timely.onBus_bind
  have reading : (onBus (ExceptT.lift (MacClient.read hmacMiiAcc).run : MacClient _)).run =
      (attempt (readMacReg hmacMiiAcc)).run := by
    rw [← onBus_read]
    exact Program.translate_bind _ _ _
  rw [reading]
  apply Timely.attempt
  apply (timely_readMacReg stable stable_shownFree ?_ here).later.weaken
  · rintro result read ⟨later, kept, shown⟩
    cases result with
    | error => exact goesOn read later kept
    | ok value =>
        simp only
        obtain ⟨free, stored⟩ := shown value rfl
        split
        · rename_i ready
          exact Timely.done ⟨kept, fun _ => ⟨stored, (free ready).2⟩⟩
        · exact goesOn read later kept
  · exact fun mii _ free => ⟨rfl, free⟩

private theorem timely_waitMacReadyLoop (stable : Stable volatile holds) (deadline : Int)
    (rounds : Nat) (station : Station) (here : holds station.waiting station.mii)
    (enough : deadline ≤ station.uptime + rounds) :
    Timely volatile (onBus (waitMacReadyLoop hmacMiiAcc miiAccMiibzy 0 deadline (rounds + 1))).run
      station (PhyWaited holds) := by
  induction rounds generalizing station with
  | zero =>
      apply timely_waitMacReady_round stable here
      intro next _ early _
      omega
  | succ rounds inductionHypothesis =>
      apply timely_waitMacReady_round stable here
      intro next kept _ later
      exact inductionHypothesis next kept (by omega)

/-- Waiting for the PHY ends, and at a success neither a write command nor a PHY access is under
way. -/
theorem timely_waitMacReady (stable : Stable volatile holds) (milliseconds : Nat)
    (here : holds station.waiting station.mii) :
    Timely volatile (onBus (waitMacReady hmacMiiAcc miiAccMiibzy 0 milliseconds)).run station
      (PhyWaited holds) := by
  unfold waitMacReady
  apply Timely.onBus_bind
  apply Timely.onBus_ask
  apply (timely_uptimeGet stable.lasting here).weaken
  rintro now next ⟨kept, rfl⟩
  exact timely_waitMacReadyLoop stable _ _ _ kept (le_refl _)

end Accesses

/-! ### What is known of the registers -/

/-- Bits which have been set are set. -/
theorem or_and_cancel (value mask : Word) : (value ||| mask) &&& mask = mask := by
  ext index within
  simp only [BitVec.getElem_and, BitVec.getElem_or]
  cases value[index] <;> cases mask[index] <;> rfl

/-- The busy bit is set. -/
theorem busy_or (value : Word) : (value ||| miiAccMiibzy) &&& miiAccMiibzy ≠ 0 := by
  rw [or_and_cancel]
  decide

/-- It does not make a read a write. -/
theorem writes_or (value : Word) : (value ||| miiAccMiibzy) &&& miiAccMiiwR = value &&& miiAccMiiwR := by
  rw [BitVec.and_or_distrib_right]
  have apart : miiAccMiibzy &&& miiAccMiiwR = 0#32 := by decide
  rw [apart, BitVec.or_zero]

theorem miiIndex_or (value : Word) : miiIndex (value ||| miiAccMiibzy) = miiIndex value := by
  have shifted : miiAccMiibzy >>> 6 = 0#32 := by decide
  rw [miiIndex, miiIndex, BitVec.ushiftRight_or_distrib, shifted, BitVec.or_zero]

/-- The unit clears it. -/
theorem free_clear (value : Word) : value &&& ~~~miiAccMiibzy &&& miiAccMiibzy = 0 := by
  rw [BitVec.and_assoc]
  simp [miiAccMiibzy]

/-- The fields of every command, by their 256 values. -/
private theorem miiAccess_decided : ∀ address : Fin 256,
    (miiAccess (.ofFin address) &&& miiAccMiiwR = 0 ∧
      miiIndex (miiAccess (.ofFin address)) = (BitVec.ofFin address : BitVec 8).setWidth 5) ∧
    (miiAccess (.ofFin address) ||| miiAccMiiwR) &&& miiAccMiiwR ≠ 0 ∧
      miiIndex (miiAccess (.ofFin address) ||| miiAccMiiwR) = (BitVec.ofFin address : BitVec 8).setWidth 5 := by
  decide +kernel

/-- The word which starts a read of a PHY register. -/
theorem miiAccess_fields (address : BitVec 8) : miiAccess address &&& miiAccMiiwR = 0 ∧
    miiIndex (miiAccess address) = address.setWidth 5 :=
  (miiAccess_decided address.toFin).1

/-- The word which starts a write. -/
theorem miiAccess_writes (address : BitVec 8) :
    (miiAccess address ||| miiAccMiiwR) &&& miiAccMiiwR ≠ 0 ∧
      miiIndex (miiAccess address ||| miiAccMiiwR) = address.setWidth 5 :=
  (miiAccess_decided address.toFin).2

/-- What some PHY registers and some Host MAC registers hold, and nothing under way will
change. -/
structure Holding (phy : PhyAddress → Option (BitVec 16)) (mac : MacAddress → Option Word)
    (waiting : Option (MacAddress × Word)) (mii : Mii) : Prop where
  phyHolds : ∀ address value, phy address = some value → mii.phy address = value
  macHolds : ∀ address value, mac address = some value → mii.registers address = value
  ownAcc : mac hmacMiiAcc = none
  ownData : mac hmacMiiData = none
  stores : ∀ address value, waiting = some (address, value) → mac address = none
  running : mii.registers hmacMiiAcc &&& miiAccMiibzy ≠ 0 →
    mii.registers hmacMiiAcc &&& miiAccMiiwR ≠ 0 → phy (miiIndex (mii.registers hmacMiiAcc)) = none
  starts : ∀ value, waiting = some (hmacMiiAcc, value) → value &&& miiAccMiiwR ≠ 0 →
    phy (miiIndex value) = none

section Holding

variable {volatile : PhyAddress → Prop} {phy phy' : PhyAddress → Option (BitVec 16)}
  {mac mac' : MacAddress → Option Word}

/-- Nothing is known. -/
theorem Holding.unknown (waiting : Option (MacAddress × Word)) (mii : Mii) :
    Holding (fun _ => none) (fun _ => none) waiting mii where
  phyHolds := by simp
  macHolds := by simp
  ownAcc := rfl
  ownData := rfl
  stores _ _ _ := rfl
  running _ _ := rfl
  starts _ _ _ := rfl

/-- Less is known. -/
theorem Holding.weaken {waiting : Option (MacAddress × Word)} {mii : Mii}
    (holding : Holding phy mac waiting mii) (fewer : ∀ address, phy' address = phy address ∨
      phy' address = none) (fewer' : ∀ address, mac' address = mac address ∨ mac' address = none) :
    Holding phy' mac' waiting mii := by
  have phyKnown {address value} (known : phy' address = some value) : phy address = some value := by
    rcases fewer address with same | unknown
    · exact same ▸ known
    · simp [unknown] at known
  have phyUnknown {address} (unknown : phy address = none) : phy' address = none := by
    rcases fewer address with same | unknown'
    · exact same.trans unknown
    · exact unknown'
  have macUnknown {address} (unknown : mac address = none) : mac' address = none := by
    rcases fewer' address with same | unknown'
    · exact same.trans unknown
    · exact unknown'
  refine ⟨fun address value known => holding.phyHolds address value (phyKnown known), ?_,
    macUnknown holding.ownAcc, macUnknown holding.ownData,
    fun address value stored => macUnknown (holding.stores address value stored),
    fun busy writes => phyUnknown (holding.running busy writes),
    fun value stored writes => phyUnknown (holding.starts value stored writes)⟩
  intro address value known
  rcases fewer' address with same | unknown
  · exact holding.macHolds address value (same ▸ known)
  · simp [unknown] at known

/-- The chip by itself changes none of it. -/
theorem stable_holding (steady : ∀ address, phy address ≠ none → ¬volatile address) :
    Stable volatile (Holding phy mac) where
  store {address value mii} holding := by
    have other {held word} (known : mac held = some word) : held ≠ address := by
      rintro rfl
      simp [holding.stores held value rfl] at known
    refine ⟨holding.phyHolds, ?_, holding.ownAcc, holding.ownData, by simp, ?_, by simp⟩
    · intro held word known
      simp only [Mii.store, Function.update_of_ne (other known)]
      exact holding.macHolds held word known
    · by_cases acc : address = hmacMiiAcc
      · subst acc
        simp only [Mii.store, Function.update_self, if_true, writes_or, miiIndex_or]
        exact fun _ writes => holding.starts value rfl writes
      · simp only [Mii.store, Function.update_of_ne (Ne.symm acc)]
        exact holding.running
  operate {waiting mii} holding := by
    have apart : hmacMiiData ≠ hmacMiiAcc := by decide
    unfold Mii.operate
    simp only
    split
    · exact holding
    · rename_i busy
      have others {held word} (known : mac held = some word) :
          held ≠ hmacMiiAcc ∧ held ≠ hmacMiiData := by
        constructor
        · rintro rfl
          simp [holding.ownAcc] at known
        · rintro rfl
          simp [holding.ownData] at known
      split
      · refine ⟨holding.phyHolds, ?_, holding.ownAcc, holding.ownData, holding.stores, ?_,
          holding.starts⟩
        · intro held word known
          simp only [Function.update_of_ne (others known).1, Function.update_of_ne (others known).2]
          exact holding.macHolds held word known
        · simp only [Function.update_of_ne (Ne.symm apart), Function.update_self]
          exact fun busy => absurd (free_clear _) busy
      · rename_i writes
        have unknown := holding.running busy writes
        refine ⟨?_, ?_, holding.ownAcc, holding.ownData, holding.stores, ?_, holding.starts⟩
        · intro held word known
          have other : held ≠ miiIndex (mii.registers hmacMiiAcc) := by
            rintro rfl
            simp [unknown] at known
          simp only [Function.update_of_ne other]
          exact holding.phyHolds held word known
        · intro held word known
          simp only [Function.update_of_ne (others known).1]
          exact holding.macHolds held word known
        · simp only [Function.update_self]
          exact fun busy => absurd (free_clear _) busy
  change {waiting mii address} value changes holding := by
    refine ⟨?_, holding.macHolds, holding.ownAcc, holding.ownData, holding.stores, holding.running,
      holding.starts⟩
    intro held word known
    have other : held ≠ address := by
      rintro rfl
      exact steady held (by simp [known]) changes
    simp only [Mii.change, Function.update_of_ne other]
    exact holding.phyHolds held word known

/-! ### An access -/

/-- A write command of the MAC which changes no known register. -/
private theorem holding_issue {address : MacAddress} {value : Word} {mii : Mii}
    (holding : Holding phy mac none mii) (unknown : mac address = none)
    (harmless : address = hmacMiiAcc → value &&& miiAccMiiwR ≠ 0 → phy (miiIndex value) = none) :
    Holding phy mac (some (address, value)) mii := by
  refine ⟨holding.phyHolds, holding.macHolds, holding.ownAcc, holding.ownData, ?_, holding.running, ?_⟩
  · rintro stored word same
    obtain ⟨rfl, -⟩ := Prod.mk.inj (Option.some.inj same)
    exact unknown
  · rintro word same
    obtain ⟨rfl, rfl⟩ := Prod.mk.inj (Option.some.inj same)
    exact harmless rfl

/-- A read of a PHY register has been started, or is done. -/
structure PhyReading (phy : PhyAddress → Option (BitVec 16)) (mac : MacAddress → Option Word)
    (address : BitVec 8) (waiting : Option (MacAddress × Word)) (mii : Mii) : Prop where
  kept : Holding phy mac waiting mii
  step : waiting = some (hmacMiiAcc, miiAccess address) ∨
    waiting = none ∧ (mii.registers hmacMiiAcc = miiAccess address ||| miiAccMiibzy ∨
      mii.Free ∧ ∀ value, phy (address.setWidth 5) = some value →
        mii.registers hmacMiiData = value.setWidth 32)

/-- A read under way stays so, or is done. -/
theorem stable_reading (steady : ∀ address, phy address ≠ none → ¬volatile address)
    (address : BitVec 8) : Stable volatile (PhyReading phy mac address) where
  store {stored value mii} reading := by
    refine ⟨(stable_holding steady).store reading.kept, .inr ⟨rfl, .inl ?_⟩⟩
    rcases reading.step with same | ⟨impossible, _⟩
    · obtain ⟨rfl, rfl⟩ := Prod.mk.inj (Option.some.inj same)
      simp [Mii.store]
    · cases impossible
  operate {waiting mii} reading := by
    refine ⟨(stable_holding steady).operate reading.kept, ?_⟩
    rcases reading.step with issued | ⟨stored, started | ⟨free, fetched⟩⟩
    · exact .inl issued
    · obtain ⟨reads, index⟩ := miiAccess_fields address
      refine .inr ⟨stored, .inr ?_⟩
      have apart : hmacMiiData ≠ hmacMiiAcc := by decide
      unfold Mii.operate Mii.Free
      simp only [started, if_neg (busy_or _), writes_or, reads, if_true, miiIndex_or, index,
        Function.update_self, Function.update_of_ne (Ne.symm apart)]
      exact ⟨free_clear _, fun value known => by rw [reading.kept.phyHolds _ value known]⟩
    · rw [Mii.operate_of_free free]
      exact .inr ⟨stored, .inr ⟨free, fetched⟩⟩
  change {waiting mii changed} value changes reading :=
    ⟨(stable_holding steady).change value changes reading.kept, reading.step⟩

/-- The read is done. -/
structure PhyFetched (phy : PhyAddress → Option (BitVec 16)) (mac : MacAddress → Option Word)
    (address : BitVec 8) (waiting : Option (MacAddress × Word)) (mii : Mii) : Prop where
  kept : Holding phy mac waiting mii
  stored : waiting = none
  free : mii.Free
  fetched : ∀ value, phy (address.setWidth 5) = some value →
    mii.registers hmacMiiData = value.setWidth 32

/-- Once the unit is free the read is done. -/
theorem PhyReading.fetched {address : BitVec 8} {waiting : Option (MacAddress × Word)} {mii : Mii}
    (reading : PhyReading phy mac address waiting mii) (stored : waiting = none) (free : mii.Free) :
    PhyFetched phy mac address waiting mii := by
  refine ⟨reading.kept, stored, free, ?_⟩
  rcases reading.step with issued | ⟨_, started | ⟨_, fetched⟩⟩
  · cases stored.symm.trans issued
  · rw [Mii.Free, started] at free
    exact absurd free (busy_or _)
  · exact fetched

/-- What it has fetched stays. -/
theorem stable_fetched (steady : ∀ address, phy address ≠ none → ¬volatile address)
    (address : BitVec 8) : Stable volatile (PhyFetched phy mac address) where
  store fetched := by
    have impossible := fetched.stored
    cases impossible
  operate {waiting mii} fetched := by
    rw [Mii.operate_of_free fetched.free]
    exact fetched
  change value changes fetched :=
    ⟨(stable_holding steady).change value changes fetched.kept, fetched.stored, fetched.free,
      fetched.fetched⟩

variable {station : Station}

/-- `lan9250_read_phy_reg` changes nothing known, and returns what its register is known to
hold. -/
theorem timely_phyRead (steady : ∀ address, phy address ≠ none → ¬volatile address)
    (address : BitVec 8) (here : Holding phy mac station.waiting station.mii) :
    Timely volatile (phyRead address).run station fun result next =>
      Holding phy mac next.waiting next.mii ∧
        ∀ value, result = .ok value → ∀ known, phy (address.setWidth 5) = some known →
          value = known := by
  have stable : Stable volatile (Holding phy mac) := stable_holding steady
  unfold phyRead readPhyReg
  apply Timely.onBus_bind
  apply (timely_waitMacReady stable phyTimeout here).weaken
  rintro result ready ⟨kept, free⟩
  cases result with
  | error error => exact ⟨kept, by simp⟩
  | ok _ =>
      apply Timely.onBus_bind
      rw [onBus_write]
      apply (timely_writeMacReg (PhyReading phy mac address) stable
        (stable_reading steady address) ?_ kept).weaken
      · rintro result started ⟨reading, either⟩
        have known : Holding phy mac started.waiting started.mii := by
          rcases either with kept | reading
          · exact kept
          · exact reading.kept
        cases result with
        | error error => exact ⟨known, by simp⟩
        | ok _ =>
            obtain ⟨stored, reading⟩ := reading rfl
            apply Timely.onBus_bind
            apply (timely_waitMacReady (stable_reading steady address) phyTimeout
              (stored ▸ reading)).weaken
            rintro result done ⟨reading, free⟩
            cases result with
            | error error => exact ⟨reading.kept, by simp⟩
            | ok _ =>
                obtain ⟨stored, free⟩ := free rfl
                apply Timely.onBus_bind
                rw [onBus_read]
                have shows (value : Word) : Stable volatile fun _ _ => ∀ known,
                    phy (address.setWidth 5) = some known → value = known.setWidth 32 :=
                  ⟨fun here => here, fun here => here, fun _ _ here => here⟩
                apply (timely_readMacReg (stable_fetched steady address) shows
                  (fun _ fetched => fetched.fetched) (reading.fetched stored free)).weaken
                rintro result read ⟨fetched, shown⟩
                cases result with
                | error error => exact ⟨fetched.kept, by simp⟩
                | ok word =>
                    refine Timely.done ⟨fetched.kept, ?_⟩
                    intro value same known holds
                    obtain rfl := Except.ok.inj same
                    rw [(shown word rfl).1 known holds]
                    exact BitVec.setWidth_setWidth_of_le _ (by decide)
      · intro mii holding
        refine ⟨holding_issue holding holding.ownAcc ?_, .inl rfl⟩
        exact fun _ writes => absurd (miiAccess_fields address).1 writes

/-- The data word of a PHY write has been stored in `HMAC_MII_DATA`, or is about to be. -/
structure PhyLoading (phy : PhyAddress → Option (BitVec 16)) (mac : MacAddress → Option Word)
    (data : BitVec 16) (waiting : Option (MacAddress × Word)) (mii : Mii) : Prop where
  kept : Holding phy mac waiting mii
  free : mii.Free
  step : waiting = some (hmacMiiData, data.setWidth 32) ∨
    waiting = none ∧ mii.registers hmacMiiData = data.setWidth 32

/-- A loaded word stays loaded. -/
theorem stable_loading (steady : ∀ address, phy address ≠ none → ¬volatile address)
    (data : BitVec 16) : Stable volatile (PhyLoading phy mac data) where
  store {stored value mii} loading := by
    have apart : hmacMiiData ≠ hmacMiiAcc := by decide
    rcases loading.step with same | ⟨impossible, _⟩
    · obtain ⟨rfl, rfl⟩ := Prod.mk.inj (Option.some.inj same)
      refine ⟨(stable_holding steady).store loading.kept, ?_, .inr ⟨rfl, ?_⟩⟩
      · simp only [Mii.Free, Mii.store, Function.update_of_ne (Ne.symm apart)]
        exact loading.free
      · simp only [Mii.store, Function.update_self, if_neg apart]
    · cases impossible
  operate {waiting mii} loading := by
    rw [Mii.operate_of_free loading.free]
    exact loading
  change value changes loading :=
    ⟨(stable_holding steady).change value changes loading.kept, loading.free, loading.step⟩

/-- A write of a PHY register has been started, or is done. -/
structure PhyWriting (volatile : PhyAddress → Prop) (phy : PhyAddress → Option (BitVec 16))
    (mac : MacAddress → Option Word) (address : BitVec 8) (data : BitVec 16)
    (waiting : Option (MacAddress × Word)) (mii : Mii) : Prop where
  kept : Holding phy mac waiting mii
  step : waiting = some (hmacMiiAcc, miiAccess address ||| miiAccMiiwR) ∧ mii.Free ∧
      mii.registers hmacMiiData = data.setWidth 32 ∨
    waiting = none ∧ (mii.registers hmacMiiAcc = miiAccess address ||| miiAccMiiwR ||| miiAccMiibzy ∧
        mii.registers hmacMiiData = data.setWidth 32 ∨
      mii.Free ∧ (¬volatile (address.setWidth 5) → mii.phy (address.setWidth 5) = data))

/-- A write under way stays so, or is done. -/
theorem stable_writing (steady : ∀ address, phy address ≠ none → ¬volatile address)
    (address : BitVec 8) (data : BitVec 16) :
    Stable volatile (PhyWriting volatile phy mac address data) where
  store {stored value mii} writing := by
    have apart : hmacMiiData ≠ hmacMiiAcc := by decide
    refine ⟨(stable_holding steady).store writing.kept, .inr ⟨rfl, .inl ?_⟩⟩
    rcases writing.step with ⟨same, _, loaded⟩ | ⟨impossible, _⟩
    · obtain ⟨rfl, rfl⟩ := Prod.mk.inj (Option.some.inj same)
      simp only [Mii.store, Function.update_self, if_true, Function.update_of_ne apart, true_and]
      exact loaded
    · cases impossible
  operate {waiting mii} writing := by
    refine ⟨(stable_holding steady).operate writing.kept, ?_⟩
    have apart : hmacMiiData ≠ hmacMiiAcc := by decide
    obtain ⟨writes, index⟩ := miiAccess_writes address
    rcases writing.step with ⟨issued, free, loaded⟩ | ⟨stored, ⟨started, loaded⟩ | ⟨free, done⟩⟩
    · rw [Mii.operate_of_free free]
      exact .inl ⟨issued, free, loaded⟩
    · refine .inr ⟨stored, .inr ?_⟩
      unfold Mii.operate Mii.Free
      simp only [started, if_neg (busy_or _), writes_or, if_neg writes, miiIndex_or, index,
        Function.update_self, loaded]
      exact ⟨free_clear _, fun _ => BitVec.setWidth_setWidth_of_le _ (by decide)⟩
    · rw [Mii.operate_of_free free]
      exact .inr ⟨stored, .inr ⟨free, done⟩⟩
  change {waiting mii changed} value changes writing := by
    refine ⟨(stable_holding steady).change value changes writing.kept, ?_⟩
    rcases writing.step with issued | ⟨stored, started | ⟨free, done⟩⟩
    · exact .inl issued
    · exact .inr ⟨stored, .inl started⟩
    · refine .inr ⟨stored, .inr ⟨free, fun still => ?_⟩⟩
      have other : address.setWidth 5 ≠ changed := by
        rintro rfl
        exact still changes
      simp only [Mii.change, Function.update_of_ne other]
      exact done still

/-- The write is done. -/
theorem PhyWriting.written {address : BitVec 8} {data : BitVec 16}
    {waiting : Option (MacAddress × Word)} {mii : Mii}
    (writing : PhyWriting volatile phy mac address data waiting mii) (stored : waiting = none)
    (free : mii.Free) (still : ¬volatile (address.setWidth 5)) :
    Holding (Function.update phy (address.setWidth 5) (some data)) mac waiting mii := by
  have done : mii.phy (address.setWidth 5) = data := by
    rcases writing.step with ⟨issued, _⟩ | ⟨_, ⟨started, _⟩ | ⟨_, done⟩⟩
    · cases stored.symm.trans issued
    · rw [Mii.Free, started] at free
      exact absurd free (busy_or _)
    · exact done still
  have kept := writing.kept
  refine ⟨?_, kept.macHolds, kept.ownAcc, kept.ownData, kept.stores,
    fun busy => absurd free busy, fun value issued => by cases stored.symm.trans issued⟩
  intro held value known
  by_cases own : held = address.setWidth 5
  · subst own
    rw [Function.update_self] at known
    exact done.trans (Option.some.inj known)
  · rw [Function.update_of_ne own] at known
    exact kept.phyHolds held value known

/-- `lan9250_write_phy_reg` leaves its register unknown when it fails, and holding its word when
it succeeds; every other register keeps what it holds. -/
theorem timely_phyWrite (steady : ∀ address, phy address ≠ none → ¬volatile address)
    (address : BitVec 8) (data : BitVec 16) (here : Holding phy mac station.waiting station.mii) :
    Timely volatile (phyWrite address data).run station fun result next =>
      Holding (Function.update phy (address.setWidth 5) none) mac next.waiting next.mii ∧
        (result = .ok () → ¬volatile (address.setWidth 5) →
          Holding (Function.update phy (address.setWidth 5) (some data)) mac next.waiting
            next.mii) := by
  have steady' : ∀ held, Function.update phy (address.setWidth 5) none held ≠ none →
      ¬volatile held := by
    intro held known
    by_cases own : held = address.setWidth 5
    · simp [own] at known
    · rw [Function.update_of_ne own] at known
      exact steady held known
  have forgotten : Holding (Function.update phy (address.setWidth 5) none) mac station.waiting
      station.mii := by
    refine here.weaken (fun held => ?_) fun _ => .inl rfl
    by_cases own : held = address.setWidth 5
    · exact .inr (own ▸ Function.update_self ..)
    · exact .inl (Function.update_of_ne own ..)
  have unchanged : Function.update (Function.update phy (address.setWidth 5) none)
      (address.setWidth 5) (some data) = Function.update phy (address.setWidth 5) (some data) :=
    Function.update_idem ..
  have unknown : Function.update phy (address.setWidth 5) none (address.setWidth 5) = none :=
    Function.update_self ..
  generalize Function.update phy (address.setWidth 5) none = phy' at *
  rw [← unchanged]
  clear here steady unchanged
  unfold phyWrite writePhyReg
  apply Timely.onBus_bind
  apply (timely_waitMacReady (stable_holding steady') phyTimeout forgotten).weaken
  rintro result ready ⟨kept, free⟩
  cases result with
  | error error => exact ⟨kept, by simp⟩
  | ok _ =>
      obtain ⟨stored, free⟩ := free rfl
      -- Once the PHY has been seen free it stays so until an access is started.
      have quiet : Stable volatile fun waiting mii =>
          Holding phy' mac waiting mii ∧ waiting = none ∧ mii.Free := by
        refine ⟨?_, ?_, ?_⟩
        · rintro address value mii ⟨_, impossible, _⟩
          cases impossible
        · rintro waiting mii ⟨kept, stored, free⟩
          rw [Mii.operate_of_free free]
          exact ⟨kept, stored, free⟩
        · rintro waiting mii changed value changes ⟨kept, stored, free⟩
          exact ⟨(stable_holding steady').change value changes kept, stored, free⟩
      apply Timely.onBus_bind
      rw [onBus_write]
      apply (timely_writeMacReg (PhyLoading phy' mac data) quiet
        (stable_loading steady' data) ?_ ⟨kept, stored, free⟩).weaken
      · rintro result loaded ⟨loading, either⟩
        have known : Holding phy' mac loaded.waiting loaded.mii := by
          rcases either with ⟨kept, _⟩ | loading
          · exact kept
          · exact loading.kept
        cases result with
        | error error => exact ⟨known, by simp⟩
        | ok _ =>
            obtain ⟨stored, loading⟩ := loading rfl
            apply Timely.onBus_bind
            rw [onBus_write]
            apply (timely_writeMacReg (PhyWriting volatile phy' mac address data)
              (stable_loading steady' data) (stable_writing steady' address data) ?_
              (stored ▸ loading)).weaken
            · rintro result started ⟨writing, either⟩
              have known : Holding phy' mac started.waiting started.mii := by
                rcases either with loading | writing
                · exact loading.kept
                · exact writing.kept
              cases result with
              | error error => exact ⟨known, by simp⟩
              | ok _ =>
                  obtain ⟨stored, writing⟩ := writing rfl
                  apply (timely_waitMacReady (stable_writing steady' address data) phyTimeout
                    (stored ▸ writing)).weaken
                  rintro result done ⟨writing, free⟩
                  refine ⟨writing.kept, fun succeeded still => ?_⟩
                  obtain ⟨stored, free⟩ := free succeeded
                  exact writing.written stored free still
            · intro mii loading
              refine ⟨holding_issue loading.kept loading.kept.ownAcc ?_, .inl ⟨rfl, loading.free, ?_⟩⟩
              · intro _ _
                rw [(miiAccess_writes address).2]
                exact unknown
              · rcases loading.step with issued | ⟨_, loaded⟩
                · cases issued
                · exact loaded
      · rintro mii ⟨kept, _, free⟩
        refine ⟨holding_issue kept kept.ownData ?_, free, .inl rfl⟩
        exact fun impossible => absurd impossible (by decide)

end Holding

/-! ### Runs -/

/-- What the thread calls. -/
inductive PhyCall where
  | read (address : BitVec 8)
  | write (address : BitVec 8) (data : BitVec 16)
deriving DecidableEq

/-- What a call returns: the value of a read. -/
def PhyCall.body : PhyCall → Code (Except Errno (Option (BitVec 16)))
  | .read address => (some <$> phyRead address).run
  | .write address data => ((fun _ => none) <$> phyWrite address data).run

/-- A finished access. -/
abbrev PhyEvent := Device.Finished stationDevice PhyCall (Except Errno (Option (BitVec 16)))

/-- The word which a register has been given last, unless a later write of it has failed: what a
call makes of it, and what a history does. -/
def writtenBy (address : PhyAddress) (last : Option (BitVec 16)) :
    PhyCall → Except Errno (Option (BitVec 16)) → Option (BitVec 16)
  | .read _, _ => last
  | .write written data, result =>
      if written.setWidth 5 = address then result.toOption.map fun _ => data else last

/-- The word a register has been given last, if it is known. -/
def lastWritten (address : PhyAddress) (events : List PhyEvent) : Option (BitVec 16) :=
  events.foldl (fun last event => writtenBy address last event.call event.result) none

/-- Accesses one after the other, from any state of the chip. -/
abbrev phyCalls (volatile : PhyAddress → Prop) : System PhyEvent :=
  stationDevice.calls (Steady volatile) (fun _ => True) PhyCall.body

section Runs

variable {volatile : PhyAddress → Prop} {station : Station} {register : PhyAddress}
  {last : Option (BitVec 16)}

/-- The result is changed on success. -/
theorem Timely.run_map {α β : Type} {program : Driver α} {change : α → β}
    {post : Except Errno β → Station → Prop}
    (timely : Timely volatile program.run station fun result next => post (result.map change) next) :
    Timely volatile (change <$> program).run station post := by
  rw [ExceptT.run_map, map_eq_pure_bind]
  exact (timely.weaken fun result next holds => Timely.done holds).bind

/-- What is known of one register. -/
def Tracked (register : PhyAddress) (last : Option (BitVec 16)) (station : Station) : Prop :=
  Holding (Function.update (fun _ => none) register last) (fun _ => none) station.waiting station.mii

/-- Only the tracked register is known. -/
private theorem steady_tracked (last : Option (BitVec 16)) (still : ¬volatile register)
    (address : PhyAddress) (known : Function.update (fun _ => none) register last address ≠ none) :
    ¬volatile address := by
  by_cases own : address = register
  · exact own ▸ still
  · simp [Function.update_of_ne own] at known

/-- One call returns; a read of the register returns what is known of it. -/
theorem timely_phyCall (still : ¬volatile register) (made : PhyCall)
    (here : Tracked register last station) :
    Timely volatile made.body station fun result next =>
      Tracked register (writtenBy register last made result) next ∧
        ∀ address, made = .read address → address.setWidth 5 = register →
          ∀ value, result = .ok (some value) → ∀ written, last = some written → value = written := by
  have steady := steady_tracked last still
  cases made with
  | read address =>
      apply Timely.run_map
      apply (timely_phyRead steady address here).weaken
      rintro result next ⟨kept, shown⟩
      refine ⟨kept, ?_⟩
      rintro _ ⟨⟩ rfl value returned written rfl
      cases result with
      | error error => cases returned
      | ok word =>
          obtain rfl := Option.some.inj (Except.ok.inj returned)
          exact shown word rfl written (Function.update_self ..)
  | write address data =>
      apply Timely.run_map
      apply (timely_phyWrite steady address data here).weaken
      rintro result next ⟨forgotten, holds⟩
      refine ⟨?_, fun _ impossible => by cases impossible⟩
      unfold Tracked writtenBy
      simp only
      split
      · rename_i own
        subst own
        cases result with
        | error error =>
            rw [Function.update_idem] at forgotten
            exact forgotten
        | ok _ =>
            have holds := holds rfl still
            rw [Function.update_idem] at holds
            exact holds
      · rename_i other
        refine forgotten.weaken (fun held => .inl ?_) fun _ => .inl rfl
        by_cases own : held = address.setWidth 5
        · subst own
          rw [Function.update_self, Function.update_of_ne other]
        · rw [Function.update_of_ne own]

end Runs

/-- A read which succeeds returns the word its register has been given last. -/
def ReadsLatest (volatile : PhyAddress → Prop) (before : List PhyEvent) (event : PhyEvent) : Prop :=
  ∀ address value written, event.call = .read address → event.result = .ok (some value) →
    ¬volatile (address.setWidth 5) → lastWritten (address.setWidth 5) before = some written →
    value = written

/-- In every run of accesses it holds the word it has been given last. -/
private theorem tracked_of_run {volatile : PhyAddress → Prop} {register : PhyAddress}
    (still : ¬volatile register) {start finish : Station} {calls : List (PhyCall × List StationChoice)}
    {events : List PhyEvent}
    (run : (phyCalls volatile).Run (phyCalls volatile).unguarded start calls events finish) :
    Tracked register (lastWritten register events) finish ∧ Recorded (fun before event =>
      ∀ address, event.call = .read address → address.setWidth 5 = register →
        ∀ value, event.result = .ok (some value) → ∀ written,
          lastWritten register before = some written → value = written) events := by
  refine run.invariant (fun station events => Tracked register (lastWritten register events) station ∧
    Recorded (fun before event =>
      ∀ address, event.call = .read address → address.setWidth 5 = register →
        ∀ value, event.result = .ok (some value) → ∀ written,
          lastWritten register before = some written → value = written) events)
    ⟨?_, Recorded.nil⟩ ?_
  · refine (Holding.unknown _ _).weaken (fun _ => .inr ?_) fun _ => .inl rfl
    simp [lastWritten, Function.update_apply]
  · rintro state events call emitted next ⟨tracked, recorded⟩ _ ⟨result, returns, rfl⟩
    obtain ⟨_, _, tracked', shown⟩ := returns.of_completes (timely_phyCall still call.1 tracked)
    refine ⟨?_, recorded.append_singleton shown⟩
    simp only [lastWritten, List.foldl_append, List.foldl_cons, List.foldl_nil]
    exact tracked'

end Rp2350Stepper.Lan9250
