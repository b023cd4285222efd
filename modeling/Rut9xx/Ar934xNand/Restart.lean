import Mathlib.Data.List.Forall2
import Rut9xx.Ar934xNand.Transfer
import Rut9xx.Data.WordMask

namespace Rut9xx.Ar934xNand

open Data

/-! # What a restart restores -/

section

/-- The configuration that no command writes. -/
def settledRegs : List Reg :=
  [.spareSize, .timeSeq, .timingsAsyn, .timingsSyn, .memCtrl, .dmaAddrOffs, .genSeqCtrl]

/-- The registers that configure the controller. -/
def configRegs : List Reg := .ctrl :: .eccCtrl :: .eccOffset :: settledRegs

def SameConfig (regs other : Regs) : Prop := ∀ reg ∈ configRegs, regs reg = other reg

/-- A command of two runs that is issued with the same configuration in both. -/
structure Sent.Alike (sent quiet : Sent) : Prop where
  request : sent.request = quiet.request
  tries : ∀ regs ∈ sent.tries, ∀ other ∈ quiet.tries, SameConfig regs other

/-- The commands of an operation that a timeout may have ended. -/
def LogAlike (log quiet : List Sent) : Prop := List.Forall₂ Sent.Alike log (quiet.take log.length)

def Step.quiet (step : Step) : Step := { step with timeouts := [] }

/-- Every command is issued with the configuration that it has in the run without timeouts. -/
def Restores (powerOn : Regs) (chip : Chip) (steps : List Step) (dev : Dev) : Prop :=
  List.Forall₂ LogAlike (runSteps powerOn chip steps dev).1
    (runSteps powerOn chip (steps.map Step.quiet) dev).1

/-- Hardware ECC is enabled for the pages that are read and written, and for nothing else. -/
def EccForPages (powerOn : Regs) (chip : Chip) (steps : List Step) (dev : Dev) : Prop :=
  List.Forall₂ (fun step log => ∀ sent ∈ log, ∀ regs ∈ sent.tries,
      (regs .ctrl &&& ctrlEccEn ≠ 0 ↔ step.op.pageRequest chip.mtd = some sent.request))
    steps (runSteps powerOn chip steps dev).1

def Request.isTransfer : Request → Bool
  | .readid .. | .read .. | .write .. => true
  | .cmd .. | .erase .. | .status => false

/-- All tries of a transfer time out. -/
def Request.fails (request : Request) (timeouts : List Timeout) : Bool :=
  request.isTransfer && decide (dmaRetries < timeouts.length)

/-- The requests of an operation that are sent, with their timeouts. -/
def attempts : List (Bool × Request) → List (List Timeout) → List (Request × List Timeout)
  | [], _ => []
  | (_, request) :: requests, timeouts =>
      (request, timeouts.headD []) ::
        if request.fails (timeouts.headD []) then [] else attempts requests timeouts.tail

/-- Those of a run. -/
def runAttempts (powerOn : Regs) (chip : Chip) : List Step → Dev → List (Request × List Timeout)
  | [], _ => []
  | step :: steps, dev =>
      attempts (step.op.requests chip dev.nfc).2 step.timeouts ++
        runAttempts powerOn chip steps (step.exec powerOn chip dev).1

/-- A reset leaves the spare size of the chip, and the sequence register as `ar934x_nfc_hw_init` sets it
for a chip with small pages. -/
def SettledByReset (powerOn : Regs) (mtd : Mtd) (nfc : Nfc) : Prop :=
  powerOn .spareSize = mtd.oobsize ∧
    (nfc.smallPage = true → powerOn .genSeqCtrl = genSeqSmallPageRead)

/-- A reset leaves the ECC settings of the driver. -/
def EccByReset (powerOn : Regs) (nfc : Nfc) : Prop :=
  powerOn .eccCtrl = nfc.eccCtrlReg ∧ powerOn .eccOffset = nfc.eccOffsetReg

/-- What has to hold at a request; `failed` if all tries of the last transfer have timed out. -/
def Harmless (powerOn : Regs) (mtd : Mtd) (nfc : Nfc) (failed : Bool) (request : Request)
    (timeouts : List Timeout) : Prop :=
  if request.isTransfer then timeouts ≠ [] → SettledByReset powerOn mtd nfc
  else failed = true → EccByReset powerOn nfc

def failedAfter (failed : Bool) (request : Request) (timeouts : List Timeout) : Bool :=
  if request.isTransfer then decide (dmaRetries < timeouts.length) else failed

/-- No transfer times out unless a reset leaves the settings of the chip, and none fails in front of a
command of another kind unless it leaves those of the ECC. -/
def AllHarmless (powerOn : Regs) (mtd : Mtd) (nfc : Nfc) :
    Bool → List (Request × List Timeout) → Prop
  | _, [] => True
  | failed, (request, timeouts) :: rest =>
      Harmless powerOn mtd nfc failed request timeouts ∧
        AllHarmless powerOn mtd nfc (failedAfter failed request timeouts) rest

end

variable {powerOn start regs : Regs} {mtd : Mtd} {chip : Chip} {nfc : Nfc} {dev quiet : Dev}
  {transfer : Transfer} {timeouts : List Timeout} {request : Request} {failed : Bool} {left : Nat}

/-! ## Tries and restarts -/

theorem wait_nfc {timeout : Timeout} : (timeout.wait dev).nfc = dev.nfc := by
  cases timeout <;> rfl

@[simp] theorem wr_nfc {reg : Reg} {val : UInt32} : (dev.wr reg val).nfc = dev.nfc := rfl

theorem startTransfer_nfc : (startTransfer dev transfer).nfc = dev.nfc := by
  simp only [startTransfer, wr_nfc]

theorem hwInit_nfc : (hwInit powerOn dev).nfc = { dev.nfc with ctrlReg := ctrlCustomSizeEn } := by
  simp only [hwInit]
  split <;> rfl

theorem restart_nfc : (restart powerOn dev).nfc = dev.nfc := by
  simp only [restart, sendCmd, Dev.wr, hwInit_nfc]

/-- Nothing of the registers is left. -/
theorem hwInit_congr {other : Dev} (same : dev.nfc = other.nfc) :
    hwInit powerOn dev = hwInit powerOn other := by
  simp only [hwInit, same]

theorem restart_congr {other : Dev} (same : dev.nfc = other.nfc) :
    restart powerOn dev = restart powerOn other := by
  rw [restart, restart, hwInit_congr same, same]

theorem tryTransfer_eq : tryTransfer powerOn transfer left timeouts dev =
    (if timeouts = [] then startTransfer dev transfer
      else if timeouts.length ≤ left then startTransfer (restart powerOn dev) transfer
      else restart powerOn dev,
      (startTransfer dev transfer).regs ::
        List.replicate (min timeouts.length left) (startTransfer (restart powerOn dev) transfer).regs,
      decide (timeouts.length ≤ left)) := by
  induction left generalizing timeouts dev with
  | zero =>
      cases timeouts with
      | nil => rfl
      | cons timeout timeouts =>
          have again : restart powerOn (timeout.wait (startTransfer dev transfer)) = restart powerOn dev :=
            restart_congr (wait_nfc.trans startTransfer_nfc)
          have none : ¬ (timeout :: timeouts).length ≤ 0 := Nat.not_succ_le_zero _
          simp only [tryTransfer, again, List.cons_ne_nil, if_false, if_neg none, decide_eq_false none,
            Nat.min_zero, List.replicate_zero]
  | succ left ih =>
      cases timeouts with
      | nil => rfl
      | cons timeout timeouts =>
          have again : restart powerOn (timeout.wait (startTransfer dev transfer)) = restart powerOn dev :=
            restart_congr (wait_nfc.trans startTransfer_nfc)
          have twice : restart powerOn (restart powerOn dev) = restart powerOn dev := restart_congr restart_nfc
          simp only [tryTransfer, again, ih, twice, List.cons_ne_nil, if_false, List.length_cons,
            Nat.add_le_add_iff_right, Nat.add_min_add_right, List.replicate_succ]
          cases timeouts with
          | nil => rfl
          | cons => rfl

/-! ## What a request does -/

theorem doRwCommand_eq (column pageAddr len cmdReg ctrlReg : UInt32) (write : Bool) (nfc : Nfc) :
    ∃ transfer : Transfer, transfer.ctrlReg = ctrlReg ||| ctrlIntEn ∧ ∀ timeouts regs,
      doRwCommand powerOn timeouts ⟨nfc, regs⟩ column pageAddr len cmdReg ctrlReg write =
        tryTransfer powerOn transfer dmaRetries timeouts ⟨nfc, regs⟩ :=
  ⟨⟨getAddr nfc column pageAddr, len, cmdReg ||| 0x40, ctrlReg ||| ctrlIntEn,
    (if write then 0 else 0x40) ||| 0x8c⟩, rfl, fun _ _ => rfl⟩

theorem send_transfer (is : request.isTransfer = true) (nfc : Nfc) :
    ∃ transfer : Transfer, transfer.ctrlReg = nfc.ctrlReg ||| ctrlIntEn ∧ ∀ timeouts regs,
      request.send powerOn timeouts ⟨nfc, regs⟩ =
        tryTransfer powerOn transfer dmaRetries timeouts ⟨nfc, regs⟩ := by
  cases request with
  | readid | write => exact doRwCommand_eq ..
  | read command column pageAddr len =>
      exact doRwCommand_eq column pageAddr len
        ((command &&& 0xff) <<< (8 : UInt32) |||
          if nfc.smallPage then 0x32 else NAND_CMD_READSTART <<< (16 : UInt32) ||| 0x2a) nfc.ctrlReg false nfc
  | cmd | erase | status => cases is

theorem send_plain (is : request.isTransfer = false) (nfc : Nfc) :
    ∃ ctrl, (ctrl = nfc.ctrlReg ∨ ctrl = eraseCtrl nfc) ∧ ∀ timeouts regs, ∃ after,
      request.send powerOn timeouts ⟨nfc, regs⟩ = (⟨nfc, after⟩, [after], true) ∧
        after .ctrl = ctrl ∧ ∀ reg ∈ configRegs.tail, after reg = regs reg := by
  have apart {reg : Reg} (member : reg ∈ configRegs.tail) :
      reg ≠ .cmd ∧ reg ≠ .ctrl ∧ reg ≠ .intStatus ∧ reg ≠ .addr00 ∧ reg ≠ .addr01 := by
    revert member
    cases reg <;> decide
  cases request with
  | readid | read | write => cases is
  | cmd command =>
      refine ⟨nfc.ctrlReg, .inl rfl, fun _ regs => ⟨(sendCmd ⟨nfc, regs⟩ command).regs, rfl, rfl,
        fun reg member => ?_⟩⟩
      obtain ⟨cmd, ctrl, status, -, -⟩ := apart member
      simp only [sendCmd, Dev.wr, Function.update_of_ne cmd, Function.update_of_ne ctrl,
        Function.update_of_ne status]
  | status =>
      refine ⟨nfc.ctrlReg, .inl rfl, fun _ regs => ⟨(readStatus ⟨nfc, regs⟩).regs, rfl, rfl,
        fun reg member => ?_⟩⟩
      obtain ⟨cmd, ctrl, status, -, -⟩ := apart member
      simp only [readStatus, Dev.wr, Function.update_of_ne cmd, Function.update_of_ne ctrl,
        Function.update_of_ne status]
  | erase command column pageAddr =>
      refine ⟨eraseCtrl nfc, .inr rfl, fun _ regs =>
        ⟨(sendErase ⟨nfc, regs⟩ command column pageAddr).regs, rfl, rfl, fun reg member => ?_⟩⟩
      obtain ⟨cmd, ctrl, status, addr00, addr01⟩ := apart member
      simp only [sendErase, Dev.wr, Function.update_of_ne cmd, Function.update_of_ne ctrl,
        Function.update_of_ne status, Function.update_of_ne addr00, Function.update_of_ne addr01]

theorem startTransfer_regs : (startTransfer dev transfer).regs .ctrl = transfer.ctrlReg ∧
    (startTransfer dev transfer).regs .eccCtrl = dev.nfc.eccCtrlReg ∧
      (startTransfer dev transfer).regs .eccOffset = dev.nfc.eccOffsetReg ∧
        ∀ reg ∈ settledRegs, (startTransfer dev transfer).regs reg = dev.regs reg := by
  refine ⟨rfl, rfl, rfl, ?_⟩
  simp only [settledRegs, List.forall_mem_cons, List.not_mem_nil, false_imp_iff, implies_true,
    and_true]
  exact ⟨rfl, rfl, rfl, rfl, rfl, rfl, rfl⟩

/-- The settings of the chip are there behind the attach. -/
structure Settled (powerOn : Regs) (mtd : Mtd) (regs : Regs) : Prop where
  spareSize : regs .spareSize = mtd.oobsize
  timeSeq : regs .timeSeq = 0x7fff
  timingsAsyn : regs .timingsAsyn = 0x22
  timingsSyn : regs .timingsSyn = 0xf
  memCtrl : regs .memCtrl = 0xff00
  dmaAddrOffs : regs .dmaAddrOffs = 0
  genSeqCtrl : regs .genSeqCtrl = powerOn .genSeqCtrl

theorem Settled.congr {other : Regs} (settled : Settled powerOn mtd regs)
    (same : ∀ reg ∈ settledRegs, other reg = regs reg) : Settled powerOn mtd other := by
  simp only [settledRegs, List.forall_mem_cons, List.not_mem_nil, false_imp_iff, implies_true,
    and_true] at same
  obtain ⟨spareSize, timeSeq, timingsAsyn, timingsSyn, memCtrl, dmaAddrOffs, genSeqCtrl⟩ := same
  exact ⟨spareSize.trans settled.spareSize, timeSeq.trans settled.timeSeq,
    timingsAsyn.trans settled.timingsAsyn, timingsSyn.trans settled.timingsSyn,
    memCtrl.trans settled.memCtrl, dmaAddrOffs.trans settled.dmaAddrOffs,
    genSeqCtrl.trans settled.genSeqCtrl⟩

theorem Settled.same {other : Regs} (settled : Settled powerOn mtd regs)
    (settled' : Settled powerOn mtd other) : ∀ reg ∈ settledRegs, regs reg = other reg := by
  simp only [settledRegs, List.forall_mem_cons, List.not_mem_nil, false_imp_iff, implies_true,
    and_true]
  exact ⟨settled.spareSize.trans settled'.spareSize.symm, settled.timeSeq.trans settled'.timeSeq.symm,
    settled.timingsAsyn.trans settled'.timingsAsyn.symm, settled.timingsSyn.trans settled'.timingsSyn.symm,
    settled.memCtrl.trans settled'.memCtrl.symm, settled.dmaAddrOffs.trans settled'.dmaAddrOffs.symm,
    settled.genSeqCtrl.trans settled'.genSeqCtrl.symm⟩

/-- What `hwInit` leaves. -/
structure Initialized (powerOn : Regs) (smallPage : Bool) (regs : Regs) : Prop where
  spareSize : regs .spareSize = powerOn .spareSize
  eccCtrl : regs .eccCtrl = powerOn .eccCtrl
  eccOffset : regs .eccOffset = powerOn .eccOffset
  timeSeq : regs .timeSeq = 0x7fff
  timingsAsyn : regs .timingsAsyn = 0x22
  timingsSyn : regs .timingsSyn = 0xf
  memCtrl : regs .memCtrl = 0xff00
  dmaAddrOffs : regs .dmaAddrOffs = 0
  genSeqCtrl : regs .genSeqCtrl = if smallPage then genSeqSmallPageRead else powerOn .genSeqCtrl

theorem hwInit_initialized : Initialized powerOn dev.nfc.smallPage (hwInit powerOn dev).regs := by
  cases small : dev.nfc.smallPage <;>
    simp only [hwInit, Dev.wr, small, Bool.false_eq_true, if_false, if_true] <;>
    exact ⟨rfl, rfl, rfl, rfl, rfl, rfl, rfl, rfl, rfl⟩

theorem restart_initialized : Initialized powerOn dev.nfc.smallPage (restart powerOn dev).regs := by
  cases small : dev.nfc.smallPage <;>
    simp only [restart, sendCmd, hwInit, Dev.wr, small, Bool.false_eq_true, if_false, if_true] <;>
    exact ⟨rfl, rfl, rfl, rfl, rfl, rfl, rfl, rfl, rfl⟩

theorem Initialized.settled_iff (initialized : Initialized powerOn nfc.smallPage regs) :
    Settled powerOn mtd regs ↔ SettledByReset powerOn mtd nfc := by
  constructor
  · intro settled
    refine ⟨initialized.spareSize.symm.trans settled.spareSize, fun small => ?_⟩
    have seq := initialized.genSeqCtrl
    rw [if_pos small] at seq
    exact settled.genSeqCtrl.symm.trans seq
  · rintro ⟨spare, seq⟩
    refine ⟨initialized.spareSize.trans spare, initialized.timeSeq, initialized.timingsAsyn,
      initialized.timingsSyn, initialized.memCtrl, initialized.dmaAddrOffs, ?_⟩
    rw [initialized.genSeqCtrl]
    split
    · next small => exact (seq small).symm
    · rfl

theorem sameConfig_iff {other : Regs} : SameConfig regs other ↔ regs .ctrl = other .ctrl ∧
    (regs .eccCtrl = other .eccCtrl ∧ regs .eccOffset = other .eccOffset) ∧
      ∀ reg ∈ settledRegs, regs reg = other reg := by
  rw [SameConfig, configRegs, List.forall_mem_cons, List.forall_mem_cons, List.forall_mem_cons, and_assoc]

/-! ## Runs with and without timeouts -/

def EccIs (regs : Regs) (eccCtrl eccOffset : UInt32) : Prop :=
  regs .eccCtrl = eccCtrl ∧ regs .eccOffset = eccOffset

/-- A device, and the one of the run without timeouts. -/
structure Tracks (powerOn : Regs) (mtd : Mtd) (failed : Bool) (dev quiet : Dev) : Prop where
  nfc : dev.nfc = quiet.nfc
  settled : Settled powerOn mtd dev.regs
  quietly : Settled powerOn mtd quiet.regs
  ecc : failed = false → EccIs dev.regs (quiet.regs .eccCtrl) (quiet.regs .eccOffset)
  reset : failed = true → EccIs dev.regs (powerOn .eccCtrl) (powerOn .eccOffset) ∧
    EccIs quiet.regs quiet.nfc.eccCtrlReg quiet.nfc.eccOffsetReg

theorem Tracks.ecc_of (tracks : Tracks powerOn mtd failed dev quiet)
    (harmless : failed = true → EccByReset powerOn quiet.nfc) :
    EccIs dev.regs (quiet.regs .eccCtrl) (quiet.regs .eccOffset) := by
  cases failed with
  | false => exact tracks.ecc rfl
  | true =>
      obtain ⟨⟨resetCtrl, resetOffset⟩, setCtrl, setOffset⟩ := tracks.reset rfl
      obtain ⟨sameCtrl, sameOffset⟩ := harmless rfl
      exact ⟨resetCtrl.trans (sameCtrl.trans setCtrl.symm), resetOffset.trans (sameOffset.trans setOffset.symm)⟩

theorem startTransfer_settled_iff :
    Settled powerOn mtd (startTransfer dev transfer).regs ↔ Settled powerOn mtd dev.regs := by
  obtain ⟨-, -, -, same⟩ := @startTransfer_regs dev transfer
  exact ⟨fun settled => settled.congr fun reg member => (same reg member).symm,
    fun settled => settled.congr same⟩

theorem startTransfer_sameConfig_iff (nfc : dev.nfc = quiet.nfc) (settled : Settled powerOn mtd quiet.regs) :
    SameConfig (startTransfer dev transfer).regs (startTransfer quiet transfer).regs ↔
      Settled powerOn mtd dev.regs := by
  obtain ⟨ctrl, eccCtrl, eccOffset, same⟩ := @startTransfer_regs dev transfer
  obtain ⟨ctrl', eccCtrl', eccOffset', same'⟩ := @startTransfer_regs quiet transfer
  rw [sameConfig_iff, ctrl, ctrl', eccCtrl, eccCtrl', eccOffset, eccOffset', nfc]
  constructor
  · rintro ⟨-, -, alike⟩
    exact settled.congr fun reg member =>
      (same reg member).symm.trans ((alike reg member).trans (same' reg member))
  · intro both
    refine ⟨rfl, ⟨rfl, rfl⟩, fun reg member => ?_⟩
    rw [same reg member, same' reg member]
    exact both.same settled reg member

/-- Two devices with the same driver are alike behind a try. -/
theorem startTransfer_tracks (nfc : dev.nfc = quiet.nfc) (settled : Settled powerOn mtd dev.regs)
    (settled' : Settled powerOn mtd quiet.regs) :
    Tracks powerOn mtd false (startTransfer dev transfer) (startTransfer quiet transfer) := by
  obtain ⟨-, eccCtrl, eccOffset, -⟩ := @startTransfer_regs dev transfer
  obtain ⟨-, eccCtrl', eccOffset', -⟩ := @startTransfer_regs quiet transfer
  refine ⟨?_, startTransfer_settled_iff.mpr settled, startTransfer_settled_iff.mpr settled', fun _ => ?_,
    nofun⟩
  · rw [startTransfer_nfc, startTransfer_nfc, nfc]
  · rw [eccCtrl', eccOffset', ← nfc]
    exact ⟨eccCtrl, eccOffset⟩

/-- A request in both runs: the registers at its tries, and the devices behind it. -/
structure SentBoth (powerOn : Regs) (mtd : Mtd) (failed : Bool) (request : Request)
    (timeouts : List Timeout) (dev quiet last quietLast : Dev) (tries : List Regs) (regs : Regs) :
    Prop where
  sent : request.send powerOn timeouts dev = (last, tries, !request.fails timeouts)
  quietly : request.send powerOn [] quiet = (quietLast, [regs], true)
  nfc : quietLast.nfc = quiet.nfc
  alike : (∀ tried ∈ tries, SameConfig tried regs) ↔
    Harmless powerOn mtd quiet.nfc failed request timeouts
  tracks : Harmless powerOn mtd quiet.nfc failed request timeouts →
    Tracks powerOn mtd (failedAfter failed request timeouts) last quietLast

theorem Tracks.sendTransfer (tracks : Tracks powerOn mtd failed dev quiet) (is : request.isTransfer = true) :
    ∃ last quietLast tries regs,
      SentBoth powerOn mtd failed request timeouts dev quiet last quietLast tries regs := by
  obtain ⟨nfc, regs⟩ := dev
  obtain ⟨nfc', regs'⟩ := quiet
  obtain rfl : nfc = nfc' := tracks.nfc
  obtain ⟨transfer, -, send⟩ := @send_transfer powerOn request is nfc
  have restarted : Settled powerOn mtd (restart powerOn ⟨nfc, regs⟩).regs ↔ SettledByReset powerOn mtd nfc :=
    restart_initialized.settled_iff
  have same : (restart powerOn ⟨nfc, regs⟩).nfc = nfc := restart_nfc
  have done : decide (timeouts.length ≤ dmaRetries) = !request.fails timeouts := by
    simp only [Request.fails, is, Bool.true_and, ← decide_not, Nat.not_lt]
  have quietly : request.send powerOn [] ⟨nfc, regs'⟩ = (startTransfer ⟨nfc, regs'⟩ transfer,
      [(startTransfer ⟨nfc, regs'⟩ transfer).regs], true) := by
    rw [send [] regs', tryTransfer]
  have sent := (send timeouts regs).trans tryTransfer_eq
  rw [done] at sent
  refine ⟨_, _, _, _, sent, quietly, startTransfer_nfc, ?_, ?_⟩
  · have first : SameConfig (startTransfer ⟨nfc, regs⟩ transfer).regs (startTransfer ⟨nfc, regs'⟩ transfer).regs :=
      (@startTransfer_sameConfig_iff powerOn mtd ⟨nfc, regs⟩ ⟨nfc, regs'⟩ transfer rfl tracks.quietly).mpr
        tracks.settled
    have again : SameConfig (startTransfer (restart powerOn ⟨nfc, regs⟩) transfer).regs
        (startTransfer ⟨nfc, regs'⟩ transfer).regs ↔ SettledByReset powerOn mtd nfc :=
      (@startTransfer_sameConfig_iff powerOn mtd _ ⟨nfc, regs'⟩ transfer same tracks.quietly).trans restarted
    have none : min timeouts.length dmaRetries = 0 ↔ timeouts = [] := by
      rw [← List.length_eq_zero_iff, dmaRetries]
      omega
    rw [Harmless, if_pos is, List.forall_mem_cons, List.forall_mem_replicate, again, none, ne_eq,
      imp_iff_or_not, not_not, or_comm]
    exact and_iff_right first
  · rw [Harmless, if_pos is, failedAfter, if_pos is]
    intro harmless
    by_cases empty : timeouts = []
    · simp only [empty, if_true]
      exact startTransfer_tracks rfl tracks.settled tracks.quietly
    · have settled := restarted.mpr (harmless empty)
      by_cases more : timeouts.length ≤ dmaRetries
      · simp only [if_neg empty, if_pos more, decide_eq_false (Nat.not_lt.mpr more)]
        exact startTransfer_tracks same settled tracks.quietly
      · simp only [if_neg empty, if_neg more, decide_eq_true (Nat.lt_of_not_le more)]
        obtain ⟨-, eccCtrl, eccOffset, -⟩ := @startTransfer_regs ⟨nfc, regs'⟩ transfer
        have reset := @restart_initialized powerOn ⟨nfc, regs⟩
        exact ⟨same, settled, startTransfer_settled_iff.mpr tracks.quietly, nofun,
          fun _ => ⟨⟨reset.eccCtrl, reset.eccOffset⟩, eccCtrl, eccOffset⟩⟩

theorem Tracks.sendPlain (tracks : Tracks powerOn mtd failed dev quiet) (is : request.isTransfer = false) :
    ∃ last quietLast tries regs,
      SentBoth powerOn mtd failed request timeouts dev quiet last quietLast tries regs := by
  obtain ⟨nfc, regs⟩ := dev
  obtain ⟨nfc', regs'⟩ := quiet
  obtain rfl : nfc = nfc' := tracks.nfc
  obtain ⟨ctrl, -, send⟩ := @send_plain powerOn request is nfc
  obtain ⟨after, sent, ctrl', kept⟩ := send timeouts regs
  obtain ⟨quietAfter, quietly, quietCtrl, quietKept⟩ := send [] regs'
  have done : true = !request.fails timeouts := by
    rw [Request.fails, is]
    rfl
  rw [configRegs, List.tail_cons, List.forall_mem_cons, List.forall_mem_cons] at kept quietKept
  obtain ⟨eccCtrl, eccOffset, kept⟩ := kept
  obtain ⟨eccCtrl', eccOffset', quietKept⟩ := quietKept
  have settled := tracks.settled.congr kept
  have settled' := tracks.quietly.congr quietKept
  rw [done] at sent
  refine ⟨_, _, _, _, sent, quietly, rfl, ?_, ?_⟩
  · rw [Harmless, if_neg (Bool.eq_false_iff.mp is), List.forall_mem_singleton, sameConfig_iff, ctrl',
      quietCtrl, eccCtrl, eccCtrl', eccOffset, eccOffset']
    constructor
    · rintro ⟨-, ⟨sameCtrl, sameOffset⟩, -⟩ rfl
      obtain ⟨⟨resetCtrl, resetOffset⟩, setCtrl, setOffset⟩ := tracks.reset rfl
      exact ⟨resetCtrl.symm.trans (sameCtrl.trans setCtrl), resetOffset.symm.trans (sameOffset.trans setOffset)⟩
    · intro harmless
      exact ⟨rfl, tracks.ecc_of harmless, settled.same settled'⟩
  · rw [failedAfter, if_neg (Bool.eq_false_iff.mp is)]
    refine fun _ => ⟨rfl, settled, settled', fun fine => ?_, fun wrong => ?_⟩
    · simp only [EccIs, eccCtrl, eccOffset, eccCtrl', eccOffset']
      exact tracks.ecc fine
    · simp only [EccIs, eccCtrl, eccOffset, eccCtrl', eccOffset']
      exact tracks.reset wrong

theorem Tracks.send (tracks : Tracks powerOn mtd failed dev quiet) (request : Request)
    (timeouts : List Timeout) : ∃ last quietLast tries regs,
      SentBoth powerOn mtd failed request timeouts dev quiet last quietLast tries regs := by
  cases is : request.isTransfer with
  | true => exact tracks.sendTransfer is
  | false => exact tracks.sendPlain is

/-! ## The control word between two operations -/

/-- Hardware ECC is off, also in the control word of an erase command. -/
structure Idle (nfc : Nfc) : Prop where
  off : nfc.ctrlReg &&& ctrlEccEn = 0
  custom : nfc.ctrlReg &&& ctrlCustomSizeEn = ctrlCustomSizeEn
  erase : eraseCtrl nfc &&& ctrlEccEn = 0

/-- The control word and the settings that the operations leave alone. -/
structure Nfc.Same (nfc other : Nfc) : Prop where
  ctrlReg : nfc.ctrlReg = other.ctrlReg
  eccCtrlReg : nfc.eccCtrlReg = other.eccCtrlReg
  eccOffsetReg : nfc.eccOffsetReg = other.eccOffsetReg
  smallPage : nfc.smallPage = other.smallPage
  addrCount0 : nfc.addrCount0 = other.addrCount0

theorem same_ite {cond : Prop} [Decidable cond] {first second : Nfc × List Request}
    (same : first.1.Same nfc) (same' : second.1.Same nfc) : (if cond then first else second).1.Same nfc := by
  split
  · exact same
  · exact same'

theorem cmdfunc_same (command column pageAddr : UInt32) :
    (cmdfunc chip nfc command column pageAddr).1.Same nfc := by
  unfold cmdfunc
  extract_lets mtd nfc' both
  repeat' refine same_ite ?_ ?_
  all_goals exact ⟨rfl, rfl, rfl, rfl, rfl⟩

theorem requests_same (op : Op) : (op.requests chip nfc).1.Same nfc := by
  cases op with
  | cmdfunc command column pageAddr => exact cmdfunc_same command column pageAddr
  | buffer | readOob | writeOob | readPageRaw | writePageRaw | readPage | writePage =>
      exact ⟨rfl, rfl, rfl, rfl, rfl⟩

theorem Idle.congr {other : Nfc} (idle : Idle nfc) (same : other.Same nfc) : Idle other := by
  refine ⟨?_, ?_, ?_⟩
  · rw [same.ctrlReg]
    exact idle.off
  · rw [same.ctrlReg]
    exact idle.custom
  · rw [eraseCtrl, same.smallPage, same.addrCount0, same.ctrlReg]
    exact idle.erase

theorem harmless_congr {other : Nfc} (same : other.Same nfc) :
    Harmless powerOn mtd other failed request timeouts ↔ Harmless powerOn mtd nfc failed request timeouts := by
  rw [Harmless, Harmless, SettledByReset, SettledByReset, EccByReset, EccByReset, same.smallPage,
    same.eccCtrlReg, same.eccOffsetReg]

theorem allHarmless_congr {other : Nfc} {sent : List (Request × List Timeout)} (same : other.Same nfc) :
    AllHarmless powerOn mtd other failed sent ↔ AllHarmless powerOn mtd nfc failed sent := by
  induction sent generalizing failed with
  | nil => exact Iff.rfl
  | cons attempt sent ih => exact and_congr (harmless_congr same) ih

theorem send_nfc (request : Request) : (request.send powerOn timeouts dev).1.nfc = dev.nfc := by
  cases is : request.isTransfer with
  | true =>
      obtain ⟨transfer, -, send⟩ := @send_transfer powerOn request is dev.nfc
      rw [send timeouts dev.regs, tryTransfer_eq]
      simp only
      split
      · exact startTransfer_nfc
      · split
        · exact startTransfer_nfc.trans restart_nfc
        · exact restart_nfc
  | false =>
      obtain ⟨ctrl, -, send⟩ := @send_plain powerOn request is dev.nfc
      obtain ⟨after, sent, -⟩ := send timeouts dev.regs
      rw [sent]

/-- The device as a request is sent. -/
def Dev.withEcc (dev : Dev) (hwecc : Bool) : Dev := if hwecc then enableHwecc dev else dev

theorem withEcc_regs {hwecc : Bool} : (dev.withEcc hwecc).regs = dev.regs := by
  cases hwecc <;> rfl

theorem withEcc_eccRegs {hwecc : Bool} : (dev.withEcc hwecc).nfc.eccCtrlReg = dev.nfc.eccCtrlReg ∧
    (dev.withEcc hwecc).nfc.eccOffsetReg = dev.nfc.eccOffsetReg := by
  cases hwecc <;> exact ⟨rfl, rfl⟩

/-- Behind a request the control word is what it was. -/
theorem Idle.restored {hwecc : Bool} {last : Dev} (idle : Idle dev.nfc)
    (same : last.nfc = (dev.withEcc hwecc).nfc) :
    (if hwecc then disableHwecc last else last) = ⟨dev.nfc, last.regs⟩ := by
  obtain ⟨nfc, regs⟩ := dev
  obtain ⟨nfc', regs'⟩ := last
  cases hwecc with
  | false =>
      cases same
      rfl
  | true =>
      cases same
      have restored := set_restored idle.off idle.custom
      simp only [disableHwecc, if_true, restored]

theorem sendAll_cons {hwecc : Bool} {requests : List (Bool × Request)} {timeouts : List (List Timeout)}
    {last : Dev} {tries : List Regs} {done : Bool} (idle : Idle dev.nfc)
    (sent : request.send powerOn (timeouts.headD []) (dev.withEcc hwecc) = (last, tries, done)) :
    sendAll powerOn ((hwecc, request) :: requests) timeouts dev =
      if done then
        ((sendAll powerOn requests timeouts.tail ⟨dev.nfc, last.regs⟩).1,
          ⟨request, tries⟩ :: (sendAll powerOn requests timeouts.tail ⟨dev.nfc, last.regs⟩).2)
      else (⟨dev.nfc, last.regs⟩, [⟨request, tries⟩]) := by
  have same : last.nfc = (dev.withEcc hwecc).nfc := by
    rw [← @send_nfc powerOn (dev.withEcc hwecc) (timeouts.headD []) request, sent]
  have restored := idle.restored same
  rw [Dev.withEcc] at sent
  simp only [sendAll, sent, restored]
  cases done <;> rfl

/-! ## Operations with and without timeouts -/

section

variable {requests : List (Bool × Request)} {lists : List (List Timeout)} {sent after : List (Request × List Timeout)}

def failedBehind (failed : Bool) (sent : List (Request × List Timeout)) : Bool :=
  sent.foldl (fun failed attempt => failedAfter failed attempt.1 attempt.2) failed

theorem allHarmless_append : AllHarmless powerOn mtd nfc failed (sent ++ after) ↔
    AllHarmless powerOn mtd nfc failed sent ∧ AllHarmless powerOn mtd nfc (failedBehind failed sent) after := by
  induction sent generalizing failed with
  | nil => exact (and_iff_right trivial).symm
  | cons attempt sent ih => exact (and_congr_right fun _ => ih).trans and_assoc.symm

theorem logAlike_cons {first first' : Sent} {log log' : List Sent} :
    LogAlike (first :: log) (first' :: log') ↔ first.Alike first' ∧ LogAlike log log' := by
  rw [LogAlike, List.length_cons, List.take_succ_cons, List.forall₂_cons]
  rfl

theorem alike_iff {tries : List Regs} :
    Sent.Alike ⟨request, tries⟩ ⟨request, [regs]⟩ ↔ ∀ tried ∈ tries, SameConfig tried regs :=
  ⟨fun alike tried member => alike.tries tried member regs List.mem_cons_self,
    fun alike => ⟨rfl, fun tried member _ member' => List.mem_singleton.mp member' ▸ alike tried member⟩⟩

theorem send_quiet (settled : Settled powerOn mtd dev.regs) (request : Request) : ∃ last regs,
    request.send powerOn [] dev = (last, [regs], true) ∧ Settled powerOn mtd last.regs ∧
      (EccIs dev.regs dev.nfc.eccCtrlReg dev.nfc.eccOffsetReg →
        EccIs last.regs dev.nfc.eccCtrlReg dev.nfc.eccOffsetReg) := by
  cases is : request.isTransfer with
  | true =>
      obtain ⟨transfer, -, send⟩ := @send_transfer powerOn request is dev.nfc
      obtain ⟨-, eccCtrl, eccOffset, -⟩ := @startTransfer_regs dev transfer
      exact ⟨_, _, send [] dev.regs, startTransfer_settled_iff.mpr settled, fun _ => ⟨eccCtrl, eccOffset⟩⟩
  | false =>
      obtain ⟨ctrl, -, send⟩ := @send_plain powerOn request is dev.nfc
      obtain ⟨after, sent, -, kept⟩ := send [] dev.regs
      rw [configRegs, List.tail_cons, List.forall_mem_cons, List.forall_mem_cons] at kept
      obtain ⟨eccCtrl, eccOffset, kept⟩ := kept
      exact ⟨_, _, sent, settled.congr kept, fun ⟨set, set'⟩ => ⟨eccCtrl.trans set, eccOffset.trans set'⟩⟩

theorem sendAll_quiet (idle : Idle dev.nfc) (settled : Settled powerOn mtd dev.regs) :
    (sendAll powerOn requests [] dev).1.nfc = dev.nfc ∧
      Settled powerOn mtd (sendAll powerOn requests [] dev).1.regs ∧
        (EccIs dev.regs dev.nfc.eccCtrlReg dev.nfc.eccOffsetReg →
          EccIs (sendAll powerOn requests [] dev).1.regs dev.nfc.eccCtrlReg dev.nfc.eccOffsetReg) := by
  induction requests generalizing dev with
  | nil => exact ⟨rfl, settled, id⟩
  | cons first requests ih =>
      obtain ⟨hwecc, request⟩ := first
      obtain ⟨eccCtrl, eccOffset⟩ := @withEcc_eccRegs dev hwecc
      rw [← @withEcc_regs dev hwecc] at settled
      obtain ⟨last, regs, sent, settled', ecc⟩ := send_quiet settled request
      rw [eccCtrl, eccOffset, withEcc_regs] at ecc
      have next := @ih ⟨dev.nfc, last.regs⟩ idle settled'
      rw [sendAll_cons idle sent, if_pos rfl]
      exact ⟨next.1, next.2.1, fun set => next.2.2 (ecc set)⟩

theorem Tracks.withEcc {hwecc : Bool} (tracks : Tracks powerOn mtd failed dev quiet) :
    Tracks powerOn mtd failed (dev.withEcc hwecc) (quiet.withEcc hwecc) := by
  obtain ⟨eccCtrl, eccOffset⟩ := @withEcc_eccRegs quiet hwecc
  have nfc : (dev.withEcc hwecc).nfc = (quiet.withEcc hwecc).nfc := by
    cases hwecc with
    | false => exact tracks.nfc
    | true =>
        simp only [Dev.withEcc, enableHwecc, if_true, tracks.nfc]
  refine ⟨nfc, ?_, ?_, ?_, ?_⟩
  · rw [withEcc_regs]
    exact tracks.settled
  · rw [withEcc_regs]
    exact tracks.quietly
  · rw [withEcc_regs, withEcc_regs]
    exact tracks.ecc
  · rw [withEcc_regs, withEcc_regs, eccCtrl, eccOffset]
    exact tracks.reset

/-- What is sent in both runs for a request, and the devices behind it, with hardware ECC off. -/
theorem Tracks.sendEcc (tracks : Tracks powerOn mtd failed dev quiet) (hwecc : Bool) (request : Request)
    (timeouts : List Timeout) : ∃ last quietLast tries regs,
      request.send powerOn timeouts (dev.withEcc hwecc) = (last, tries, !request.fails timeouts) ∧
        request.send powerOn [] (quiet.withEcc hwecc) = (quietLast, [regs], true) ∧
          ((∀ tried ∈ tries, SameConfig tried regs) ↔
            Harmless powerOn mtd quiet.nfc failed request timeouts) ∧
          (Harmless powerOn mtd quiet.nfc failed request timeouts →
            Tracks powerOn mtd (failedAfter failed request timeouts) ⟨dev.nfc, last.regs⟩
              ⟨quiet.nfc, quietLast.regs⟩) := by
  obtain ⟨last, quietLast, tries, regs, both⟩ := (@Tracks.withEcc _ _ _ _ _ hwecc tracks).send request timeouts
  obtain ⟨eccCtrl, eccOffset⟩ := @withEcc_eccRegs quiet hwecc
  have same : Harmless powerOn mtd (quiet.withEcc hwecc).nfc failed request timeouts =
      Harmless powerOn mtd quiet.nfc failed request timeouts := by
    cases hwecc <;> rfl
  have alike := both.alike
  have next := both.tracks
  rw [same] at alike next
  refine ⟨last, quietLast, tries, regs, both.sent, both.quietly, alike, fun harmless => ?_⟩
  have after := next harmless
  refine ⟨tracks.nfc, after.settled, after.quietly, after.ecc, fun wrong => ?_⟩
  have reset := after.reset wrong
  rw [both.nfc, eccCtrl, eccOffset] at reset
  exact reset

/-- An operation in both runs. -/
theorem Tracks.sendAll (tracks : Tracks powerOn mtd failed dev quiet) (idle : Idle quiet.nfc) :
    (LogAlike (sendAll powerOn requests lists dev).2 (sendAll powerOn requests [] quiet).2 ↔
      AllHarmless powerOn mtd quiet.nfc failed (attempts requests lists)) ∧
    (AllHarmless powerOn mtd quiet.nfc failed (attempts requests lists) →
      Tracks powerOn mtd (failedBehind failed (attempts requests lists)) (sendAll powerOn requests lists dev).1
        (sendAll powerOn requests [] quiet).1) := by
  induction requests generalizing failed lists dev quiet with
  | nil => exact ⟨⟨fun _ => trivial, fun _ => List.Forall₂.nil⟩, fun _ => tracks⟩
  | cons first requests ih =>
      obtain ⟨hwecc, request⟩ := first
      have idle' : Idle dev.nfc := tracks.nfc ▸ idle
      obtain ⟨last, quietLast, tries, regs, sent, quietly, alike, next⟩ :=
        tracks.sendEcc hwecc request (lists.headD [])
      rw [sendAll_cons idle' sent, @sendAll_cons _ _ _ _ _ [] _ _ _ idle quietly, if_pos rfl, attempts]
      cases fails : request.fails (lists.headD []) with
      | false =>
          simp only [Bool.not_false, if_true, Bool.false_eq_true, if_false, AllHarmless]
          rw [logAlike_cons, alike_iff, alike]
          refine ⟨and_congr_right fun harmless => (ih (next harmless) idle).1, fun harmless => ?_⟩
          exact (ih (next harmless.1) idle).2 harmless.2
      | true =>
          -- the run without timeouts goes on, and the ECC settings stay as the try has set them
          simp only [Bool.not_true, if_true, Bool.false_eq_true, if_false, AllHarmless, and_true]
          rw [logAlike_cons, alike_iff, alike]
          refine ⟨and_iff_left List.Forall₂.nil, fun harmless => ?_⟩
          have after := next harmless
          have wrong : failedAfter failed request (lists.headD []) = true := by
            rw [Request.fails, Bool.and_eq_true] at fails
            rw [failedAfter, if_pos fails.1]
            exact fails.2
          obtain ⟨same, settled, ecc⟩ :=
            @sendAll_quiet powerOn mtd ⟨quiet.nfc, quietLast.regs⟩ requests idle after.quietly
          obtain ⟨reset, set⟩ := after.reset wrong
          refine ⟨tracks.nfc.trans same.symm, after.settled, settled, fun fine => ?_, fun _ => ⟨reset, ?_⟩⟩
          · cases wrong.symm.trans fine
          · rw [List.tail_nil, same]
            exact ecc set

theorem sendAll_nfc (idle : Idle dev.nfc) : (sendAll powerOn requests lists dev).1.nfc = dev.nfc := by
  induction requests generalizing lists dev with
  | nil => rfl
  | cons first requests ih =>
      obtain ⟨hwecc, request⟩ := first
      cases sent : request.send powerOn (lists.headD []) (dev.withEcc hwecc) with
      | mk last rest =>
          obtain ⟨tries, done⟩ := rest
          rw [sendAll_cons idle sent]
          cases done with
          | false => rfl
          | true => exact @ih ⟨dev.nfc, last.regs⟩ _ idle

end

/-! ## Runs with and without timeouts -/

section

variable {steps : List Step} {op : Op}

theorem exec_eq (step : Step) (dev : Dev) : step.exec powerOn chip dev =
    sendAll powerOn (step.op.requests chip dev.nfc).2 step.timeouts
      ⟨(step.op.requests chip dev.nfc).1, dev.regs⟩ := rfl

theorem Tracks.requests (tracks : Tracks powerOn mtd failed dev quiet) :
    Tracks powerOn mtd failed ⟨(op.requests chip quiet.nfc).1, dev.regs⟩
      ⟨(op.requests chip quiet.nfc).1, quiet.regs⟩ := by
  have same := @requests_same chip quiet.nfc op
  refine ⟨rfl, tracks.settled, tracks.quietly, tracks.ecc, fun wrong => ?_⟩
  rw [same.eccCtrlReg, same.eccOffsetReg]
  exact tracks.reset wrong

theorem runSteps_restores_iff (tracks : Tracks powerOn chip.mtd failed dev quiet) (idle : Idle quiet.nfc) :
    List.Forall₂ LogAlike (runSteps powerOn chip steps dev).1
        (runSteps powerOn chip (steps.map Step.quiet) quiet).1 ↔
      AllHarmless powerOn chip.mtd quiet.nfc failed (runAttempts powerOn chip steps dev) := by
  induction steps generalizing failed dev quiet with
  | nil => exact ⟨fun _ => trivial, fun _ => List.Forall₂.nil⟩
  | cons step steps ih =>
      have same := @requests_same chip quiet.nfc step.op
      have idle' := idle.congr same
      obtain ⟨alike, next⟩ := @Tracks.sendAll _ _ _ _ _ (step.op.requests chip quiet.nfc).2 step.timeouts
        (@Tracks.requests _ _ chip _ _ _ step.op tracks) idle'
      have after : (sendAll powerOn (step.op.requests chip quiet.nfc).2 []
          ⟨(step.op.requests chip quiet.nfc).1, quiet.regs⟩).1.nfc = (step.op.requests chip quiet.nfc).1 :=
        sendAll_nfc idle'
      rw [allHarmless_congr same] at alike next
      simp only [runSteps, runAttempts, List.map_cons, exec_eq, Step.quiet, tracks.nfc, List.forall₂_cons,
        allHarmless_append]
      rw [alike]
      refine and_congr_right fun harmless => ?_
      rw [← after] at same idle'
      exact (ih (next harmless) idle').trans (allHarmless_congr same)

end

/-! ## Where hardware ECC is enabled -/

section

variable {requests : List (Bool × Request)} {lists : List (List Timeout)} {steps : List Step} {op : Op}

theorem tryTransfer_ctrl :
    ∀ regs ∈ (tryTransfer powerOn transfer left timeouts dev).2.1, regs .ctrl = transfer.ctrlReg := by
  rw [tryTransfer_eq, List.forall_mem_cons, List.forall_mem_replicate]
  exact ⟨startTransfer_regs.1, .inr startTransfer_regs.1⟩

theorem send_transfer_ctrl (is : request.isTransfer = true) :
    ∀ regs ∈ (request.send powerOn timeouts dev).2.1, regs .ctrl = dev.nfc.ctrlReg ||| ctrlIntEn := by
  obtain ⟨transfer, ctrl, send⟩ := @send_transfer powerOn request is dev.nfc
  rw [← ctrl, send timeouts dev.regs]
  exact tryTransfer_ctrl

theorem send_ecc_off (idle : Idle dev.nfc) (request : Request) :
    ∀ regs ∈ (request.send powerOn timeouts dev).2.1, regs .ctrl &&& ctrlEccEn = 0 := by
  intro regs member
  cases is : request.isTransfer with
  | true =>
      rw [send_transfer_ctrl is regs member, or_masked rfl]
      exact idle.off
  | false =>
      obtain ⟨ctrl, either, send⟩ := @send_plain powerOn request is dev.nfc
      obtain ⟨after, sent, ctrl', -⟩ := send timeouts dev.regs
      rw [sent, List.mem_singleton] at member
      rw [member, ctrl']
      rcases either with rfl | rfl
      · exact idle.off
      · exact idle.erase

theorem send_ecc_on (is : request.isTransfer = true) :
    ∀ regs ∈ (request.send powerOn timeouts (enableHwecc dev)).2.1, regs .ctrl &&& ctrlEccEn = ctrlEccEn := by
  intro regs member
  rw [send_transfer_ctrl is regs member, or_masked rfl]
  exact set_masked rfl

/-- Every request is sent with hardware ECC as it is asked for. -/
theorem sendAll_ecc (idle : Idle dev.nfc)
    (transfers : ∀ request, (true, request) ∈ requests → request.isTransfer = true) :
    ∀ sent ∈ (sendAll powerOn requests lists dev).2, ∃ hwecc, (hwecc, sent.request) ∈ requests ∧
      ∀ regs ∈ sent.tries, (regs .ctrl &&& ctrlEccEn ≠ 0 ↔ hwecc = true) := by
  induction requests generalizing lists dev with
  | nil => nofun
  | cons first requests ih =>
      obtain ⟨hwecc, request⟩ := first
      cases sent : request.send powerOn (lists.headD []) (dev.withEcc hwecc) with
      | mk last rest =>
          obtain ⟨tries, done⟩ := rest
          have tried : ∀ regs ∈ tries, (regs .ctrl &&& ctrlEccEn ≠ 0 ↔ hwecc = true) := by
            intro regs member
            have member' : regs ∈ (request.send powerOn (lists.headD []) (dev.withEcc hwecc)).2.1 := by
              rw [sent]
              exact member
            cases hwecc with
            | false =>
                rw [send_ecc_off idle request regs member']
                decide
            | true =>
                rw [send_ecc_on (transfers request List.mem_cons_self) regs member']
                decide
          rw [sendAll_cons idle sent]
          cases done with
          | false =>
              intro sent member
              rw [List.mem_singleton.mp member]
              exact ⟨hwecc, List.mem_cons_self, tried⟩
          | true =>
              intro sent member
              rcases List.mem_cons.mp member with rfl | later
              · exact ⟨hwecc, List.mem_cons_self, tried⟩
              · obtain ⟨flag, member', tried'⟩ := @ih ⟨dev.nfc, last.regs⟩ lists.tail idle
                  (fun request member => transfers request (List.mem_cons_of_mem _ member)) sent later
                exact ⟨flag, List.mem_cons_of_mem _ member', tried'⟩

/-- Hardware ECC is asked for where a page is read or written. -/
theorem requests_page (size : chip.mtd.writesize ≠ 0) {hwecc : Bool}
    (member : (hwecc, request) ∈ (op.requests chip nfc).2) :
    (hwecc = true ↔ op.pageRequest chip.mtd = some request) ∧ (hwecc = true → request.isTransfer = true) := by
  cases op with
  | cmdfunc command column pageAddr =>
      obtain ⟨request', -, same⟩ := List.mem_map.mp member
      cases same
      exact ⟨⟨nofun, nofun⟩, nofun⟩
  | buffer => cases member
  | readOob | writeOob | readPageRaw | writePageRaw =>
      cases List.mem_singleton.mp member
      exact ⟨⟨nofun, nofun⟩, nofun⟩
  | readPage oobRequired eccFailed page =>
      rcases List.mem_cons.mp member with first | oob
      · cases first
        exact ⟨⟨fun _ => rfl, fun _ => rfl⟩, fun _ => rfl⟩
      · split at oob
        · cases List.mem_singleton.mp oob
          refine ⟨⟨nofun, fun same => ?_⟩, nofun⟩
          simp only [Op.pageRequest, readOobRequest, Option.some.injEq, Request.read.injEq] at same
          exact absurd same.2.1.symm size
        · cases oob
  | writePage oob page =>
      rcases List.mem_append.mp member with first | last
      · split at first
        · cases List.mem_singleton.mp first
          refine ⟨⟨nofun, fun same => ?_⟩, nofun⟩
          simp only [Op.pageRequest, writeOobRequest, Option.some.injEq, Request.write.injEq] at same
          exact absurd same.2.1.symm size
        · cases first
      · cases List.mem_singleton.mp last
        exact ⟨⟨fun _ => rfl, fun _ => rfl⟩, fun _ => rfl⟩

theorem runSteps_ecc (size : chip.mtd.writesize ≠ 0) (idle : Idle dev.nfc) :
    EccForPages powerOn chip steps dev := by
  induction steps generalizing dev with
  | nil => exact List.Forall₂.nil
  | cons step steps ih =>
      have same := @requests_same chip dev.nfc step.op
      have idle' := idle.congr same
      have after : (step.exec powerOn chip dev).1.nfc = (step.op.requests chip dev.nfc).1 := by
        rw [exec_eq]
        exact sendAll_nfc idle'
      have log : ∀ sent ∈ (step.exec powerOn chip dev).2, ∀ regs ∈ sent.tries,
          (regs .ctrl &&& ctrlEccEn ≠ 0 ↔ step.op.pageRequest chip.mtd = some sent.request) := by
        intro sent member regs tried
        rw [exec_eq] at member
        obtain ⟨hwecc, member', ecc⟩ := sendAll_ecc idle'
          (fun request member => (requests_page size member).2 rfl) sent member
        exact (ecc regs tried).trans (requests_page size member').1
      rw [← after] at idle'
      exact List.Forall₂.cons log (ih idle')

end

/-! ## The attached device -/

section

variable {requests : List (Bool × Request)} {lists : List (List Timeout)} {steps : List Step} {after : Dev}
  {chipsize : UInt64} {buf : Option UInt32}

theorem send_settled (settled : Settled powerOn mtd dev.regs) (reset : SettledByReset powerOn mtd dev.nfc)
    (request : Request) : Settled powerOn mtd (request.send powerOn timeouts dev).1.regs := by
  have restarted := restart_initialized.settled_iff.mpr reset
  cases is : request.isTransfer with
  | true =>
      obtain ⟨transfer, -, send⟩ := @send_transfer powerOn request is dev.nfc
      rw [send timeouts dev.regs, tryTransfer_eq]
      simp only
      split
      · exact startTransfer_settled_iff.mpr settled
      · split
        · exact startTransfer_settled_iff.mpr restarted
        · exact restarted
  | false =>
      obtain ⟨ctrl, -, send⟩ := @send_plain powerOn request is dev.nfc
      obtain ⟨after, sent, -, kept⟩ := send timeouts dev.regs
      rw [sent]
      rw [configRegs, List.tail_cons, List.forall_mem_cons, List.forall_mem_cons] at kept
      exact settled.congr kept.2.2

theorem sendAll_settled (idle : Idle dev.nfc) (settled : Settled powerOn mtd dev.regs)
    (reset : SettledByReset powerOn mtd dev.nfc) :
    Settled powerOn mtd (sendAll powerOn requests lists dev).1.regs := by
  induction requests generalizing lists dev with
  | nil => exact settled
  | cons first requests ih =>
      obtain ⟨hwecc, request⟩ := first
      rw [← @withEcc_regs dev hwecc] at settled
      have reset' : SettledByReset powerOn mtd (dev.withEcc hwecc).nfc := by
        cases hwecc <;> exact reset
      have settled' := @send_settled powerOn mtd (dev.withEcc hwecc) (lists.headD []) settled reset' request
      cases sent : request.send powerOn (lists.headD []) (dev.withEcc hwecc) with
      | mk last rest =>
          obtain ⟨tries, done⟩ := rest
          rw [sent] at settled'
          rw [sendAll_cons idle sent]
          cases done with
          | false => exact settled'
          | true => exact @ih ⟨dev.nfc, last.regs⟩ _ idle settled' reset

/-- A run for a chip that is not attached yet, or whose settings a reset leaves. -/
theorem runSteps_settled (idle : Idle dev.nfc) (settled : Settled powerOn mtd dev.regs)
    (reset : SettledByReset powerOn mtd dev.nfc) :
    Settled powerOn mtd (runSteps powerOn chip steps dev).2.regs ∧
      (runSteps powerOn chip steps dev).2.nfc.smallPage = dev.nfc.smallPage := by
  induction steps generalizing dev with
  | nil => exact ⟨settled, rfl⟩
  | cons step steps ih =>
      have same := @requests_same chip dev.nfc step.op
      have idle' := idle.congr same
      have reset' : SettledByReset powerOn mtd (step.op.requests chip dev.nfc).1 := by
        rw [SettledByReset, same.smallPage]
        exact reset
      have next := @sendAll_settled powerOn mtd ⟨_, dev.regs⟩ (step.op.requests chip dev.nfc).2 step.timeouts
        idle' settled reset'
      have after : (step.exec powerOn chip dev).1.nfc = (step.op.requests chip dev.nfc).1 := by
        rw [exec_eq]
        exact sendAll_nfc idle'
      have small : (step.exec powerOn chip dev).1.nfc.smallPage = dev.nfc.smallPage := by
        rw [after]
        exact same.smallPage
      rw [← after] at idle' reset'
      obtain ⟨settled', small'⟩ := ih idle' next reset'
      exact ⟨settled', small'.trans small⟩

/-- The bits of the control word that hardware ECC changes. -/
def eccBits : UInt32 := ctrlEccEn ||| ctrlCustomSizeEn

theorem idle_of_bits (bits : nfc.ctrlReg &&& eccBits = ctrlCustomSizeEn)
    (count : (nfc.addrCount0 + 1) &&& ctrlEccEn = 0) : Idle nfc := by
  have off : nfc.ctrlReg &&& ctrlEccEn = 0 := by
    have part : eccBits &&& ctrlEccEn = ctrlEccEn := rfl
    rw [← part, ← UInt32.and_assoc, bits]
    rfl
  have custom : nfc.ctrlReg &&& ctrlCustomSizeEn = ctrlCustomSizeEn := by
    have part : eccBits &&& ctrlCustomSizeEn = ctrlCustomSizeEn := rfl
    rw [← part, ← UInt32.and_assoc, bits]
    rfl
  refine ⟨off, custom, ?_⟩
  unfold eraseCtrl
  split
  · rw [or_masked count]
    exact and_masked (and_masked (and_masked off))
  · exact off

/-- A chip with the spare size that a reset leaves. -/
def unknownMtd (powerOn : Regs) : Mtd := ⟨0, powerOn .spareSize, 0⟩

theorem probed_ready {before : Regs} {bufDma : UInt32} :
    Settled powerOn (unknownMtd powerOn) (probed powerOn before bufDma).regs ∧
      Idle (probed powerOn before bufDma).nfc ∧ (probed powerOn before bufDma).nfc.smallPage = false := by
  have small : (probed powerOn before bufDma).nfc.smallPage = false := by
    rw [probed, hwInit_nfc]
  refine ⟨hwInit_initialized.settled_iff.mpr ⟨rfl, nofun⟩, ?_, small⟩
  rw [probed, hwInit_nfc]
  exact idle_of_bits (show ctrlCustomSizeEn &&& eccBits = ctrlCustomSizeEn by decide)
    (show (0 + 1 : UInt32) &&& ctrlEccEn = 0 by decide)

theorem lookup_mem {α : Type} {key : UInt32} {value : α} {table : List (UInt32 × α)}
    (found : table.lookup key = some value) : (key, value) ∈ table := by
  obtain ⟨before, behind, rfl, -⟩ := List.lookup_eq_some_iff.mp found
  exact List.mem_append_right _ List.mem_cons_self

theorem addrCounts_bits (small : Bool) (chipsize : UInt64) : (addrCounts small chipsize).1 &&& eccBits = 0 ∧
    (addrCounts small chipsize).2 <<< (18 : UInt32) &&& eccBits = 0 ∧
      ((addrCounts small chipsize).1 + 1) &&& ctrlEccEn = 0 := by
  unfold addrCounts
  split_ifs <;> decide

theorem initTail_ready (accepted : initTail dev mtd chipsize buf = .ok after) :
    Idle after.nfc ∧ mtd.writesize ≠ 0 ∧
      (Settled powerOn (unknownMtd powerOn) dev.regs → Settled powerOn mtd after.regs) := by
  unfold initTail at accepted
  split at accepted
  · split at accepted
    · cases accepted
    · next block foundBlock =>
        split at accepted
        · cases accepted
        · next small page foundPage =>
            split at accepted
            · cases accepted
            · cases accepted
              obtain ⟨first, second, count⟩ := addrCounts_bits (dev.nfc.smallPage || small) chipsize
              have blocks : ∀ entry ∈ ctrlBlockSizes, entry.2 <<< (6 : UInt32) &&& eccBits = 0 :=
                List.forall_iff_forall_mem.mp (by decide)
              have pages : ∀ entry ∈ ctrlPageSizes,
                  entry.2.2 <<< (8 : UInt32) &&& eccBits = 0 ∧ entry.1 ≠ 0 :=
                List.forall_iff_forall_mem.mp (by decide)
              have block' := blocks _ (lookup_mem foundBlock)
              obtain ⟨page', size⟩ := pages _ (lookup_mem foundPage)
              refine ⟨idle_of_bits ?_ count, size, fun settled => ?_⟩
              · refine (or_masked second).trans ((or_masked first).trans ((or_masked ?_).trans
                  ((or_masked page').trans ((or_masked block').trans (by decide)))))
                split <;> decide
              · exact ⟨rfl, settled.timeSeq, settled.timingsAsyn, settled.timingsSyn, settled.memCtrl,
                  settled.dmaAddrOffs, settled.genSeqCtrl⟩
  · cases accepted

theorem attached_ready (attached : Attached powerOn chip dev) :
    Settled powerOn chip.mtd dev.regs ∧ Idle dev.nfc ∧ chip.mtd.writesize ≠ 0 := by
  obtain ⟨before, bufDma, unknown, scan, chipsize, buf, attached⟩ := attached
  obtain ⟨probed, idle, small⟩ := @probed_ready powerOn before bufDma
  have reset : SettledByReset powerOn (unknownMtd powerOn) (Ar934xNand.probed powerOn before bufDma).nfc := by
    rw [SettledByReset, small]
    exact ⟨rfl, nofun⟩
  obtain ⟨scanned, -⟩ := @runSteps_settled powerOn _ unknown _ scan idle probed reset
  unfold attachChip at attached
  split at attached
  · cases attached
  · next accepted =>
      obtain ⟨idle', size, settled⟩ := @initTail_ready powerOn _ _ _ _ _ accepted
      split at attached
      · obtain ⟨nfc, setup, rfl⟩ := Option.map_eq_some_iff.mp attached
        unfold setupHwecc at setup
        split at setup
        · cases setup
          exact ⟨settled scanned, ⟨idle'.off, idle'.custom, idle'.erase⟩, size⟩
        · cases setup
      · cases attached
        exact ⟨settled scanned, idle', size⟩

theorem Tracks.refl (settled : Settled powerOn mtd dev.regs) : Tracks powerOn mtd false dev dev :=
  ⟨rfl, settled, settled, fun _ => ⟨rfl, rfl⟩, nofun⟩

/-- Restarts are not seen in the configuration of the commands exactly if the reset leaves what they do
not bring back, where it matters. -/
theorem runSteps_restored_iff (attached : Attached powerOn chip dev) (steps : List Step) :
    Restores powerOn chip steps dev ∧ EccForPages powerOn chip steps dev ↔
      AllHarmless powerOn chip.mtd dev.nfc false (runAttempts powerOn chip steps dev) := by
  obtain ⟨settled, idle, size⟩ := attached_ready attached
  exact (and_iff_left (runSteps_ecc size idle)).trans (runSteps_restores_iff (Tracks.refl settled) idle)

end

/-- A chip with pages of 2048 bytes and hardware ECC. -/
def largeChip : Chip := ⟨⟨2048, 64, 131072⟩, .hw⟩

/-- A controller whose registers are 0 behind a reset. -/
def zeroRegs : Regs := fun _ => 0

/-- `largeChip` as it is attached behind the commands that identify it. -/
def largeDev : Option Dev :=
  attachChip (runSteps zeroRegs ⟨⟨0, 0, 0⟩, .hw⟩
    [⟨.cmdfunc NAND_CMD_RESET 0xffffffff 0xffffffff, []⟩, ⟨.cmdfunc NAND_CMD_READID 0 0xffffffff, []⟩]
    (probed zeroRegs zeroRegs 0x1000)).2 largeChip 0x8000000 (some 0x2000)

theorem runSteps_restored_iff_large : ∃ dev, largeDev = some dev ∧
    (Restores zeroRegs largeChip [⟨.readPage false false 3, []⟩] dev ∧
      EccForPages zeroRegs largeChip [⟨.readPage false false 3, []⟩] dev ↔
        AllHarmless zeroRegs largeChip.mtd dev.nfc false
          (runAttempts zeroRegs largeChip [⟨.readPage false false 3, []⟩] dev)) := by
  have found : largeDev.isSome = true := by decide +kernel
  obtain ⟨dev, attached⟩ := Option.isSome_iff_exists.mp found
  exact ⟨dev, attached, runSteps_restored_iff ⟨_, _, _, _, _, _, attached⟩ _⟩

/-- A page is read behind one timeout: the second try is made without the spare size. -/
theorem runSteps_spare_lost : ∃ dev, largeDev = some dev ∧ Attached zeroRegs largeChip dev ∧
    ¬ Restores zeroRegs largeChip [⟨.readPage false false 3, [[.irq]]⟩] dev := by
  have found : largeDev.isSome = true := by decide +kernel
  obtain ⟨dev, attached⟩ := Option.isSome_iff_exists.mp found
  have attached' : Attached zeroRegs largeChip dev := ⟨_, _, _, _, _, _, attached⟩
  obtain ⟨settled, idle, -⟩ := attached_ready attached'
  refine ⟨dev, attached, attached', fun restores => ?_⟩
  obtain ⟨first, -⟩ := (runSteps_restores_iff (Tracks.refl settled) idle).mp restores
  exact absurd (first (List.cons_ne_nil _ _)).1 (by decide)

end Rut9xx.Ar934xNand
