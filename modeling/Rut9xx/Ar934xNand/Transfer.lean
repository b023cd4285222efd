import Rut9xx.Ar934xNand.Address

namespace Rut9xx.Ar934xNand

/-! # Commands and restarts of the NAND controller -/

section

/-- `AR934X_NFC_DMA_RETRIES` -/
def dmaRetries : Nat := 20

/-- `AR934X_NFC_GENSEQ_SMALL_PAGE_READ` -/
def genSeqSmallPageRead : UInt32 := 0x30043

/-- `ar934x_nfc_hw_init`; the reset leaves `powerOn` in the registers. -/
def hwInit (powerOn : Regs) (dev : Dev) : Dev :=
  let dev := { dev with regs := powerOn }
  let dev := ((dev.wr .timeSeq 0x7fff).wr .timingsAsyn 0x22).wr .timingsSyn 0xf
  -- disable WP on all chips, and select chip 0
  let dev := (dev.wr .memCtrl 0xff00).wr .dmaAddrOffs 0
  let dev := { dev with nfc := { dev.nfc with ctrlReg := ctrlCustomSizeEn } }.wr .ctrl ctrlCustomSizeEn
  if dev.nfc.smallPage then dev.wr .genSeqCtrl genSeqSmallPageRead else dev

/-- `ar934x_nfc_send_cmd`, as its command word is written. -/
def sendCmd (dev : Dev) (command : UInt32) : Dev :=
  ((dev.wr .intStatus 0).wr .ctrl dev.nfc.ctrlReg).wr .cmd ((command &&& 0xff) <<< (8 : UInt32))

/-- `ar934x_nfc_restart` -/
def restart (powerOn : Regs) (dev : Dev) : Dev :=
  let ctrlReg := dev.nfc.ctrlReg
  let dev := hwInit powerOn dev
  sendCmd { dev with nfc := { dev.nfc with ctrlReg := ctrlReg } } NAND_CMD_RESET

/-- How `ar934x_nfc_wait_done` fails. -/
inductive Timeout where
  | irq
  | dma

/-- What a failed wait leaves: an interrupt that does not come is masked. -/
def Timeout.wait (dev : Dev) : Timeout → Dev
  | .irq => (dev.wr .intMask 0).wr .intStatus 0
  | .dma => dev

/-- What `ar934x_nfc_do_rw_command` works out before its first try. -/
structure Transfer where
  addr : UInt32 × UInt32
  len : UInt32
  cmdReg : UInt32
  ctrlReg : UInt32
  dmaCtrl : UInt32

/-- A try, as its command word is written. -/
def startTransfer (dev : Dev) (transfer : Transfer) : Dev :=
  let dev := ((dev.wr .intStatus 0).wr .addr00 transfer.addr.1).wr .addr01 transfer.addr.2
  let dev := ((dev.wr .dmaAddr dev.nfc.bufDma).wr .dmaCount transfer.len).wr .dataSize transfer.len
  let dev := (dev.wr .ctrl transfer.ctrlReg).wr .dmaCtrl transfer.dmaCtrl
  let dev := (dev.wr .eccCtrl dev.nfc.eccCtrlReg).wr .eccOffset dev.nfc.eccOffsetReg
  (dev.wr .intMask 0x10).wr .cmd transfer.cmdReg

/-- The loop at `retry`, for the retries that are left: the registers at each try, and whether the
last one was successful. -/
def tryTransfer (powerOn : Regs) (transfer : Transfer) : Nat → List Timeout → Dev →
    Dev × List Regs × Bool
  | _, [], dev =>
      let dev := startTransfer dev transfer
      (dev, [dev.regs], true)
  | 0, timeout :: _, dev =>
      let dev := startTransfer dev transfer
      (restart powerOn (timeout.wait dev), [dev.regs], false)
  | left + 1, timeout :: timeouts, dev =>
      let dev := startTransfer dev transfer
      let (last, tries, done) :=
        tryTransfer powerOn transfer left timeouts (restart powerOn (timeout.wait dev))
      (last, dev.regs :: tries, done)

/-- `ar934x_nfc_do_rw_command`, with the timeouts of its tries. -/
def doRwCommand (powerOn : Regs) (timeouts : List Timeout) (dev : Dev)
    (column pageAddr len cmdReg ctrlReg : UInt32) (write : Bool) : Dev × List Regs × Bool :=
  tryTransfer powerOn
    { addr := getAddr dev.nfc column pageAddr
      len := len
      cmdReg := cmdReg ||| 0x40
      ctrlReg := ctrlReg ||| ctrlIntEn
      dmaCtrl := (if write then 0 else 0x40) ||| 0x8c }
    dmaRetries timeouts dev

def sendReadid (powerOn : Regs) (timeouts : List Timeout) (dev : Dev) (command : UInt32) :
    Dev × List Regs × Bool :=
  doRwCommand powerOn timeouts dev 0xffffffff 0xffffffff 8
    (0x21 ||| (command &&& 0xff) <<< (8 : UInt32)) dev.nfc.ctrlReg false

def sendRead (powerOn : Regs) (timeouts : List Timeout) (dev : Dev)
    (command column pageAddr len : UInt32) : Dev × List Regs × Bool :=
  doRwCommand powerOn timeouts dev column pageAddr len
    ((command &&& 0xff) <<< (8 : UInt32) |||
      if dev.nfc.smallPage then 0x32 else NAND_CMD_READSTART <<< (16 : UInt32) ||| 0x2a)
    dev.nfc.ctrlReg false

/-- The control word of an erase command. -/
def eraseCtrl (nfc : Nfc) : UInt32 :=
  if nfc.smallPage then
    -- override number of address cycles for the erase command
    nfc.ctrlReg &&& ~~~(7 : UInt32) &&& ~~~((7 : UInt32) <<< (18 : UInt32)) &&& ~~~ctrlSmallPage |||
      (nfc.addrCount0 + 1)
  else nfc.ctrlReg

def sendErase (dev : Dev) (command column pageAddr : UInt32) : Dev :=
  let addr := getAddr dev.nfc column pageAddr
  let dev := ((dev.wr .intStatus 0).wr .ctrl (eraseCtrl dev.nfc)).wr .addr00 addr.1
  (dev.wr .addr01 addr.2).wr .cmd
    (NAND_CMD_ERASE1 <<< (8 : UInt32) ||| command <<< (16 : UInt32) ||| 0x0e)

def sendWrite (powerOn : Regs) (timeouts : List Timeout) (dev : Dev)
    (command column pageAddr len : UInt32) : Dev × List Regs × Bool :=
  doRwCommand powerOn timeouts dev column pageAddr len
    (NAND_CMD_SEQIN <<< (8 : UInt32) ||| command <<< (16 : UInt32) ||| 0x0c) dev.nfc.ctrlReg true

def readStatus (dev : Dev) : Dev :=
  ((dev.wr .intStatus 0).wr .ctrl dev.nfc.ctrlReg).wr .cmd
    (NAND_CMD_STATUS <<< (8 : UInt32) ||| 0x24)

/-- The device after a request, the registers at each try of it, and whether it was successful. -/
def Request.send (powerOn : Regs) (timeouts : List Timeout) (dev : Dev) :
    Request → Dev × List Regs × Bool
  | .cmd command =>
      let dev := sendCmd dev command
      (dev, [dev.regs], true)
  | .readid command => sendReadid powerOn timeouts dev command
  | .read command column pageAddr len => sendRead powerOn timeouts dev command column pageAddr len
  | .erase command column pageAddr =>
      let dev := sendErase dev command column pageAddr
      (dev, [dev.regs], true)
  | .write command column pageAddr len => sendWrite powerOn timeouts dev command column pageAddr len
  | .status =>
      let dev := readStatus dev
      (dev, [dev.regs], true)

end

/-! ## Operations -/

section

/-- `ar934x_nfc_enable_hwecc` -/
def enableHwecc (dev : Dev) : Dev :=
  { dev with nfc := { dev.nfc with ctrlReg := (dev.nfc.ctrlReg ||| ctrlEccEn) &&& ~~~ctrlCustomSizeEn } }

/-- `ar934x_nfc_disable_hwecc` -/
def disableHwecc (dev : Dev) : Dev :=
  { dev with nfc := { dev.nfc with ctrlReg := dev.nfc.ctrlReg &&& ~~~ctrlEccEn ||| ctrlCustomSizeEn } }

/-- A call of one of the functions that the driver has for a chip.  `eccFailed` is what the controller
says of a page that was read, and a page is written with its OOB area if that is asked for and has
something else than 0xff in it. -/
inductive Op where
  | cmdfunc (command column pageAddr : UInt32)
  /-- `ar934x_nfc_read_byte`, `ar934x_nfc_read_buf` or `ar934x_nfc_write_buf` -/
  | buffer (len : UInt32)
  | readOob (page : UInt32)
  | writeOob (page : UInt32)
  | readPageRaw (oobRequired : Bool) (page : UInt32)
  | writePageRaw (oobRequired : Bool) (page : UInt32)
  | readPage (oobRequired eccFailed : Bool) (page : UInt32)
  | writePage (oob : Bool) (page : UInt32)

/-- The page of `ar934x_nfc_read_page` or of `ar934x_nfc_write_page`. -/
def Op.pageRequest (mtd : Mtd) : Op → Option Request
  | .readPage _ _ page => some (.read NAND_CMD_READ0 0 page mtd.writesize)
  | .writePage _ page => some (.write NAND_CMD_PAGEPROG 0 page mtd.writesize)
  | _ => none

/-- What an operation does to the driver before it sends anything, and its requests in their order,
each with whether it is sent with hardware ECC.  It returns at the first one that fails. -/
def Op.requests (chip : Chip) (nfc : Nfc) : Op → Nfc × List (Bool × Request)
  | .cmdfunc command column pageAddr =>
      let (nfc, requests) := Ar934xNand.cmdfunc chip nfc command column pageAddr
      (nfc, requests.map fun request => (false, request))
  | .buffer len => ({ nfc with bufIndex := nfc.bufIndex + len }, [])
  | .readOob page => (nfc, [(false, readOobRequest chip.mtd page)])
  | .writeOob page => (nfc, [(false, writeOobRequest chip.mtd page)])
  | .readPageRaw oobRequired page => (nfc, [(false, readPageRawRequest chip.mtd oobRequired page)])
  | .writePageRaw oobRequired page => (nfc, [(false, writePageRawRequest chip.mtd oobRequired page)])
  | .readPage oobRequired eccFailed page =>
      (nfc, (true, .read NAND_CMD_READ0 0 page chip.mtd.writesize) ::
        if oobRequired || eccFailed then [(false, readOobRequest chip.mtd page)] else [])
  | .writePage oob page =>
      -- write OOB first
      (nfc, (if oob then [(false, writeOobRequest chip.mtd page)] else []) ++
        [(true, .write NAND_CMD_PAGEPROG 0 page chip.mtd.writesize)])

/-- A command of an operation, with the registers at each try. -/
structure Sent where
  request : Request
  tries : List Regs

/-- The requests of an operation, with the timeouts of each. -/
def sendAll (powerOn : Regs) : List (Bool × Request) → List (List Timeout) → Dev → Dev × List Sent
  | [], _, dev => (dev, [])
  | (hwecc, request) :: requests, timeouts, dev =>
      let dev := if hwecc then enableHwecc dev else dev
      let (dev, tries, done) := request.send powerOn (timeouts.headD []) dev
      let dev := if hwecc then disableHwecc dev else dev
      let (last, log) := if done then sendAll powerOn requests timeouts.tail dev else (dev, [])
      (last, ⟨request, tries⟩ :: log)

/-- An operation, and the timeouts of each of its requests. -/
structure Step where
  op : Op
  timeouts : List (List Timeout)

def Step.exec (powerOn : Regs) (chip : Chip) (dev : Dev) (step : Step) : Dev × List Sent :=
  let (nfc, requests) := step.op.requests chip dev.nfc
  sendAll powerOn requests step.timeouts { dev with nfc := nfc }

/-- A run: the commands of each operation, and the device behind it. -/
def runSteps (powerOn : Regs) (chip : Chip) : List Step → Dev → List (List Sent) × Dev
  | [], dev => ([], dev)
  | step :: steps, dev =>
      let (next, log) := step.exec powerOn chip dev
      let (logs, last) := runSteps powerOn chip steps next
      (log :: logs, last)

end

/-! ## The device as it is attached -/

section

/-- `ar934x_nfc_setup_hwecc` -/
def setupHwecc (nfc : Nfc) (mtd : Mtd) : Option Nfc :=
  if mtd.writesize = 2048 then
    some { nfc with
      -- AR934X_NFC_ECC_CTRL_ECC_CAP_4 and a threshold of 4
      eccCtrlReg := 1 <<< (5 : UInt32) ||| 4 <<< (8 : UInt32), eccOffsetReg := mtd.writesize + 20 }
  else none

/-- `ar934x_nfc_attach_chip` -/
def attachChip (dev : Dev) (chip : Chip) (chipsize : UInt64) (buf : Option UInt32) : Option Dev :=
  match initTail dev chip.mtd chipsize buf with
  | .error _ => none
  | .ok dev =>
      match chip.eccMode with
      | .hw => (setupHwecc dev.nfc chip.mtd).map fun nfc => { dev with nfc := nfc }
      | .soft => some dev

/-- What `ar934x_nfc_probe` has set up before it looks for the chip. -/
def probed (powerOn before : Regs) (bufDma : UInt32) : Dev :=
  hwInit powerOn
    { nfc :=
        { ctrlReg := 0, eccCtrlReg := 0, eccOffsetReg := 0, smallPage := false, addrCount0 := 0
          addrCount1 := 0, bufDma := bufDma, bufSize := 8, bufIndex := 0, readId := false
          erase1PageAddr := 0, rndoutPageAddr := 0, rndoutReadCmd := 0, seqinPageAddr := 0
          seqinColumn := 0, seqinReadCmd := 0 }
      regs := before }

/-- A chip is attached behind any commands that look for it, as `nand_scan` sends them. -/
def Attached (powerOn : Regs) (chip : Chip) (dev : Dev) : Prop :=
  ∃ before bufDma unknown scan chipsize buf,
    attachChip (runSteps powerOn unknown scan (probed powerOn before bufDma)).2 chip chipsize buf = some dev

end

end Rut9xx.Ar934xNand
