import Mathlib.Data.List.Basic
import Mathlib.Data.UInt

namespace Rut9xx.Switch.Smi

/-! # Registers over two wires (`rtl8366_smi.c`)

The driver moves two pins.  A switch sees the edges of the clock and the changes of the data line while
the clock is high; while the driver does not drive the data line, it has the level that the switch
gives it. -/

inductive BusEvent where
  | start
  | stop
  | rise (sda : Bool)
  | fall

/-- Something on the other end of the wires. -/
structure Slave (Chip : Type) where
  next : Chip → BusEvent → Chip
  drives : Chip → Bool

/-- The pins, `sda` with a level as long as it is an output. -/
structure Wires (Chip : Type) where
  sck : Bool
  sda : Option Bool
  chip : Chip

inductive SmiError where
  | timedOut
  deriving DecidableEq

section Driver

variable {Chip : Type} (slave : Slave Chip) (wires : Wires Chip)

/-- The level of the data line. -/
def Wires.line : Bool := wires.sda.getD (slave.drives wires.chip)

def setSck (value : Bool) : Wires Chip :=
  match wires.sck, value with
  | false, true => { wires with sck := true, chip := slave.next wires.chip (.rise (wires.line slave)) }
  | true, false => { wires with sck := false, chip := slave.next wires.chip .fall }
  | _, _ => wires

/-- `none` makes the pin an input. -/
def setSda (value : Option Bool) : Wires Chip :=
  let after := { wires with sda := value }
  match wires.sck, wires.line slave, after.line slave with
  | true, true, false => { after with chip := slave.next wires.chip .start }
  | true, false, true => { after with chip := slave.next wires.chip .stop }
  | _, _, _ => after

def smiStart : Wires Chip :=
  let wires := setSck slave wires false
  let wires := setSda slave wires (some true)
  -- CLK 1: 0 -> 1, 1 -> 0
  let wires := setSck slave wires true
  let wires := setSck slave wires false
  -- CLK 2
  let wires := setSck slave wires true
  let wires := setSda slave wires (some false)
  let wires := setSck slave wires false
  setSda slave wires (some true)

def smiStop : Wires Chip :=
  let wires := setSda slave wires (some false)
  let wires := setSck slave wires true
  let wires := setSda slave wires (some true)
  let wires := setSck slave wires true
  let wires := setSck slave wires false
  let wires := setSck slave wires true
  -- add a click
  let wires := setSck slave wires false
  let wires := setSck slave wires true
  -- set GPIO pins to input mode
  let wires := setSda slave wires none
  setSck slave wires true

def writeBits (data : UInt32) : Nat → Wires Chip → Wires Chip
  | 0, wires => wires
  | len + 1, wires =>
      let wires := setSda slave wires (some (data.toNat.testBit len))
      let wires := setSck slave wires true
      writeBits data len (setSck slave wires false)

/-- The clocking of `rtl8366_smi_read_bits`. -/
def clockIn : Nat → Wires Chip → UInt32 → Wires Chip × UInt32
  | 0, wires, data => (wires, data)
  | len + 1, wires, data =>
      let wires := setSck slave wires true
      let u : UInt32 := if wires.line slave then 1 else 0
      clockIn len (setSck slave wires false) (data ||| u <<< UInt32.ofNat len)

def readBits (len : Nat) : Wires Chip × UInt32 :=
  let wires := setSda slave wires none
  let (wires, data) := clockIn slave len wires 0
  (setSda slave wires (some false), data)

/-- The number is how often the acknowledgement may be missing once more; there is none when it was
given. -/
def waitForAck : Nat → Wires Chip → Wires Chip × Option SmiError
  | retries, wires =>
      let (wires, ack) := readBits slave wires 1
      if ack = 0 then (wires, none)
      else
        match retries with
        | 0 => (wires, some .timedOut)
        | retries + 1 => waitForAck retries wires

def ackRetryCount : Nat := 5

def writeByte (data : UInt8) : Wires Chip × Option SmiError :=
  waitForAck slave ackRetryCount (writeBits slave data.toUInt32 8 wires)

def writeByteNoack (data : UInt8) : Wires Chip × Option SmiError :=
  (writeBits slave data.toUInt32 8 wires, none)

/-- `rtl8366_smi_read_byte0` and `rtl8366_smi_read_byte1`, which differ in the bit that they send. -/
def readByte (ack : UInt32) : Wires Chip × UInt8 :=
  let (wires, t) := readBits slave wires 8
  (writeBits slave ack 1 wires, t.toUInt8)

/-- The commands of a family of switches. -/
structure SmiCommands where
  cmdRead : UInt8
  cmdWrite : UInt8

variable (commands : SmiCommands)

/-- The bytes go out one after the other, up to one that is not acknowledged. -/
def writeBytes : List UInt8 → Wires Chip → Wires Chip × Option SmiError
  | [], wires => (wires, none)
  | data :: rest, wires =>
      match writeByte slave wires data with
      | (wires, some error) => (wires, some error)
      | (wires, none) => writeBytes rest wires

def addrBytes (addr : UInt32) : List UInt8 := [addr.toUInt8, (addr >>> 8).toUInt8]

def smiReadReg (addr : UInt32) : Wires Chip × Except SmiError UInt32 :=
  match writeBytes slave (commands.cmdRead :: addrBytes addr) (smiStart slave wires) with
  | (wires, some error) => (smiStop slave wires, .error error)
  | (wires, none) =>
      let (wires, lo) := readByte slave wires 0x00
      let (wires, hi) := readByte slave wires 0x01
      (smiStop slave wires, .ok (lo.toUInt32 ||| hi.toUInt32 <<< 8))

def smiWriteReg (addr data : UInt32) (ack : Bool) : Wires Chip × Except SmiError Unit :=
  match writeBytes slave (commands.cmdWrite :: addrBytes addr ++ [data.toUInt8])
      (smiStart slave wires) with
  | (wires, some error) => (smiStop slave wires, .error error)
  | (wires, none) =>
      let last := (data >>> 8).toUInt8
      let (wires, error) := if ack then writeByte slave wires last else writeByteNoack slave wires last
      (smiStop slave wires, match error with | some error => .error error | none => .ok ())

def smiRmwr (addr mask data : UInt32) : Wires Chip × Except SmiError Unit :=
  match smiReadReg slave wires commands addr with
  | (wires, .error error) => (wires, .error error)
  | (wires, .ok t) => smiWriteReg slave wires commands addr (t &&& ~~~mask ||| data) true

end Driver

/-! ## A switch on the bus

It takes a bit at each rising edge and goes on at the falling one.  After a byte it keeps the driver
waiting for some clocks before it acknowledges, and a word is in its register as soon as the second
byte of it is complete. -/

/-- The registers, and for every acknowledgement to come the clocks before it. -/
structure Registers where
  regs : UInt16 → UInt16
  waits : Nat → Nat

inductive Phase where
  | idle
  | started
  | taking (got : List UInt8) (left acc : Nat)
  | acking (got : List UInt8) (wait : Nat)
  | giving (byte : UInt8) (rest : List UInt8) (left : Nat)
  | checking (rest : List UInt8)

structure SmiChip where
  registers : Registers
  phase : Phase
  sampled : Bool

def word (lo hi : UInt8) : UInt16 := UInt16.ofNat (lo.toNat + 256 * hi.toNat)

def loByte (value : UInt16) : UInt8 := value.toUInt8

def hiByte (value : UInt16) : UInt8 := (value >>> 8).toUInt8

def Registers.waited (registers : Registers) : Registers :=
  { registers with waits := fun i => registers.waits (i + 1) }

def Registers.store (registers : Registers) (addr value : UInt16) : Registers :=
  { registers with regs := Function.update registers.regs addr value }

section Chip

variable (commands : SmiCommands)

def Registers.take (registers : Registers) : List UInt8 → Registers
  | [cmd, lo, hi, dataLo, dataHi] =>
      if cmd = commands.cmdWrite then registers.store (word lo hi) (word dataLo dataHi) else registers
  | _ => registers

/-- Where an acknowledged byte leaves the switch. -/
def Registers.follow (registers : Registers) : List UInt8 → Phase
  | [cmd, lo, hi] =>
      if cmd = commands.cmdRead then
        .giving (loByte (registers.regs (word lo hi))) [hiByte (registers.regs (word lo hi))] 7
      else .taking [cmd, lo, hi] 7 0
  | got => if got.length < 5 then .taking got 7 0 else .idle

def Registers.waitOn (registers : Registers) (got : List UInt8) : Nat → Phase
  | 0 => registers.follow commands got
  | wait + 1 => .acking got wait

/-- The driver asks for another byte with a low bit. -/
def giveOn (sampled : Bool) : List UInt8 → Phase
  | [] => .idle
  | byte :: rest => if sampled then .idle else .giving byte rest 7

/-- A first byte that is no command is not answered. -/
def SmiChip.complete (chip : SmiChip) (got : List UInt8) : SmiChip :=
  if got.head? = some commands.cmdRead ∨ got.head? = some commands.cmdWrite then
    { chip with
      registers := (chip.registers.take commands got).waited
      phase := .acking got (chip.registers.waits 0) }
  else { chip with phase := .idle }

def SmiChip.advance (chip : SmiChip) : SmiChip :=
  match chip.phase with
  | .idle => chip
  | .started => { chip with phase := .taking [] 7 0 }
  | .taking got 0 acc =>
      chip.complete commands (got ++ [UInt8.ofNat (2 * acc + chip.sampled.toNat)])
  | .taking got (left + 1) acc =>
      { chip with phase := .taking got left (2 * acc + chip.sampled.toNat) }
  | .acking got wait => { chip with phase := chip.registers.waitOn commands got wait }
  | .giving _ rest 0 => { chip with phase := .checking rest }
  | .giving byte rest (left + 1) => { chip with phase := .giving byte rest left }
  | .checking rest => { chip with phase := giveOn chip.sampled rest }

def smiSlave : Slave SmiChip where
  next chip
    | .start => { chip with phase := .started }
    | .stop => { chip with phase := .idle }
    | .rise sda => { chip with sampled := sda }
    | .fall => chip.advance commands
  drives chip :=
    match chip.phase with
    | .acking _ 0 => false
    | .giving byte _ left => byte.toNat.testBit left
    | _ => true

end Chip

/-! ## A plain file of registers -/

inductive Access where
  | read (addr : UInt32)
  | write (addr data : UInt32)
  | writeNoack (addr data : UInt32)
  | rmwr (addr mask data : UInt32)

/-- Whether the next acknowledgements all come before the driver has given up waiting. -/
def Registers.answers (registers : Registers) : Nat → Registers × Bool
  | 0 => (registers, true)
  | bytes + 1 =>
      if registers.waits 0 ≤ ackRetryCount then registers.waited.answers bytes
      else (registers.waited, false)

def Registers.readAt (registers : Registers) (addr : UInt32) : Registers × Except SmiError UInt32 :=
  match registers.answers 3 with
  | (after, true) => (after, .ok (after.regs addr.toUInt16).toUInt32)
  | (after, false) => (after, .error .timedOut)

/-- The word is stored even when only its last byte is not acknowledged in time. -/
def Registers.writeAt (registers : Registers) (addr data : UInt32) (ack : Bool) :
    Registers × Except SmiError Unit :=
  match registers.answers 4 with
  | (after, false) => (after, .error .timedOut)
  | (after, true) =>
      match (after.store addr.toUInt16 data.toUInt16).answers 1 with
      | (stored, acked) => (stored, if ack && !acked then .error .timedOut else .ok ())

def Registers.rmwrAt (registers : Registers) (addr mask data : UInt32) :
    Registers × Except SmiError Unit :=
  match registers.readAt addr with
  | (after, .error error) => (after, .error error)
  | (after, .ok t) => after.writeAt addr (t &&& ~~~mask ||| data) true

def Registers.perform (registers : Registers) : Access → Registers × Except SmiError (Option UInt32)
  | .read addr => (registers.readAt addr).map id (Except.map some)
  | .write addr data => (registers.writeAt addr data true).map id (Except.map fun _ => none)
  | .writeNoack addr data => (registers.writeAt addr data false).map id (Except.map fun _ => none)
  | .rmwr addr mask data => (registers.rmwrAt addr mask data).map id (Except.map fun _ => none)

def Registers.performAll (registers : Registers) :
    List Access → Registers × List (Except SmiError (Option UInt32))
  | [] => (registers, [])
  | access :: rest =>
      let (after, result) := registers.perform access
      (after.performAll rest).map id (result :: ·)

section Driver

variable {Chip : Type} (slave : Slave Chip) (commands : SmiCommands) (wires : Wires Chip)

/-- The same access over the wires. -/
def smiAccess : Access → Wires Chip × Except SmiError (Option UInt32)
  | .read addr => (smiReadReg slave wires commands addr).map id (Except.map some)
  | .write addr data =>
      (smiWriteReg slave wires commands addr data true).map id (Except.map fun _ => none)
  | .writeNoack addr data =>
      (smiWriteReg slave wires commands addr data false).map id (Except.map fun _ => none)
  | .rmwr addr mask data =>
      (smiRmwr slave wires commands addr mask data).map id (Except.map fun _ => none)

def smiAccesses : List Access → Wires Chip → Wires Chip × List (Except SmiError (Option UInt32))
  | [], wires => (wires, [])
  | access :: rest, wires =>
      let (after, result) := smiAccess slave commands wires access
      (smiAccesses rest after).map id (result :: ·)

end Driver

/-! ## Single edges -/

structure Held (wires : Wires SmiChip) (phase : Phase) (registers : Registers) : Prop where
  low : wires.sck = false
  phase : wires.chip.phase = phase
  registers : wires.chip.registers = registers

structure Resting (wires : Wires SmiChip) (registers : Registers) : Prop where
  high : wires.sck = true
  released : wires.sda = none
  phase : wires.chip.phase = .idle
  registers : wires.chip.registers = registers

section Edges

variable {commands : SmiCommands} {wires : Wires SmiChip} {phase : Phase} {registers : Registers}
  {got rest : List UInt8} {byte : UInt8} {left wait retries : Nat}

theorem setSda_low {Chip : Type} {slave : Slave Chip} {wires : Wires Chip} (low : wires.sck = false)
    (value : Option Bool) : setSda slave wires value = { wires with sda := value } := by
  simp [setSda, low]

theorem Held.sda (held : Held wires phase registers) (value : Option Bool) :
    Held { wires with sda := value } phase registers := ⟨held.low, held.phase, held.registers⟩

theorem line_risen (low : wires.sck = false) :
    (setSck (smiSlave commands) wires true).line (smiSlave commands) =
      wires.line (smiSlave commands) := by
  obtain ⟨sck, sda, chip⟩ := wires
  cases low
  rfl

theorem pulse (low : wires.sck = false) :
    setSck (smiSlave commands) (setSck (smiSlave commands) wires true) false =
      { wires with
        chip := SmiChip.advance commands
          { wires.chip with sampled := wires.line (smiSlave commands) } } := by
  obtain ⟨sck, sda, chip⟩ := wires
  cases low
  rfl

variable (commands) in
theorem smiStart_held (resting : Resting wires registers) :
    Held (smiStart (smiSlave commands) wires) (.taking [] 7 0) registers := by
  obtain ⟨sck, sda, ⟨registers, phase, sampled⟩⟩ := wires
  obtain ⟨high, released, idle, same⟩ := resting
  cases high
  cases released
  cases idle
  cases same
  exact ⟨rfl, rfl, rfl⟩

theorem smiStop_resting (held : Held wires phase registers) :
    Resting (smiStop (smiSlave commands) wires) registers := by
  obtain ⟨sck, sda, ⟨registers, phase, sampled⟩⟩ := wires
  obtain ⟨low, -, same⟩ := held
  cases low
  cases same
  exact ⟨rfl, rfl, rfl, rfl⟩

/-! ## Bits and bytes -/

theorem halved_twice (data left : Nat) :
    2 * (data / 2 ^ (left + 1)) + (data.testBit left).toNat = data / 2 ^ left := by
  rw [Nat.pow_succ, ← Nat.div_div_eq_div_mul, Nat.toNat_testBit]
  exact Nat.div_add_mod _ 2

variable (commands) in
theorem writeBits_taken (data : UInt32)
    (held : Held wires (.taking got left (data.toNat / 2 ^ (left + 1))) registers) :
    ∃ chip : SmiChip, chip.registers = registers ∧
      (writeBits (smiSlave commands) data (left + 1) wires).sck = false ∧
      (writeBits (smiSlave commands) data (left + 1) wires).chip =
        chip.complete commands (got ++ [UInt8.ofNat data.toNat]) := by
  induction left generalizing wires with
  | zero =>
      have low := (held.sda (some (data.toNat.testBit 0))).low
      rw [writeBits, setSda_low held.low, pulse low, writeBits]
      refine ⟨{ wires.chip with sampled := data.toNat.testBit 0 }, held.registers, held.low, ?_⟩
      have whole := halved_twice data.toNat 0
      rw [Nat.pow_zero, Nat.div_one] at whole
      simp only [SmiChip.advance, held.phase, Wires.line, Option.getD_some, whole]
  | succ left ih =>
      have low := (held.sda (some (data.toNat.testBit (left + 1)))).low
      rw [writeBits, setSda_low held.low, pulse low]
      apply ih
      refine ⟨held.low, ?_, ?_⟩
      · simp [SmiChip.advance, held.phase, Wires.line, halved_twice]
      · simp [SmiChip.advance, held.phase, held.registers]

/-- Commands are answered. -/
def SmiCommands.Known (commands : SmiCommands) (got : List UInt8) : Prop :=
  got.head? = some commands.cmdRead ∨ got.head? = some commands.cmdWrite

theorem writeByte_acking (held : Held wires (.taking got 7 0) registers)
    (known : commands.Known (got ++ [byte])) :
    Held (writeBits (smiSlave commands) byte.toUInt32 8 wires)
      (.acking (got ++ [byte]) (registers.waits 0))
      (registers.take commands (got ++ [byte])).waited := by
  have small : byte.toUInt32.toNat / 2 ^ (7 + 1) = 0 := Nat.div_eq_of_lt (by simpa using byte.toNat_lt)
  rw [← small] at held
  obtain ⟨chip, same, low, after⟩ := writeBits_taken commands byte.toUInt32 held
  have known : (got ++ [UInt8.ofNat byte.toUInt32.toNat]).head? = some commands.cmdRead ∨
      (got ++ [UInt8.ofNat byte.toUInt32.toNat]).head? = some commands.cmdWrite := by
    simpa [SmiCommands.Known] using known
  refine ⟨low, ?_, ?_⟩
  · rw [after, SmiChip.complete, if_pos known, same]
    simp
  · rw [after, SmiChip.complete, if_pos known, same]
    simp

theorem shifted_bit (bit : Bool) (short : left < 32) :
    ((if bit then 1 else 0 : UInt32) <<< UInt32.ofNat left).toNat = bit.toNat * 2 ^ left := by
  have small : 2 ^ left < 2 ^ 32 := Nat.pow_lt_pow_right (by omega) short
  cases bit
  · simp
  · simpa [Nat.shiftLeft_eq, Nat.mod_eq_of_lt short] using small

theorem joined_bit (data left : Nat) :
    (data.testBit left).toNat * 2 ^ left ||| data % 2 ^ left = data % 2 ^ (left + 1) := by
  have small : data % 2 ^ left < 2 ^ left := Nat.mod_lt _ (Nat.two_pow_pos left)
  rw [Nat.mul_comm, ← Nat.two_pow_add_eq_or_of_lt small, Nat.mod_pow_succ, Nat.add_comm,
    Nat.toNat_testBit]

theorem given_line (phase : wires.chip.phase = .giving byte rest left) (released : wires.sda = none) :
    wires.line (smiSlave commands) = byte.toNat.testBit left := by
  simp [Wires.line, released, smiSlave, phase]

variable (commands) in
theorem clockIn_given (held : Held wires (.giving byte rest left) registers)
    (released : wires.sda = none) (short : left < 32) (data : UInt32) :
    Held (clockIn (smiSlave commands) (left + 1) wires data).1 (.checking rest) registers ∧
      (clockIn (smiSlave commands) (left + 1) wires data).2.toNat =
        data.toNat ||| byte.toNat % 2 ^ (left + 1) := by
  induction left generalizing wires data with
  | zero =>
      rw [clockIn, pulse held.low, line_risen held.low, given_line held.phase released, clockIn]
      refine ⟨⟨held.low, ?_, ?_⟩, ?_⟩
      · simp [SmiChip.advance, held.phase]
      · simp [SmiChip.advance, held.phase, held.registers]
      · rw [UInt32.toNat_or, shifted_bit _ short, ← joined_bit]
        simp [Nat.mod_one]
  | succ left ih =>
      rw [clockIn, pulse held.low, line_risen held.low, given_line held.phase released]
      have next : Held { wires with
          chip := SmiChip.advance commands
            { wires.chip with sampled := byte.toNat.testBit (left + 1) } }
          (.giving byte rest left) registers := by
        refine ⟨held.low, ?_, ?_⟩
        · simp [SmiChip.advance, held.phase]
        · simp [SmiChip.advance, held.phase, held.registers]
      obtain ⟨after, value⟩ := ih next released (by omega)
        (data ||| (if byte.toNat.testBit (left + 1) then 1 else 0) <<< UInt32.ofNat (left + 1))
      refine ⟨after, ?_⟩
      rw [value, UInt32.toNat_or, shifted_bit _ short, Nat.or_assoc, joined_bit]

theorem writeBits_checked (held : Held wires (.checking rest) registers) (ack : UInt32) :
    Held (writeBits (smiSlave commands) ack 1 wires)
      (giveOn (ack.toNat.testBit 0) rest) registers := by
  have low := (held.sda (some (ack.toNat.testBit 0))).low
  rw [writeBits, setSda_low held.low, pulse low, writeBits]
  refine ⟨held.low, ?_, ?_⟩
  · simp only [SmiChip.advance, held.phase, Wires.line, Option.getD_some]
  · simp only [SmiChip.advance, held.phase, held.registers]

theorem readBits_low (low : wires.sck = false) (len : Nat) :
    readBits (smiSlave commands) wires len =
      (setSda (smiSlave commands) (clockIn (smiSlave commands) len { wires with sda := none } 0).1
          (some false),
        (clockIn (smiSlave commands) len { wires with sda := none } 0).2) := by
  rw [readBits, setSda_low low]

variable (commands) in
theorem readBits_given (held : Held wires (.giving byte rest 7) registers) :
    (readBits (smiSlave commands) wires 8).2.toUInt8 = byte ∧
      Held (readBits (smiSlave commands) wires 8).1 (.checking rest) registers := by
  obtain ⟨after, value⟩ := clockIn_given commands (held.sda none) rfl (by omega) 0
  rw [readBits_low held.low]
  refine ⟨?_, ?_⟩
  · apply UInt8.toNat_inj.mp
    rw [UInt32.toNat_toUInt8, value]
    simp
  · rw [setSda_low after.low]
    exact after.sda (some false)

variable (commands) in
theorem readByte_given (held : Held wires (.giving byte rest 7) registers) (ack : UInt32) :
    (readByte (smiSlave commands) wires ack).2 = byte ∧
      Held (readByte (smiSlave commands) wires ack).1
        (giveOn (ack.toNat.testBit 0) rest) registers := by
  obtain ⟨taken, after⟩ := readBits_given commands held
  exact ⟨taken, writeBits_checked after ack⟩

/-! ## Acknowledgements -/

variable (commands) in
theorem acking_line (phase : wires.chip.phase = .acking got wait) (released : wires.sda = none) :
    wires.line (smiSlave commands) = decide (0 < wait) := by
  cases wait <;> simp [Wires.line, released, smiSlave, phase]

variable (commands) in
theorem readBits_acking (held : Held wires (.acking got wait) registers) :
    (readBits (smiSlave commands) wires 1).2 = (if 0 < wait then 1 else 0) ∧
      Held (readBits (smiSlave commands) wires 1).1 (registers.waitOn commands got wait) registers := by
  have low := (held.sda none).low
  have line := acking_line commands (held.sda none).phase rfl
  have clocked : Held (clockIn (smiSlave commands) 1 { wires with sda := none } 0).1
      (registers.waitOn commands got wait) registers := by
    rw [clockIn, pulse low, line_risen low, line, clockIn]
    refine ⟨held.low, ?_, ?_⟩
    · simp only [SmiChip.advance, held.phase, held.registers]
    · simp only [SmiChip.advance, held.phase, held.registers]
  rw [readBits_low held.low]
  refine ⟨?_, ?_⟩
  · rw [clockIn, line_risen low, line, clockIn]
    cases wait <;> simp
  · rw [setSda_low clocked.low]
    exact clocked.sda (some false)

/-- The driver looks once more than it may retry. -/
theorem waitForAck_acking (held : Held wires (.acking got wait) registers) :
    (waitForAck (smiSlave commands) retries wires).2 =
        (if wait ≤ retries then none else some .timedOut) ∧
      ∃ phase, Held (waitForAck (smiSlave commands) retries wires).1 phase registers ∧
        (wait ≤ retries → phase = registers.follow commands got) := by
  induction retries generalizing wires wait with
  | zero =>
      obtain ⟨level, after⟩ := readBits_acking commands held
      rw [waitForAck]
      cases wait with
      | zero => simpa [level, Registers.waitOn] using after
      | succ wait => exact ⟨by simp [level], by simpa [level] using ⟨_, after⟩⟩
  | succ retries ih =>
      obtain ⟨level, after⟩ := readBits_acking commands held
      rw [waitForAck]
      cases wait with
      | zero => simpa [level, Registers.waitOn] using after
      | succ wait => simpa [level] using ih after

theorem writeByte_heard (held : Held wires (.taking got 7 0) registers)
    (known : commands.Known (got ++ [byte])) :
    (writeByte (smiSlave commands) wires byte).2 =
        (if registers.waits 0 ≤ ackRetryCount then none else some .timedOut) ∧
      ∃ phase, Held (writeByte (smiSlave commands) wires byte).1 phase
          (registers.take commands (got ++ [byte])).waited ∧
        (registers.waits 0 ≤ ackRetryCount → phase =
          (registers.take commands (got ++ [byte])).waited.follow commands (got ++ [byte])) :=
  waitForAck_acking (writeByte_acking held known)

/-! ## Transfers -/

theorem take_short (short : got.length < 5) : registers.take commands got = registers := by
  unfold Registers.take
  split
  · simp at short
  · rfl

variable (registers) in
theorem follow_taking (short : got.length < 5)
    (opens : got.length < 3 ∨ got.head? ≠ some commands.cmdRead) :
    registers.follow commands got = .taking got 7 0 := by
  unfold Registers.follow
  split
  case h_1 cmd lo hi =>
    have other : cmd ≠ commands.cmdRead := by simpa using opens
    exact if_neg other
  case h_2 => exact if_pos short

theorem SmiCommands.known_append (known : commands.Known (got ++ byte :: rest)) :
    commands.Known (got ++ [byte]) := by
  cases got with
  | nil => simpa [SmiCommands.Known] using known
  | cons first got => simpa [SmiCommands.Known] using known

theorem writeBytes_cons {Chip : Type} {slave : Slave Chip} {wires : Wires Chip} (data : UInt8)
    (rest : List UInt8) :
    writeBytes slave (data :: rest) wires =
      match (writeByte slave wires data).2 with
      | some error => ((writeByte slave wires data).1, some error)
      | none => writeBytes slave rest (writeByte slave wires data).1 := by
  rw [writeBytes]
  split
  · rename_i after error sent
    rw [sent]
  · rename_i after sent
    rw [sent]

theorem answers_soon (soon : registers.waits 0 ≤ ackRetryCount) (bytes : Nat) :
    registers.answers (bytes + 1) = registers.waited.answers bytes := by
  rw [Registers.answers, if_pos soon]

theorem answers_late (late : ¬ registers.waits 0 ≤ ackRetryCount) (bytes : Nat) :
    registers.answers (bytes + 1) = (registers.waited, false) := by
  rw [Registers.answers, if_neg late]

theorem answers_one :
    registers.answers 1 = (registers.waited, decide (registers.waits 0 ≤ ackRetryCount)) := by
  by_cases soon : registers.waits 0 ≤ ackRetryCount
  · rw [answers_soon soon, decide_eq_true soon, Registers.answers]
  · rw [answers_late soon, decide_eq_false soon]

/-- Up to the byte that changes a register or asks for one. -/
theorem writeBytes_heard (held : Held wires (.taking got 7 0) registers)
    (known : commands.Known (got ++ byte :: rest)) (short : (got ++ byte :: rest).length < 5)
    (opens : got.length + rest.length < 3 ∨ (got ++ byte :: rest).head? ≠ some commands.cmdRead) :
    (writeBytes (smiSlave commands) (byte :: rest) wires).2 =
        (if (registers.answers (rest.length + 1)).2 then none else some .timedOut) ∧
      ∃ phase, Held (writeBytes (smiSlave commands) (byte :: rest) wires).1 phase
          (registers.answers (rest.length + 1)).1 ∧
        ((registers.answers (rest.length + 1)).2 →
          phase = registers.follow commands (got ++ byte :: rest)) := by
  induction rest generalizing got byte wires registers with
  | nil =>
      obtain ⟨acked, phase, after, follows⟩ := writeByte_heard held known
      rw [take_short short] at after follows
      rw [writeBytes_cons, acked]
      by_cases soon : registers.waits 0 ≤ ackRetryCount
      · rw [List.length_nil, answers_soon soon, if_pos soon]
        exact ⟨rfl, phase, after, fun _ => follows soon⟩
      · rw [List.length_nil, answers_late soon, if_neg soon]
        exact ⟨rfl, phase, after, fun never => nomatch never⟩
  | cons next rest ih =>
      simp only [List.length_append, List.length_cons] at short
      have here : (got ++ [byte]).length < 5 := by
        simp only [List.length_append, List.length_cons, List.length_nil]
        omega
      obtain ⟨acked, phase, after, follows⟩ :=
        writeByte_heard held (SmiCommands.known_append known)
      rw [take_short here] at after follows
      rw [writeBytes_cons, acked]
      by_cases soon : registers.waits 0 ≤ ackRetryCount
      · have onward : phase = .taking (got ++ [byte]) 7 0 := by
          rw [follows soon]
          apply follow_taking _ here
          rw [List.length_cons] at opens
          rw [List.length_append, List.length_singleton]
          rcases opens with few | other
          · exact .inl (by omega)
          · exact .inr (by cases got <;> simpa using other)
        rw [onward] at after
        have grown : got ++ [byte] ++ next :: rest = got ++ byte :: next :: rest := by simp
        have heard := ih after (by rw [grown]; exact known)
          (by rw [grown]; simpa only [List.length_append, List.length_cons] using short)
          (by
            rw [grown, List.length_append, List.length_singleton]
            rw [List.length_cons] at opens
            exact opens.imp_left (by omega))
        rw [grown] at heard
        rw [List.length_cons, answers_soon soon, if_pos soon]
        exact heard
      · rw [List.length_cons, answers_late soon, if_neg soon]
        exact ⟨rfl, phase, after, fun never => nomatch never⟩

variable (registers) in
@[simp] theorem answers_regs (bytes : Nat) : (registers.answers bytes).1.regs = registers.regs := by
  induction bytes generalizing registers with
  | zero => rfl
  | succ bytes ih =>
      rw [Registers.answers]
      split
      · exact ih registers.waited
      · rfl

/-! ## Words -/

theorem word_halves (data : UInt32) : word data.toUInt8 (data >>> 8).toUInt8 = data.toUInt16 := by
  apply UInt16.toNat_inj.mp
  simp [word, Nat.shiftRight_eq_div_pow]
  omega

theorem halves_word (value : UInt16) :
    (loByte value).toUInt32 ||| (hiByte value).toUInt32 <<< 8 = value.toUInt32 := by
  have below := value.toNat_lt
  have low : value.toNat % 2 ^ 8 < 2 ^ 8 := Nat.mod_lt _ (by decide)
  have high : value.toNat / 2 ^ 8 % 2 ^ 8 = value.toNat / 2 ^ 8 := Nat.mod_eq_of_lt (by omega)
  have whole : value.toNat / 2 ^ 8 * 2 ^ 8 % 2 ^ 32 = value.toNat / 2 ^ 8 * 2 ^ 8 :=
    Nat.mod_eq_of_lt (by omega)
  have eight : UInt16.toNat 8 % 16 = 8 := rfl
  have eight' : UInt32.toNat 8 % 32 = 8 := rfl
  apply UInt32.toNat_inj.mp
  simp only [loByte, hiByte, UInt32.toNat_or, UInt8.toNat_toUInt32, UInt16.toNat_toUInt8,
    UInt32.toNat_shiftLeft, UInt16.toNat_shiftRight, UInt16.toNat_toUInt32, Nat.shiftRight_eq_div_pow,
    Nat.shiftLeft_eq, eight, eight', high, whole]
  rw [Nat.or_comm, Nat.mul_comm, ← Nat.two_pow_add_eq_or_of_lt low]
  exact Nat.div_add_mod _ _

variable (commands) in
theorem smiReadReg_resting (resting : Resting wires registers) (addr : UInt32) :
    Resting (smiReadReg (smiSlave commands) wires commands addr).1 (registers.readAt addr).1 ∧
      (smiReadReg (smiSlave commands) wires commands addr).2 = (registers.readAt addr).2 := by
  have known : commands.Known ([] ++ commands.cmdRead :: addrBytes addr) := .inl rfl
  obtain ⟨acked, phase, after, follows⟩ := writeBytes_heard
    (smiStart_held commands resting) known (by simp [addrBytes]) (.inl (by simp [addrBytes]))
  rcases sent : writeBytes (smiSlave commands) (commands.cmdRead :: addrBytes addr)
    (smiStart (smiSlave commands) wires) with ⟨sending, error⟩
  rw [sent] at acked after
  rw [smiReadReg, sent, Registers.readAt]
  rcases answered : registers.answers 3 with ⟨waited, inTime⟩
  have same : waited.regs = registers.regs := by
    simpa [answered] using answers_regs registers 3
  have length : (addrBytes addr).length + 1 = 3 := rfl
  rw [length, answered] at acked after follows
  cases inTime with
  | false =>
      cases acked
      exact ⟨smiStop_resting after, rfl⟩
  | true =>
      cases acked
      have gives : registers.follow commands ([] ++ commands.cmdRead :: addrBytes addr) =
          .giving (loByte (waited.regs addr.toUInt16)) [hiByte (waited.regs addr.toUInt16)] 7 := by
        rw [same, ← word_halves addr]
        exact if_pos rfl
      rw [follows rfl, gives] at after
      obtain ⟨lo, between⟩ := readByte_given commands after 0x00
      obtain ⟨hi, done⟩ := readByte_given commands between 0x01
      refine ⟨smiStop_resting done, ?_⟩
      change Except.ok (_ ||| _) = _
      rw [lo, hi, halves_word]

variable (commands) in
theorem store_regs (addr data : UInt32) (waited : Registers) :
    waited.take commands (commands.cmdWrite :: addrBytes addr ++ [data.toUInt8] ++
        [(data >>> 8).toUInt8]) =
      waited.store addr.toUInt16 data.toUInt16 := by
  simp [Registers.take, addrBytes, word_halves]

theorem smiWriteReg_resting (resting : Resting wires registers)
    (distinct : commands.cmdRead ≠ commands.cmdWrite) (addr data : UInt32) (ack : Bool) :
    Resting (smiWriteReg (smiSlave commands) wires commands addr data ack).1
        (registers.writeAt addr data ack).1 ∧
      (smiWriteReg (smiSlave commands) wires commands addr data ack).2 =
        (registers.writeAt addr data ack).2 := by
  have known : commands.Known ([] ++ commands.cmdWrite :: (addrBytes addr ++ [data.toUInt8])) := .inr rfl
  have opens : ([] ++ commands.cmdWrite :: (addrBytes addr ++ [data.toUInt8])).head? ≠
      some commands.cmdRead := by simpa using Ne.symm distinct
  obtain ⟨acked, phase, after, follows⟩ := writeBytes_heard
    (smiStart_held commands resting) known (by simp [addrBytes]) (.inr opens)
  rcases sent : writeBytes (smiSlave commands)
    (commands.cmdWrite :: (addrBytes addr ++ [data.toUInt8]))
    (smiStart (smiSlave commands) wires) with ⟨sending, error⟩
  rw [sent] at acked after
  rw [smiWriteReg, List.cons_append, sent, Registers.writeAt]
  rcases answered : registers.answers 4 with ⟨waited, inTime⟩
  have length : (addrBytes addr ++ [data.toUInt8]).length + 1 = 4 := rfl
  rw [length, answered] at acked after follows
  cases inTime with
  | false =>
      cases acked
      exact ⟨smiStop_resting after, rfl⟩
  | true =>
      cases acked
      have takes := follow_taking registers (by simp [addrBytes]) (.inr opens)
      rw [follows rfl, takes] at after
      have whole : commands.Known
          ([] ++ commands.cmdWrite :: (addrBytes addr ++ [data.toUInt8]) ++ [(data >>> 8).toUInt8]) :=
        .inr rfl
      have stored := store_regs commands addr data waited
      simp only [answers_one]
      cases ack with
      | false =>
          have last := writeByte_acking after whole
          exact ⟨stored ▸ smiStop_resting last, rfl⟩
      | true =>
          obtain ⟨heard, later, last, -⟩ := writeByte_heard after whole
          refine ⟨stored ▸ smiStop_resting last, ?_⟩
          change (match (writeByte _ _ _).2 with | some error => Except.error error | none => .ok ()) = _
          rw [heard]
          by_cases soon : waited.waits 0 ≤ ackRetryCount
          · simp [soon, Registers.store]
          · simp [soon, Registers.store]

theorem smiRmwr_resting (resting : Resting wires registers)
    (distinct : commands.cmdRead ≠ commands.cmdWrite) (addr mask data : UInt32) :
    Resting (smiRmwr (smiSlave commands) wires commands addr mask data).1
        (registers.rmwrAt addr mask data).1 ∧
      (smiRmwr (smiSlave commands) wires commands addr mask data).2 =
        (registers.rmwrAt addr mask data).2 := by
  obtain ⟨after, value⟩ := smiReadReg_resting commands resting addr
  rw [smiRmwr, Registers.rmwrAt]
  rcases driven : smiReadReg (smiSlave commands) wires commands addr with ⟨wires, result⟩
  rcases plain : registers.readAt addr with ⟨registers, expected⟩
  rw [driven, plain] at after value
  cases value
  cases result with
  | error error => exact ⟨after, rfl⟩
  | ok t => exact smiWriteReg_resting after distinct addr (t &&& ~~~mask ||| data) true

/-- One access leaves the bus at rest, whatever became of it. -/
theorem smiAccess_resting (resting : Resting wires registers)
    (distinct : commands.cmdRead ≠ commands.cmdWrite) (access : Access) :
    Resting (smiAccess (smiSlave commands) commands wires access).1 (registers.perform access).1 ∧
      (smiAccess (smiSlave commands) commands wires access).2 = (registers.perform access).2 := by
  cases access with
  | read addr =>
      obtain ⟨after, value⟩ := smiReadReg_resting commands resting addr
      exact ⟨after, congrArg (Except.map some) value⟩
  | write addr data =>
      obtain ⟨after, value⟩ := smiWriteReg_resting resting distinct addr data true
      exact ⟨after, congrArg (Except.map fun _ => none) value⟩
  | writeNoack addr data =>
      obtain ⟨after, value⟩ := smiWriteReg_resting resting distinct addr data false
      exact ⟨after, congrArg (Except.map fun _ => none) value⟩
  | rmwr addr mask data =>
      obtain ⟨after, value⟩ := smiRmwr_resting resting distinct addr mask data
      exact ⟨after, congrArg (Except.map fun _ => none) value⟩

/-- Every series of accesses over the wires is one to a plain file of registers. -/
theorem smiAccesses_registers (resting : Resting wires registers)
    (distinct : commands.cmdRead ≠ commands.cmdWrite) (accesses : List Access) :
    Resting (smiAccesses (smiSlave commands) commands accesses wires).1
        (registers.performAll accesses).1 ∧
      (smiAccesses (smiSlave commands) commands accesses wires).2 =
        (registers.performAll accesses).2 := by
  induction accesses generalizing wires registers with
  | nil => exact ⟨resting, rfl⟩
  | cons access rest ih =>
      obtain ⟨next, result⟩ := smiAccess_resting resting distinct access
      obtain ⟨after, results⟩ := ih next
      exact ⟨after, congrArg₂ List.cons result results⟩

end Edges

def rtl8366Commands : SmiCommands := ⟨0xa9, 0xa8⟩

def waitingChip (waits : Nat → Nat) : SmiChip := ⟨⟨fun _ => 0, waits⟩, .idle, false⟩

/-- The last byte of the second write is not acknowledged in time. -/
theorem smiAccesses_registers_late :
    (smiAccesses (smiSlave rtl8366Commands) rtl8366Commands
        [.write 0x20 0x1234, .write 0x20 0x5678, .rmwr 0x20 0xff 0x01, .read 0x20]
        ⟨true, none, waitingChip fun i => if i = 9 then 6 else 5⟩).2 =
      [.ok none, .error .timedOut, .ok none, .ok (some 0x5601)] :=
  (smiAccesses_registers ⟨rfl, rfl, rfl, rfl⟩ (by decide) _).2.trans (by decide)

end Rut9xx.Switch.Smi
