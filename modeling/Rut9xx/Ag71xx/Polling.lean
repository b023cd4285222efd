import Rut9xx.Data.BitField
import Rut9xx.Data.Partial

namespace Rut9xx.Ag71xx

open Data

/-! # Interrupts, the poll and the restart (`ag71xx_main.c`)

All that runs beside each other while the interface is up, in any order of its steps. There is one
processor: the interrupt handler runs to its end, and the timer does not run inside the poll. NAPI
and the timer are what the kernel documents. -/

section Registers

abbrev Word := BitVec 32

def intTxPs : Word := bit 32 0
def intTxBe : Word := bit 32 3
def intRxPr : Word := bit 32 4
def intRxOf : Word := bit 32 6
def intRxBe : Word := bit 32 7

def intErr : Word := intRxBe ||| intTxBe
def intTx : Word := intTxPs
def intRx : Word := intRxPr ||| intRxOf
def intPoll : Word := intRx ||| intTx
def intInit : Word := intErr ||| intPoll

def txStatusPs : Word := bit 32 0
def rxStatusPr : Word := bit 32 0
def rxStatusOf : Word := bit 32 2

end Registers

inductive Napi where
  | idle
  | scheduled
  | disabled
  deriving DecidableEq

/-- Nothing happens when it is scheduled already, or disabled. -/
def Napi.schedule : Napi → Napi
  | .idle => .scheduled
  | other => other

/-- What the poll does next. -/
inductive PollAt where
  | idle
  | rings
  | complete
  | intEnable
  | oomComplete
  deriving DecidableEq

/-- What `__ag71xx_link_adjust` does next for a link that is up. -/
inductive AdjustAt where
  | hwStop
  | dmaReset
  | startRx
  | enableInts
  deriving DecidableEq

/-- What `ag71xx_restart_work_func` does next. -/
inductive WorkAt where
  | idle
  | hwStop
  | dmaReset
  | napiDisable
  | delTimer
  | ringsInit
  | napiEnable
  | link
  | adjust (at' : AdjustAt)
  deriving DecidableEq

/-- What `ag71xx_phy_link_adjust` does next. -/
inductive PhyAt where
  | idle
  | down
  | adjust (at' : AdjustAt)
  deriving DecidableEq

structure Activity where
  intEnable : Word
  /-- `RX_CTRL_RXE` -/
  rxe : Bool
  napi : Napi
  oomTimer : Bool
  link : Bool
  poll : PollAt
  work : WorkAt
  phy : PhyAt

/-- What a poll finds: whether the buffer to be filled next is missing, the packets, and the registers
as they are read. -/
structure Found where
  noBuffer : Bool
  rxDone : Nat
  limit : Nat
  rxStatus : Word
  txStatus : Word

namespace Activity

def hwStop (s : Activity) : Activity := { s with intEnable := 0, rxe := false }

/-- `ag71xx_interrupt`, with `INT_STATUS` as it is read. -/
def interrupt (s : Activity) (status : Word) : Activity :=
  if status &&& intPoll ≠ 0 then
    { s with intEnable := s.intEnable &&& ~~~intPoll, napi := s.napi.schedule }
  else s

/-- `napi_complete`; `again` is that it was scheduled once more meanwhile. -/
def napiComplete (s : Activity) (again : Bool) : Activity :=
  { s with napi := if again then .scheduled else .idle }

/-- `ag71xx_poll` from the rings to where it decides. When it stays in polling mode while NAPI is
being disabled, the kernel completes it. -/
def pollRings (s : Activity) (found : Found) : Activity :=
  if found.noBuffer then { s with oomTimer := true, poll := .oomComplete }
  else
    let s := if found.rxStatus &&& rxStatusOf ≠ 0 then { s with rxe := true } else s
    if found.rxDone < found.limit ∧ found.rxStatus &&& rxStatusPr = 0 ∧
        found.txStatus &&& txStatusPs = 0 then { s with poll := .complete }
    else { s with poll := .idle, napi := if s.work = .napiDisable then .idle else s.napi }

def pollStep (s : Activity) (found : Found) (again : Bool) : Option Activity :=
  match s.poll with
  | .idle => if s.napi = .scheduled then some { s with poll := .rings } else none
  | .rings => some (s.pollRings found)
  | .complete => some { s.napiComplete again with poll := .intEnable }
  | .intEnable => some { s with intEnable := s.intEnable ||| intPoll, poll := .idle }
  | .oomComplete => some { s.napiComplete again with poll := .idle }

variable (fastReset : Bool)

/-- A step of the adjustment, and what comes next in it. -/
def adjustStep (s : Activity) : AdjustAt → Activity × Option AdjustAt
  | .hwStop => (if fastReset then s.hwStop else s, some .dmaReset)
  | .dmaReset => (if fastReset then { s with rxe := false } else s, some .startRx)
  | .startRx => ({ s with rxe := true }, some .enableInts)
  | .enableInts => ({ s with intEnable := intInit }, none)

/-- The next step of the restart. `rings` says whether `ag71xx_rings_init` gets its memory; what
`ag71xx_hw_enable` returns is not looked at. -/
def workStep (s : Activity) (rings : Bool) : Option Activity :=
  match s.work with
  | .idle => some { s with work := .hwStop }
  | .hwStop => some { s.hwStop with work := .dmaReset }
  | .dmaReset => some { s with rxe := false, work := .napiDisable }
  | .napiDisable => if s.napi = .idle then some { s with napi := .disabled, work := .delTimer } else none
  | .delTimer => some { s with oomTimer := false, work := .ringsInit }
  | .ringsInit => some { s with work := if rings then .napiEnable else .link }
  | .napiEnable => some { s with napi := .idle, work := .link }
  | .link => some { s with work := if s.link then .adjust .hwStop else .idle }
  | .adjust at' =>
      let (s, next) := s.adjustStep fastReset at'
      some { s with work := next.elim .idle .adjust }

/-- The next step for the PHY. It begins with what the PHY says of the link, and whether the speed or
the duplex mode is another. -/
def phyStep (s : Activity) (link other : Bool) : Activity :=
  match s.phy with
  | .idle =>
      let phy := if (link ∧ other) ∨ link ≠ s.link then (if link then .adjust .hwStop else .down) else .idle
      { s with link := link, phy := phy }
  | .down => { s.hwStop with phy := .idle }
  | .adjust at' =>
      let (s, next) := s.adjustStep fastReset at'
      { s with phy := next.elim .idle .adjust }

inductive Act where
  | interrupt (status : Word)
  | oomTimer
  | poll (found : Found) (again : Bool)
  | work (rings : Bool)
  | phy (link other : Bool)

/-- A chip that is reset when its link changes has `fastReset`. -/
def step (s : Activity) : Act → Option Activity
  | .interrupt status => some (s.interrupt status)
  | .oomTimer =>
      if s.oomTimer ∧ s.poll = .idle then some { s with oomTimer := false, napi := s.napi.schedule }
      else none
  | .poll found again => s.pollStep found again
  | .work rings => s.workStep fastReset rings
  | .phy link other => some (s.phyStep fastReset link other)

end Activity

/-- The interface as `ag71xx_open` leaves it. -/
def opened : Activity where
  intEnable := 0
  rxe := false
  napi := .idle
  oomTimer := false
  link := false
  poll := .idle
  work := .idle
  phy := .idle

namespace Activity

variable {s s' : Activity} {fastReset : Bool} {act : Act} {status : Word}

/-! ## What every step keeps -/

/-- The interrupts that a poll answers are enabled. -/
def Listens (s : Activity) : Prop := s.intEnable &&& intPoll = intPoll

/-- Somebody is going to look at the rings, or an interrupt makes somebody. -/
def Awake (s : Activity) : Prop :=
  s.napi = .scheduled ∨ s.oomTimer = true ∨ s.Listens ∨ s.poll = .intEnable

/-- NAPI is disabled by the restart. -/
def Disables (s : Activity) : Prop :=
  s.work = .delTimer ∨ s.work = .ringsInit ∨ s.work = .napiEnable

/-- The receiver is going to be started, for a link that is up. -/
def StartsRx (s : Activity) : Prop :=
  (s.work ≠ .idle ∧ s.work ≠ .adjust .enableInts) ∨ ∃ at', s.phy = .adjust at' ∧ at' ≠ .enableInts

structure Inv (s : Activity) : Prop where
  polls : s.poll ≠ .idle → s.poll ≠ .intEnable → s.napi = .scheduled
  oom : s.poll = .oomComplete → s.oomTimer = true
  disabled : s.napi = .disabled ↔ s.Disables
  down : s.phy = .down → s.link = false
  receives : s.link = true → s.rxe = true ∨ s.StartsRx
  awake : s.link = true → s.Awake ∨ s.work ≠ .idle ∨ s.phy ≠ .idle

theorem inv_opened : Inv opened where
  polls busy := absurd rfl busy
  oom := nofun
  disabled := by
    constructor
    · exact nofun
    · rintro (impossible | impossible | impossible) <;> cases impossible
  down := nofun
  receives := nofun
  awake := nofun

theorem listens_or (word : Word) : (word ||| intPoll) &&& intPoll = intPoll := by
  ext index inside
  simp only [BitVec.getElem_and, BitVec.getElem_or]
  cases word[index] <;> simp

theorem Disables.works (disables : s.Disables) : s.work ≠ .idle := by
  rcases disables with here | here | here <;>
  · rw [here]
    exact nofun

theorem Inv.scheduled (inv : Inv s) : s.napi.schedule = .scheduled ∨ s.work ≠ .idle := by
  cases napi : s.napi with
  | idle => exact .inl rfl
  | scheduled => exact .inl rfl
  | disabled => exact .inr (inv.disabled.mp napi).works

@[simp] theorem schedule_eq_disabled {napi : Napi} : napi.schedule = .disabled ↔ napi = .disabled := by
  cases napi <;> decide

theorem schedule_of_scheduled {napi : Napi} (scheduled : napi = .scheduled) :
    napi.schedule = .scheduled := by
  rw [scheduled]
  rfl

theorem Inv.interrupt (inv : Inv s) (status : Word) : Inv (s.interrupt status) := by
  unfold Activity.interrupt
  split
  · exact {
      polls := fun busy notLast => schedule_of_scheduled (inv.polls busy notLast)
      oom := inv.oom
      disabled := schedule_eq_disabled.trans inv.disabled
      down := inv.down
      receives := inv.receives
      awake := fun _ => inv.scheduled.imp .inl .inl }
  · exact inv

theorem Inv.oomTimer (inv : Inv s) (idle : s.poll = .idle) :
    Inv { s with oomTimer := false, napi := s.napi.schedule } where
  polls busy _ := absurd idle busy
  oom last := by
    rw [show s.poll = .oomComplete from last] at idle
    cases idle
  disabled := schedule_eq_disabled.trans inv.disabled
  down := inv.down
  receives := inv.receives
  awake _ := inv.scheduled.imp .inl .inl

theorem Inv.completes (inv : Inv s) (scheduled : s.napi = .scheduled) :
    Inv { s with poll := .complete } where
  polls _ _ := scheduled
  oom := nofun
  disabled := inv.disabled
  down := inv.down
  receives := inv.receives
  awake _ := .inl (.inl scheduled)

theorem Inv.staysPolling (inv : Inv s) (scheduled : s.napi = .scheduled) :
    Inv { s with poll := .idle, napi := if s.work = .napiDisable then .idle else s.napi } := by
  have enabled : ¬ s.Disables := fun disables => by
    rw [inv.disabled.mpr disables] at scheduled
    cases scheduled
  by_cases disabling : s.work = .napiDisable
  · rw [if_pos disabling]
    exact {
      polls := fun busy => absurd rfl busy
      oom := nofun
      disabled := ⟨nofun, fun disables => absurd disables enabled⟩
      down := inv.down
      receives := inv.receives
      awake := fun _ => .inr (.inl (by rw [disabling]; exact nofun)) }
  · rw [if_neg disabling]
    exact {
      polls := fun busy => absurd rfl busy
      oom := nofun
      disabled := inv.disabled
      down := inv.down
      receives := inv.receives
      awake := fun _ => .inl (.inl scheduled) }

theorem Inv.pollRings (inv : Inv s) (scheduled : s.napi = .scheduled) (found : Found) :
    Inv (s.pollRings found) := by
  unfold Activity.pollRings
  by_cases noBuffer : found.noBuffer
  · rw [if_pos noBuffer]
    exact {
      polls := fun _ _ => scheduled
      oom := fun _ => rfl
      disabled := inv.disabled
      down := inv.down
      receives := inv.receives
      awake := fun _ => .inl (.inr (.inl rfl)) }
  · rw [if_neg noBuffer]
    have restarted : Inv (if found.rxStatus &&& rxStatusOf ≠ 0 then { s with rxe := true } else s) ∧
        (if found.rxStatus &&& rxStatusOf ≠ 0 then { s with rxe := true } else s).napi = .scheduled := by
      split
      · exact ⟨{ inv with receives := fun _ => .inl rfl }, scheduled⟩
      · exact ⟨inv, scheduled⟩
    simp only
    split
    · exact restarted.1.completes restarted.2
    · exact restarted.1.staysPolling restarted.2

theorem Inv.poll (inv : Inv s) {found : Found} {again : Bool} (stepped : s.pollStep found again = some s') :
    Inv s' := by
  have busy (at' : PollAt) (here : s.poll = at') (run : at' ≠ .idle) (notLast : at' ≠ .intEnable) :
      s.napi = .scheduled ∧ ¬ s.Disables := by
    have scheduled := inv.polls (here ▸ run) (here ▸ notLast)
    refine ⟨scheduled, fun disables => ?_⟩
    rw [inv.disabled.mpr disables] at scheduled
    cases scheduled
  unfold Activity.pollStep at stepped
  split at stepped
  · rename_i here
    split at stepped
    · rename_i scheduled
      cases stepped
      exact {
        polls := fun _ _ => scheduled
        oom := nofun
        disabled := inv.disabled
        down := inv.down
        receives := inv.receives
        awake := fun _ => .inl (.inl scheduled) }
    · cases stepped
  · rename_i here
    cases stepped
    exact inv.pollRings (busy _ here nofun nofun).1 found
  · rename_i here
    obtain ⟨scheduled, enabled⟩ := busy _ here nofun nofun
    cases stepped
    exact {
      polls := fun _ notLast => absurd rfl notLast
      oom := nofun
      disabled := by
        refine ⟨?_, fun disables => absurd disables enabled⟩
        cases again <;> exact nofun
      down := inv.down
      receives := inv.receives
      awake := fun _ => .inl (.inr (.inr (.inr rfl))) }
  · cases stepped
    exact {
      polls := fun busy => absurd rfl busy
      oom := nofun
      disabled := inv.disabled
      down := inv.down
      receives := inv.receives
      awake := fun _ => .inl (.inr (.inr (.inl (listens_or _)))) }
  · rename_i here
    obtain ⟨scheduled, enabled⟩ := busy _ here nofun nofun
    cases stepped
    exact {
      polls := fun busy => absurd rfl busy
      oom := nofun
      disabled := by
        refine ⟨?_, fun disables => absurd disables enabled⟩
        cases again <;> exact nofun
      down := inv.down
      receives := inv.receives
      awake := fun _ => .inl (.inr (.inl (inv.oom here))) }

/-- The last step of an adjustment enables the interrupts, and the one before it starts the receiver. -/
theorem adjustStep_cases (at' : AdjustAt) :
    (at' = .enableInts ∧ s.adjustStep fastReset at' = ({ s with intEnable := intInit }, none)) ∨
      ∃ intEnable rxe next, s.adjustStep fastReset at' =
          ({ s with intEnable := intEnable, rxe := rxe }, some next) ∧
        (next = .enableInts → rxe = true) := by
  cases at' with
  | hwStop =>
      right
      cases fastReset with
      | false => exact ⟨_, _, _, rfl, nofun⟩
      | true => exact ⟨_, _, _, rfl, nofun⟩
  | dmaReset =>
      right
      cases fastReset with
      | false => exact ⟨_, _, _, rfl, nofun⟩
      | true => exact ⟨_, _, _, rfl, nofun⟩
  | startRx => exact .inr ⟨_, _, _, rfl, fun _ => rfl⟩
  | enableInts => exact .inl ⟨rfl, rfl⟩

/-- A step of the restart that leaves NAPI to whom it belongs. -/
theorem Inv.working (inv : Inv s) (work : WorkAt) (intEnable : Word) (rxe : Bool)
    (before : ¬ s.Disables) (after : ¬ Disables { s with work := work })
    (receives : s.link = true → rxe = true ∨ StartsRx { s with work := work })
    (more : s.link = true → work ≠ .idle ∨ intEnable &&& intPoll = intPoll) :
    Inv { s with work := work, intEnable := intEnable, rxe := rxe } where
  polls := inv.polls
  oom := inv.oom
  disabled := ⟨fun disabled => absurd (inv.disabled.mp disabled) before, fun disables => absurd disables after⟩
  down := inv.down
  receives := receives
  awake up := (more up).elim (fun works => .inr (.inl works)) fun listens => .inl (.inr (.inr (.inl listens)))

theorem not_disables {work : WorkAt} (delTimer : work ≠ .delTimer) (ringsInit : work ≠ .ringsInit)
    (napiEnable : work ≠ .napiEnable) : ¬ Disables { s with work := work } := by
  rintro (here | here | here)
  · exact delTimer here
  · exact ringsInit here
  · exact napiEnable here

theorem startsRx_work {work : WorkAt} (busy : work ≠ .idle) (notLast : work ≠ .adjust .enableInts) :
    StartsRx { s with work := work } := .inl ⟨busy, notLast⟩

theorem Inv.work (inv : Inv s) {rings : Bool} (granted : s.work = .ringsInit → rings = true)
    (stepped : s.workStep fastReset rings = some s') : Inv s' := by
  have free (here : WorkAt) (same : s.work = here) (delTimer : here ≠ .delTimer)
      (ringsInit : here ≠ .ringsInit) (napiEnable : here ≠ .napiEnable) : ¬ s.Disables := by
    rintro (now | now | now)
    · exact delTimer (same.symm.trans now)
    · exact ringsInit (same.symm.trans now)
    · exact napiEnable (same.symm.trans now)
  unfold Activity.workStep at stepped
  split at stepped
  · rename_i here
    cases stepped
    exact inv.working .hwStop s.intEnable s.rxe (free _ here nofun nofun nofun)
      (not_disables nofun nofun nofun) (fun _ => .inr (startsRx_work nofun nofun)) fun _ => .inl nofun
  · rename_i here
    cases stepped
    exact inv.working .dmaReset 0 false (free _ here nofun nofun nofun)
      (not_disables nofun nofun nofun) (fun _ => .inr (startsRx_work nofun nofun)) fun _ => .inl nofun
  · rename_i here
    cases stepped
    exact inv.working .napiDisable s.intEnable false (free _ here nofun nofun nofun)
      (not_disables nofun nofun nofun) (fun _ => .inr (startsRx_work nofun nofun)) fun _ => .inl nofun
  · split at stepped
    · rename_i idle
      cases stepped
      exact {
        polls := fun busy notLast => absurd (idle.symm.trans (inv.polls busy notLast)) nofun
        oom := inv.oom
        disabled := ⟨fun _ => .inl rfl, fun _ => rfl⟩
        down := inv.down
        receives := fun _ => .inr (startsRx_work nofun nofun)
        awake := fun _ => .inr (.inl nofun) }
    · cases stepped
  · rename_i here
    have disabled := inv.disabled.mpr (.inl here)
    cases stepped
    exact {
      polls := inv.polls
      oom := fun last => absurd (disabled.symm.trans (inv.polls (last ▸ nofun) (last ▸ nofun))) nofun
      disabled := ⟨fun _ => .inr (.inl rfl), fun _ => disabled⟩
      down := inv.down
      receives := fun _ => .inr (startsRx_work nofun nofun)
      awake := fun _ => .inr (.inl nofun) }
  · rename_i here
    have disabled := inv.disabled.mpr (.inr (.inl here))
    rw [if_pos (granted here)] at stepped
    cases stepped
    exact {
      polls := inv.polls
      oom := inv.oom
      disabled := ⟨fun _ => .inr (.inr rfl), fun _ => disabled⟩
      down := inv.down
      receives := fun _ => .inr (startsRx_work nofun nofun)
      awake := fun _ => .inr (.inl nofun) }
  · rename_i here
    have disabled := inv.disabled.mpr (.inr (.inr here))
    cases stepped
    exact {
      polls := fun busy notLast => absurd (disabled.symm.trans (inv.polls busy notLast)) nofun
      oom := inv.oom
      disabled := ⟨nofun, fun disables => absurd disables (@not_disables s .link nofun nofun nofun)⟩
      down := inv.down
      receives := fun _ => .inr (startsRx_work nofun nofun)
      awake := fun _ => .inr (.inl nofun) }
  · rename_i here
    cases stepped
    by_cases up : s.link = true
    · rw [if_pos up]
      exact inv.working (.adjust .hwStop) s.intEnable s.rxe (free _ here nofun nofun nofun)
        (not_disables nofun nofun nofun) (fun _ => .inr (startsRx_work nofun nofun)) fun _ => .inl nofun
    · rw [if_neg up]
      exact inv.working .idle s.intEnable s.rxe (free _ here nofun nofun nofun)
        (not_disables nofun nofun nofun) (fun there => absurd there up) fun there => absurd there up
  · rename_i at' here
    have enabled := free _ here nofun nofun nofun
    rcases @adjustStep_cases s fastReset at' with ⟨rfl, last⟩ | ⟨intEnable, rxe, next, more, started⟩
    · rw [last] at stepped
      cases stepped
      refine inv.working .idle intInit s.rxe enabled (not_disables nofun nofun nofun) (fun up => ?_)
        fun _ => .inr (by decide)
      refine (inv.receives up).imp_right fun starts => .inr ?_
      rcases starts with ⟨-, notLast⟩ | phy
      · exact absurd here notLast
      · exact phy
    · rw [more] at stepped
      cases stepped
      refine inv.working (.adjust next) intEnable rxe enabled (not_disables nofun nofun nofun) (fun _ => ?_)
        fun _ => .inl nofun
      by_cases final : next = .enableInts
      · exact .inl (started final)
      · exact .inr (startsRx_work nofun fun same => final (WorkAt.adjust.inj same))

/-- A step for the PHY. -/
theorem Inv.calling (inv : Inv s) (phy : PhyAt) (intEnable : Word) (rxe link : Bool)
    (down : phy = .down → link = false)
    (receives : link = true → rxe = true ∨ StartsRx { s with phy := phy })
    (awake : link = true → phy ≠ .idle ∨ intEnable &&& intPoll = intPoll ∨
      (intEnable = s.intEnable ∧ (s.Awake ∨ s.work ≠ .idle))) :
    Inv { s with phy := phy, intEnable := intEnable, rxe := rxe, link := link } where
  polls := inv.polls
  oom := inv.oom
  disabled := inv.disabled
  down := down
  receives := receives
  awake up := by
    rcases awake up with calls | listens | ⟨rfl, awake | works⟩
    · exact .inr (.inr calls)
    · exact .inl (.inr (.inr (.inl listens)))
    · exact .inl awake
    · exact .inr (.inl works)

theorem Inv.phy (inv : Inv s) {link other : Bool} : Inv (s.phyStep fastReset link other) := by
  unfold Activity.phyStep
  split
  · rename_i here
    by_cases change : (link = true ∧ other = true) ∨ link ≠ s.link
    · rw [if_pos change]
      cases link with
      | true =>
          exact inv.calling (.adjust .hwStop) s.intEnable s.rxe true nofun
            (fun _ => .inr (.inr ⟨_, rfl, nofun⟩)) fun _ => .inl nofun
      | false => exact inv.calling .down s.intEnable s.rxe false (fun _ => rfl) nofun nofun
    · rw [if_neg change]
      have same : link = s.link := not_not.mp fun differs => change (.inr differs)
      subst same
      refine inv.calling .idle s.intEnable s.rxe s.link nofun (fun up => ?_) fun up => .inr (.inr ⟨rfl, ?_⟩)
      · rcases inv.receives up with receives | works | ⟨at', calls, -⟩
        · exact .inl receives
        · exact .inr (.inl works)
        · exact absurd (here.symm.trans calls) nofun
      · exact (inv.awake up).imp_right fun busy => busy.elim id fun calls => absurd here calls
  · rename_i here
    have gone := inv.down here
    exact inv.calling .idle 0 false s.link nofun (fun up => absurd (gone.symm.trans up) nofun)
      fun up => absurd (gone.symm.trans up) nofun
  · rename_i at' here
    rcases @adjustStep_cases s fastReset at' with ⟨rfl, last⟩ | ⟨intEnable, rxe, next, more, started⟩
    · rw [last]
      refine inv.calling .idle intInit s.rxe s.link nofun (fun up => ?_) fun _ => .inr (.inl (by decide))
      rcases inv.receives up with receives | works | ⟨at', calls, notLast⟩
      · exact .inl receives
      · exact .inr (.inl works)
      · exact absurd (PhyAt.adjust.inj (calls.symm.trans here)) notLast
    · rw [more]
      refine inv.calling (.adjust next) intEnable rxe s.link nofun (fun _ => ?_) fun _ => .inl nofun
      by_cases final : next = .enableInts
      · exact .inl (started final)
      · exact .inr (.inr ⟨next, rfl, final⟩)

/-- The restart gets the memory for its rings. -/
def RingsGranted (s : Activity) (act : Act) : Prop :=
  ∀ rings, act = .work rings → s.work = .ringsInit → rings = true

theorem Inv.step (inv : Inv s) (granted : s.RingsGranted act) (stepped : s.step fastReset act = some s') :
    Inv s' := by
  cases act with
  | interrupt status =>
      cases stepped
      exact inv.interrupt status
  | oomTimer =>
      rw [Activity.step] at stepped
      split at stepped
      · rename_i fires
        cases stepped
        exact inv.oomTimer fires.2
      · cases stepped
  | poll found again => exact inv.poll stepped
  | work rings => exact inv.work (granted rings rfl) stepped
  | phy link other =>
      cases stepped
      exact inv.phy

/-! ## Nobody is left waiting -/

/-- What the driver does of itself when an interrupt with this status is pending: no work starts, no
link changes, and the handler runs only for an interrupt that is enabled. -/
def Own (status : Word) (s : Activity) : Act → Prop
  | .interrupt seen => seen = status ∧ status &&& s.intEnable ≠ 0
  | .oomTimer => True
  | .poll .. => True
  | .work _ => False
  | .phy .. => False

/-- The driver comes to look at the rings. -/
def Served (fastReset : Bool) (status : Word) (s : Activity) : Prop :=
  ∃ acts final, run (Activity.step fastReset) s acts = some final ∧
    EveryStep (Activity.step fastReset) (Own status) s acts ∧ final.poll = .rings

theorem served_rings (rings : s.poll = .rings) : Served fastReset status s := ⟨[], s, rfl, trivial, rings⟩

theorem served_cons (stepped : s.step fastReset act = some s') (own : Own status s act)
    (served : Served fastReset status s') : Served fastReset status s := by
  obtain ⟨acts, final, ran, owns, rings⟩ := served
  refine ⟨act :: acts, final, by rw [run, stepped]; exact ran, ⟨own, fun next taken => ?_⟩, rings⟩
  obtain rfl := Option.some.inj (stepped.symm.trans taken)
  exact owns

def noneFound : Found := ⟨false, 0, 1, 0, 0⟩

theorem served_scheduled (idle : s.poll = .idle) (scheduled : s.napi = .scheduled) :
    Served fastReset status s := by
  have stepped : s.step fastReset (.poll noneFound false) = some { s with poll := .rings } := by
    simp only [Activity.step, pollStep, idle, scheduled, if_true]
  exact served_cons stepped trivial (served_rings rfl)

theorem schedule_enabled {napi : Napi} (enabled : napi ≠ .disabled) : napi.schedule = .scheduled := by
  cases napi with
  | idle => rfl
  | scheduled => rfl
  | disabled => exact absurd rfl enabled

theorem served_timer (idle : s.poll = .idle) (timer : s.oomTimer = true) (enabled : s.napi ≠ .disabled) :
    Served fastReset status s := by
  have stepped : s.step fastReset .oomTimer =
      some { s with oomTimer := false, napi := s.napi.schedule } := by
    rw [Activity.step, if_pos ⟨timer, idle⟩]
  exact served_cons stepped trivial (served_scheduled idle (schedule_enabled enabled))

theorem served_listens (idle : s.poll = .idle) (listens : s.Listens) (enabled : s.napi ≠ .disabled)
    (pending : status &&& intPoll ≠ 0) : Served fastReset status s := by
  have raised : status &&& s.intEnable ≠ 0 := by
    intro nothing
    apply pending
    rw [← show s.intEnable &&& intPoll = intPoll from listens, ← BitVec.and_assoc, nothing]
    exact BitVec.zero_and
  have stepped : s.step fastReset (.interrupt status) = some { s with
      intEnable := s.intEnable &&& ~~~intPoll, napi := s.napi.schedule } := by
    rw [Activity.step, Activity.interrupt, if_pos pending]
  exact served_cons stepped ⟨rfl, raised⟩ (served_scheduled idle (schedule_enabled enabled))

theorem served_intEnable (here : s.poll = .intEnable) (enabled : s.napi ≠ .disabled)
    (pending : status &&& intPoll ≠ 0) : Served fastReset status s := by
  have stepped : s.step fastReset (.poll noneFound false) = some { s with
      intEnable := s.intEnable ||| intPoll, poll := .idle } := by
    simp only [Activity.step, pollStep, here]
  exact served_cons stepped trivial (served_listens rfl (listens_or _) enabled pending)

theorem Inv.served (inv : Inv s) (awake : s.Awake) (enabled : s.napi ≠ .disabled)
    (pending : status &&& intPoll ≠ 0) : Served fastReset status s := by
  cases here : s.poll with
  | idle =>
      rcases awake with scheduled | timer | listens | last
      · exact served_scheduled here scheduled
      · exact served_timer here timer enabled
      · exact served_listens here listens enabled pending
      · exact absurd (here.symm.trans last) nofun
  | rings => exact served_rings here
  | complete =>
      have stepped : s.step fastReset (.poll noneFound false) = some { s with
          napi := .idle, poll := .intEnable } := by
        simp only [Activity.step, pollStep, here]
        rfl
      exact served_cons stepped trivial (served_intEnable rfl nofun pending)
  | intEnable => exact served_intEnable here enabled pending
  | oomComplete =>
      have stepped : s.step fastReset (.poll noneFound false) = some { s with
          napi := .idle, poll := .idle } := by
        simp only [Activity.step, pollStep, here]
        rfl
      exact served_cons stepped trivial (served_timer rfl (inv.oom here) nofun)

/-- NAPI is disabled and nobody is going to enable it. -/
structure Stuck (s : Activity) : Prop where
  disabled : s.napi = .disabled
  abandoned : ¬ s.Disables
  away : s.poll = .idle ∨ s.poll = .intEnable

theorem Stuck.not_inv (stuck : Stuck s) : ¬ Inv s := fun inv =>
  stuck.abandoned (inv.disabled.mp stuck.disabled)

theorem Stuck.poll (stuck : Stuck s) {found : Found} {again : Bool}
    (stepped : s.pollStep found again = some s') : Stuck s' := by
  rcases stuck.away with idle | last
  · simp only [pollStep, idle, stuck.disabled] at stepped
    cases stepped
  · simp only [pollStep, last] at stepped
    cases stepped
    exact ⟨stuck.disabled, stuck.abandoned, .inl rfl⟩

theorem Stuck.work (stuck : Stuck s) {rings : Bool} (stepped : s.workStep fastReset rings = some s') :
    Stuck s' := by
  have abandoned := stuck.abandoned
  unfold Activity.workStep at stepped
  split at stepped
  · cases stepped
    exact ⟨stuck.disabled, not_disables nofun nofun nofun, stuck.away⟩
  · cases stepped
    exact ⟨stuck.disabled, @not_disables s .dmaReset nofun nofun nofun, stuck.away⟩
  · cases stepped
    exact ⟨stuck.disabled, @not_disables s .napiDisable nofun nofun nofun, stuck.away⟩
  · rw [if_neg (by rw [stuck.disabled]; exact nofun)] at stepped
    cases stepped
  · rename_i here
    exact absurd (.inl here) abandoned
  · rename_i here
    exact absurd (.inr (.inl here)) abandoned
  · rename_i here
    exact absurd (.inr (.inr here)) abandoned
  · cases stepped
    refine ⟨stuck.disabled, ?_, stuck.away⟩
    split
    · exact not_disables nofun nofun nofun
    · exact not_disables nofun nofun nofun
  · rename_i at' here
    rcases @adjustStep_cases s fastReset at' with ⟨-, last⟩ | ⟨intEnable, rxe, next, more, -⟩
    · rw [last] at stepped
      cases stepped
      exact ⟨stuck.disabled, @not_disables s .idle nofun nofun nofun, stuck.away⟩
    · rw [more] at stepped
      cases stepped
      exact ⟨stuck.disabled, @not_disables s (.adjust next) nofun nofun nofun, stuck.away⟩

theorem Stuck.step (stuck : Stuck s) (stepped : s.step fastReset act = some s') : Stuck s' := by
  cases act with
  | interrupt status =>
      cases stepped
      unfold Activity.interrupt
      split
      · exact ⟨schedule_eq_disabled.mpr stuck.disabled, stuck.abandoned, stuck.away⟩
      · exact stuck
  | oomTimer =>
      rw [Activity.step] at stepped
      split at stepped
      · cases stepped
        exact ⟨schedule_eq_disabled.mpr stuck.disabled, stuck.abandoned, stuck.away⟩
      · cases stepped
  | poll found again => exact stuck.poll stepped
  | work rings => exact stuck.work stepped
  | phy link other =>
      cases stepped
      unfold Activity.phyStep
      split
      · exact ⟨stuck.disabled, stuck.abandoned, stuck.away⟩
      · exact ⟨stuck.disabled, stuck.abandoned, stuck.away⟩
      · rename_i at' here
        rcases @adjustStep_cases s fastReset at' with ⟨-, last⟩ | ⟨intEnable, rxe, next, more, -⟩
        · rw [last]
          exact ⟨stuck.disabled, stuck.abandoned, stuck.away⟩
        · rw [more]
          exact ⟨stuck.disabled, stuck.abandoned, stuck.away⟩

theorem Inv.refused (inv : Inv s) (refused : ¬ s.RingsGranted act)
    (stepped : s.step fastReset act = some s') : Stuck s' := by
  simp only [RingsGranted, not_forall] at refused
  obtain ⟨rings, rfl, here, refused⟩ := refused
  have disabled := inv.disabled.mpr (.inr (.inl here))
  simp only [Activity.step, workStep, here] at stepped
  rw [if_neg refused] at stepped
  cases stepped
  refine ⟨disabled, @not_disables s .link nofun nofun nofun, ?_⟩
  by_contra busy
  rw [not_or] at busy
  exact absurd (disabled.symm.trans (inv.polls busy.1 busy.2)) nofun

/-- Stuck is stuck, whatever happens then. -/
theorem Stuck.not_served (stuck : Stuck s) : ¬ Served fastReset status s := by
  rintro ⟨acts, final, ran, -, rings⟩
  have still : Stuck final := run_keeps (fun _ _ _ stuck stepped => Stuck.step stuck stepped) stuck ran
  rcases still.away with idle | last
  · exact absurd (rings.symm.trans idle) nofun
  · exact absurd (rings.symm.trans last) nofun

theorem step_kept (kept : Inv s ∨ Stuck s) (stepped : s.step fastReset act = some s') :
    (Inv s' ∨ Stuck s') ∧ (Inv s' ↔ Inv s ∧ s.RingsGranted act) := by
  rcases kept with inv | stuck
  · by_cases granted : s.RingsGranted act
    · have next := inv.step granted stepped
      exact ⟨.inl next, fun _ => ⟨inv, granted⟩, fun _ => next⟩
    · have next := inv.refused granted stepped
      exact ⟨.inr next, fun inv' => absurd inv' next.not_inv, fun both => absurd both.2 granted⟩
  · have next := stuck.step stepped
    exact ⟨.inr next, fun inv => absurd inv next.not_inv, fun both => absurd both.1 stuck.not_inv⟩

variable {acts : List Act}

/-- The link comes up, a packet is polled, and a restart is refused its memory. -/
def refusedRun : List Act :=
  List.replicate 5 (.phy true false) ++ [.interrupt intRxPr] ++
    List.replicate 4 (.poll noneFound false) ++ List.replicate 11 (.work false)

end Activity

end Rut9xx.Ag71xx
