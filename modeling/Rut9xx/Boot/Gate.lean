import Rut9xx.Boot.Bootm

namespace Rut9xx.Boot

open Rut9xx.Data

/-! # What the `fw_verified` gate guarantees

The gate reads a flag that any earlier command may have set.  A launch is
gated when the same call had `vboot_verify` accept a span holding the header
and the kernel it starts.
-/

/-- One command of a console session. -/
structure Call where
  before : BootState
  event : Event
  outcome : Outcome

/-- A session ends with the first launch: `do_bootm_linux` does not come back. -/
def session (board : Board) : BootState → List Event → List Call
  | _, [] => []
  | state, event :: rest =>
      let outcome := perform board event state
      ⟨state, event, outcome⟩ ::
        if outcome.launch.isSome then [] else session board outcome.state rest

def Outcome.Gated (outcome : Outcome) : Prop :=
  ∀ launch, outcome.launch = some launch →
    ∃ span, outcome.accepted = some span ∧ span.Covers launch.image ∧ span.Covers launch.kernel

def VerifiedBootGate (board : Board) (events : List Event) : Prop :=
  ∀ call ∈ session board .initial events, call.outcome.Gated

/-! ## What `do_bootm` starts -/

variable {board : Board} {console : Console} {argument : Option UInt32} {state : BootState}
  {address : UInt32} {launch : Launch} {span : AddressSpan}

/-- The launch `do_bootm` makes of the image at `address` when the gate lets it
through: `none` for an image that its other checks refuse. -/
def openLaunch (board : Board) (console : Console) (address : UInt32) : Option Launch :=
  (loadHeader board console.memory address .initial).bind fun (tplType, loaded) =>
    (selectKernel board console address loaded.header tplType).bind fun (data, len) =>
      let headerSize := if tplType then tplinkImageHeaderSize else imageHeaderSize
      if decompress board console loaded.header data len then
        some ⟨⟨address, headerSize.toNat⟩, ⟨data, len.toNat⟩⟩
      else none

theorem printTplIhV1_fwVerified {memory : Memory} {hdr : TplinkImageHeader} :
    (printTplIhV1 board memory hdr address state).fwVerified =
      (state.fwVerified || (tplVerified board memory address hdr).isSome) := by
  unfold printTplIhV1
  cases tplVerified board memory address hdr <;> simp

/-- The loaded header does not depend on the state; the flag is only ever raised. -/
theorem loadHeader_eq {memory : Memory} (state : BootState) :
    loadHeader board memory address state =
      (loadHeader board memory address .initial).map fun (tplType, loaded) =>
        (tplType, ⟨state.fwVerified || loaded.fwVerified, loaded.header⟩) := by
  unfold loadHeader
  cases headerKind memory address with
  | tplink => simp [printTplIhV1_fwVerified, BootState.initial]
  | uboot => simp [BootState.initial]
  | unsupported => rfl

theorem loadHeader_initial_fwVerified {memory : Memory} {tplType : Bool} {loaded : BootState}
    (loads : loadHeader board memory address .initial = some (tplType, loaded)) :
    loaded.fwVerified = (acceptedSpan board memory address).isSome := by
  unfold loadHeader at loads
  unfold acceptedSpan
  cases kind : headerKind memory address with
  | tplink =>
      simp only [kind, Option.some.injEq, Prod.mk.injEq] at loads
      obtain ⟨-, rfl⟩ := loads
      simp [printTplIhV1_fwVerified, BootState.initial]
  | uboot =>
      simp only [kind, Option.some.injEq, Prod.mk.injEq] at loads
      obtain ⟨-, rfl⟩ := loads
      rfl
  | unsupported => simp [kind] at loads

theorem doBootm_accepted :
    (doBootm board console argument state).accepted =
      acceptedSpan board console.memory (bootmAddress console argument) := by
  unfold doBootm
  dsimp only
  split
  · rfl
  · split
    · rfl
    · split
      · rfl
      · split <;> rfl

/-- The gate as the code has it: the flag from before or an acceptance now. -/
theorem doBootm_launch :
    (doBootm board console argument state).launch =
      if state.fwVerified ||
          (acceptedSpan board console.memory (bootmAddress console argument)).isSome then
        openLaunch board console (bootmAddress console argument)
      else none := by
  unfold doBootm openLaunch
  dsimp only
  rw [loadHeader_eq state]
  cases loads : loadHeader board console.memory (bootmAddress console argument) .initial with
  | none => simp
  | some loaded =>
      obtain ⟨tplType, loaded⟩ := loaded
      rw [← loadHeader_initial_fwVerified loads]
      simp only [Option.map_some, Option.bind_some]
      cases selectKernel board console (bootmAddress console argument) loaded.header tplType with
      | none => simp
      | some kernel =>
          obtain ⟨data, len⟩ := kernel
          simp only [Option.bind_some]
          cases state.fwVerified || loaded.fwVerified <;>
            cases decompress board console loaded.header data len <;> rfl

theorem acceptedSpan_tplink {memory : Memory}
    (accepted : acceptedSpan board memory address = some span) :
    headerKind memory address = .tplink := by
  unfold acceptedSpan at accepted
  cases kind : headerKind memory address with
  | tplink => rfl
  | uboot => simp [kind] at accepted
  | unsupported => simp [kind] at accepted

theorem acceptedSpan_size_lt {memory : Memory}
    (accepted : acceptedSpan board memory address = some span) : span.size < 2 ^ 32 := by
  unfold acceptedSpan at accepted
  split at accepted
  · simp only [tplVerified, Option.ite_none_right_eq_some, Option.some.injEq] at accepted
    obtain ⟨⟨-, short, -⟩, rfl⟩ := accepted
    exact short.trans (by decide)
  · contradiction

/-- A converted TP-Link header passes every check before the gate. -/
theorem selectKernel_tplink (tplHdr : TplinkImageHeader) :
    selectKernel board console address (tplToUbootHeader tplHdr) true =
      some (address + tplinkImageHeaderSize, tplHdr.ihKernelLen) := by
  simp [selectKernel, ihHeaderCrc, ihDataCrc, tplToUbootHeader]

/-- A TP-Link image starts the kernel that follows its header, at the length
the header gives. -/
theorem openLaunch_tplink (kind : headerKind console.memory address = .tplink)
    (starts : openLaunch board console address = some launch) :
    launch = ⟨⟨address, 512⟩,
      ⟨address + 512, (readTplinkImageHeader console.memory address).ihKernelLen.toNat⟩⟩ := by
  simp only [openLaunch, loadHeader, kind, Option.bind_some, selectKernel_tplink] at starts
  split at starts
  · cases starts
    rfl
  · contradiction

/-! ## When a launch is gated -/

/-- The inputs on which the flag is read for the image it was raised for.
Either `do_bootm` refuses the image by its other checks, or `vboot_verify`
accepts now and the span computed from the header reaches past the kernel, or it
does not accept now and no earlier command had raised the flag. -/
def GateCondition (board : Board) (before : BootState) (event : Event) : Prop :=
  match event.command with
  | .iminfo _ => True
  | .bootm argument =>
      let memory := event.console.memory
      let address := bootmAddress event.console argument
      openLaunch board event.console address = none ∨
        match acceptedSpan board memory address with
        | none => before.fwVerified = false
        | some span =>
            let kernelLen := (readTplinkImageHeader memory address).ihKernelLen.toNat
            span.extent ⟨address, 512 + kernelLen⟩ ≤ span.size

theorem doIminfo_launch : (doIminfo board console argument state).launch = none := by
  unfold doIminfo
  split
  · rfl
  · dsimp only
    split <;> rfl

theorem gated_of_accepted
    (accepted : acceptedSpan board console.memory (bootmAddress console argument) = some span)
    (starts : openLaunch board console (bootmAddress console argument) = some launch) :
    (doBootm board console argument state).Gated ↔
      span.extent ⟨bootmAddress console argument,
        512 + (readTplinkImageHeader console.memory
          (bootmAddress console argument)).ihKernelLen.toNat⟩ ≤ span.size := by
  have kind := acceptedSpan_tplink accepted
  have bound := acceptedSpan_size_lt accepted
  rw [← AddressSpan.covers_iff_extent_le bound (by simp only; omega),
    ← AddressSpan.covers_append_iff (by decide)]
  simp only [Outcome.Gated, doBootm_launch, doBootm_accepted, accepted, starts, Option.isSome_some,
    Bool.or_true, if_true, Option.some.injEq, forall_eq', exists_eq_left']
  rw [openLaunch_tplink kind starts]
  rfl

/-- One command: the launch is gated exactly under the condition. -/
theorem perform_gated_iff (event : Event) :
    (perform board event state).Gated ↔ GateCondition board state event := by
  obtain ⟨console, command⟩ := event
  cases command with
  | iminfo argument => simp [perform, GateCondition, Outcome.Gated, doIminfo_launch]
  | bootm argument =>
      simp only [perform, GateCondition]
      cases starts : openLaunch board console (bootmAddress console argument) with
      | none => simp [Outcome.Gated, doBootm_launch, starts]
      | some launch =>
          cases accepted : acceptedSpan board console.memory (bootmAddress console argument) with
          | none =>
              simp [Outcome.Gated, doBootm_launch, doBootm_accepted, starts, accepted]
          | some span => simpa using gated_of_accepted accepted starts

theorem session_outcome {events : List Event} {call : Call}
    (member : call ∈ session board state events) :
    call.outcome = perform board call.event call.before := by
  induction events generalizing state with
  | nil => simp [session] at member
  | cons event rest induction =>
      simp only [session, List.mem_cons] at member
      rcases member with rfl | member
      · rfl
      · split at member
        · simp at member
        · exact induction member

/-- A session launches only verified images exactly when each of its commands
meets `GateCondition` in the state that the commands before it left. -/
theorem verifiedBootGate_iff (board : Board) (events : List Event) :
    VerifiedBootGate board events ↔
      ∀ call ∈ session board .initial events, GateCondition board call.before call.event := by
  unfold VerifiedBootGate
  refine forall₂_congr fun call member => ?_
  rw [session_outcome member, perform_gated_iff]

/-! ## A session that starts an unverified image -/

/-- Two TP-Link images, at `0` and at `0x10000`; only the first is followed by
the byte `0x53` that stands for a good signature. -/
def twoImages : Memory := fun address =>
  if address = 0 ∨ address = 0x10000 then 1
  else if address = 0x82 ∨ address = 0x10082 then 2
  else if address = 0x87 ∨ address = 0x10087 then 8
  else if address = 0x208 then 0x53
  else 0

def sampleBoard : Board where
  cfgLoadAddr := 0x9F020000
  vbootVerify := fun _ signature => signature.head? == some 0x53
  tinfCrc32 := fun _ => 0
  lzmaInflate := fun _ => true

def twoImagesConsole : Console := ⟨twoImages, 0x9F020000, none⟩

def iminfoSigned : Event := ⟨twoImagesConsole, .iminfo (some 0)⟩
def bootmUnsigned : Event := ⟨twoImagesConsole, .bootm (some 0x10000)⟩

/-- `iminfo` of the signed image raises the flag; `bootm` of the other image
starts it although its own check was refused. -/
theorem staleFlag_starts_unverified :
    ¬ ∀ board events, VerifiedBootGate board events := by
  intro gate
  have raised : (perform sampleBoard iminfoSigned .initial).state.fwVerified = true := by
    rfl
  have refused : acceptedSpan sampleBoard twoImages 0x10000 = none := by rfl
  have starts : openLaunch sampleBoard twoImagesConsole 0x10000 ≠ none := by decide
  obtain ⟨launch, starts⟩ := Option.ne_none_iff_exists'.mp starts
  let before := (perform sampleBoard iminfoSigned .initial).state
  have member : (⟨before, bootmUnsigned, perform sampleBoard bootmUnsigned before⟩ : Call) ∈
      session sampleBoard .initial [iminfoSigned, bootmUnsigned] := by
    simp [session, before, show (perform sampleBoard iminfoSigned .initial).launch = none from
      doIminfo_launch]
  have launched : (perform sampleBoard bootmUnsigned before).launch = some launch := by
    change (doBootm _ _ _ _).launch = _
    rw [doBootm_launch, raised]
    exact starts
  obtain ⟨span, accepted, -⟩ := gate sampleBoard _ _ member launch launched
  change (doBootm _ _ _ _).accepted = _ at accepted
  rw [doBootm_accepted] at accepted
  exact nomatch refused.symm.trans accepted

end Rut9xx.Boot
