import Mathlib.Data.List.Chain
import Mathlib.Data.UInt

namespace Rut9xx.GpioButton

/-! # The polled buttons of `gpio-button-hotplug.c` -/

section

/-- The values of `type` that the probe accepts: 0, `EV_KEY` and `EV_SW`. -/
inductive InputType where
  | unset
  | key
  | switch
  deriving DecidableEq

/-- `type ?: EV_KEY` -/
def InputType.orKey : InputType → InputType
  | unset => key
  | type => type

/-- `gpio_keys_button` -/
structure Button where
  name : String
  type : InputType
  activeLow : Bool
  debounceInterval : Nat

/-- `gpio_keys_button_data`; before the first state is known `last_state` is -1, here `none`. -/
structure ButtonData where
  button : Button
  seen : UInt32
  lastState : Option Bool
  count : Nat
  threshold : Nat

/-- The arguments of `button_hotplug_create_event`. -/
structure Event where
  name : String
  type : InputType
  seen : UInt32
  pressed : Bool
  deriving DecidableEq

/-- What a poll reads: the pin and the clock. -/
structure Sample where
  value : Bool
  jiffies : UInt32

/-- The part of `gpio_keys_button_probe` for one polled button. -/
def probe (button : Button) (pollInterval : Nat) : ButtonData where
  button := button
  seen := 0
  lastState := none
  count := 0
  threshold := (button.debounceInterval + pollInterval - 1) / pollInterval

namespace ButtonData

/-- `gpio_button_get_value` -/
def getValue (bdata : ButtonData) (sample : Sample) : Bool :=
  xor sample.value bdata.button.activeLow

def setState (bdata : ButtonData) (state : Bool) : ButtonData :=
  { bdata with lastState := some state, count := 0 }

/-- `gpio_keys_handle_button` -/
def handle (hz : UInt32) (bdata : ButtonData) (sample : Sample) : ButtonData × Option Event :=
  let type := bdata.button.type.orKey
  let state := bdata.getValue sample
  -- a button that is not pressed is not reported on initialization
  if bdata.lastState = none ∧ type = .key ∧ state = false then (bdata.setState state, none)
  else if bdata.lastState = some state then ({ bdata with count := 0 }, none)
  else if bdata.count < bdata.threshold then ({ bdata with count := bdata.count + 1 }, none)
  else
    let since := if bdata.seen = 0 then sample.jiffies else bdata.seen
    ({ bdata with seen := sample.jiffies }.setState state,
      some
        { name := bdata.button.name
          type := type
          seen := (sample.jiffies - since) / hz
          pressed := state })

/-- The state of a button after a series of samples. -/
def after (hz : UInt32) (bdata : ButtonData) (samples : List Sample) : ButtonData :=
  samples.foldl (fun bdata sample => (bdata.handle hz sample).1) bdata

/-- The events of a series of samples, each with the levels up to it, the newest first. -/
def events (hz : UInt32) (bdata : ButtonData) (past : List Bool) :
    List Sample → List (Event × List Bool)
  | [] => []
  | sample :: rest =>
      let levels := bdata.getValue sample :: past
      (bdata.handle hz sample).2.toList.map (fun event => (event, levels)) ++
        events hz (bdata.handle hz sample).1 levels rest

end ButtonData

/-- `gpio_keys_polled_poll`; an entry without a GPIO is passed over. -/
def polledPoll (hz : UInt32) (data : List (Option ButtonData)) (samples : Nat → Sample) :
    List (Option ButtonData × Option Event) :=
  data.mapIdx fun i entry =>
    match entry with
    | none => (none, none)
    | some bdata =>
        let (bdata, event) := bdata.handle hz (samples i)
        (some bdata, event)

/-- The entries after a series of polls. -/
def polledRun (hz : UInt32) (data : List (Option ButtonData)) (polls : List (Nat → Sample)) :
    List (Option ButtonData) :=
  polls.foldl (fun data samples => (polledPoll hz data samples).map (·.1)) data

end

/-! # Which events a bouncing input leads to -/

section

variable {hz : UInt32} {bdata : ButtonData} {past : List Bool} {samples : List Sample}
  {sample : Sample} {state level : Bool} {data : List (Option ButtonData)}

/-! ## Each button by itself -/

/-- A button sees its own samples and nothing of the others. -/
theorem polledRun_entry (polls : List (Nat → Sample)) (i : Nat) :
    (polledRun hz data polls)[i]? =
      data[i]?.map fun entry => entry.map fun bdata => bdata.after hz (polls.map (· i)) := by
  induction polls generalizing data with
  | nil =>
      have start : polledRun hz data [] = data := rfl
      rw [start]
      cases data[i]? with
      | none => rfl
      | some entry => cases entry <;> rfl
  | cons samples rest ih =>
      rw [polledRun, List.foldl_cons, ← polledRun, ih, List.getElem?_map, polledPoll,
        List.getElem?_mapIdx]
      cases data[i]? with
      | none => rfl
      | some entry => cases entry <;> rfl

/-! ## What is asked of the events -/

/-- Each event comes at the end of `threshold + 1` samples of the level it reports, and the levels
alternate. -/
structure Debounced (threshold : Nat) (events : List (Event × List Bool)) : Prop where
  settled : ∀ entry ∈ events,
    entry.2.take (threshold + 1) = List.replicate (threshold + 1) entry.1.pressed
  alternates : (events.map (·.1.pressed)).IsChain (· ≠ ·)

/-- The first samples of a switch, until one is reported, are of one level. -/
def SteadyStart (bdata : ButtonData) (samples : List Sample) : Prop :=
  samples.length ≤ bdata.threshold ∨
    ∃ level, ∀ sample ∈ samples.take (bdata.threshold + 1), bdata.getValue sample = level

theorem streak_succ {count : Nat} (streak : past.take count = List.replicate count level) :
    (level :: past).take (count + 1) = List.replicate (count + 1) level := by
  rw [List.take_succ_cons, streak, List.replicate_succ]

/-! ## Once a state is known -/

theorem handle_same (known : bdata.lastState = some state) (same : bdata.getValue sample = state) :
    bdata.handle hz sample = ({ bdata with count := 0 }, none) := by
  rw [ButtonData.handle, known, same]
  simp

theorem handle_waits (open' : bdata.lastState = none → bdata.button.type.orKey = .key →
      bdata.getValue sample = true)
    (other : bdata.lastState ≠ some (bdata.getValue sample))
    (below : bdata.count < bdata.threshold) :
    bdata.handle hz sample = ({ bdata with count := bdata.count + 1 }, none) := by
  have reported : ¬(bdata.lastState = none ∧ bdata.button.type.orKey = .key ∧
      bdata.getValue sample = false) := by
    intro idle
    rw [open' idle.1 idle.2.1] at idle
    cases idle.2.2
  rw [ButtonData.handle, if_neg reported, if_neg other, if_pos below]

theorem handle_reports (hz : UInt32) (open' : bdata.lastState = none →
      bdata.button.type.orKey = .key → bdata.getValue sample = true)
    (other : bdata.lastState ≠ some (bdata.getValue sample))
    (reached : bdata.threshold ≤ bdata.count) :
    ∃ after event, bdata.handle hz sample = (after, some event) ∧
      event.pressed = bdata.getValue sample ∧ after.lastState = some (bdata.getValue sample) ∧
      after.count = 0 ∧ after.button = bdata.button ∧ after.threshold = bdata.threshold := by
  have reported : ¬(bdata.lastState = none ∧ bdata.button.type.orKey = .key ∧
      bdata.getValue sample = false) := by
    intro idle
    rw [open' idle.1 idle.2.1] at idle
    cases idle.2.2
  rw [ButtonData.handle, if_neg reported, if_neg other, if_neg (Nat.not_lt_of_le reached)]
  exact ⟨_, _, rfl, rfl, rfl, rfl, rfl, rfl⟩

theorem events_quiet {next : ButtonData} {rest : List Sample}
    (quiet : bdata.handle hz sample = (next, none)) :
    bdata.events hz past (sample :: rest) =
      next.events hz (bdata.getValue sample :: past) rest := by
  rw [ButtonData.events, quiet]
  rfl

theorem events_reported {next : ButtonData} {event : Event} {rest : List Sample}
    (reported : bdata.handle hz sample = (next, some event)) :
    bdata.events hz past (sample :: rest) =
      (event, bdata.getValue sample :: past) ::
        next.events hz (bdata.getValue sample :: past) rest := by
  rw [ButtonData.events, reported]
  rfl

/-- From a known state on, whatever was sampled. The last `count` samples differ from it. -/
theorem known_debounced (known : bdata.lastState = some state)
    (streak : past.take bdata.count = List.replicate bdata.count (!state))
    (below : bdata.count ≤ bdata.threshold) :
    (∀ entry ∈ bdata.events hz past samples,
      entry.2.take (bdata.threshold + 1) =
        List.replicate (bdata.threshold + 1) entry.1.pressed) ∧
      (state :: (bdata.events hz past samples).map (·.1.pressed)).IsChain (· ≠ ·) := by
  induction samples generalizing bdata past state with
  | nil =>
      constructor
      · intro entry member
        cases member
      · exact List.IsChain.singleton state
  | cons sample rest ih =>
      by_cases same : bdata.getValue sample = state
      · rw [events_quiet (handle_same known same)]
        exact @ih { bdata with count := 0 } (bdata.getValue sample :: past) state known rfl
          (Nat.zero_le _)
      · have flipped : bdata.getValue sample = !state := by
          cases state <;> simpa using same
        have open' : bdata.lastState = none → bdata.button.type.orKey = .key →
            bdata.getValue sample = true := by
          intro unknown
          rw [known] at unknown
          cases unknown
        have other : bdata.lastState ≠ some (bdata.getValue sample) := by
          rw [known]
          exact fun met => same (Option.some.inj met).symm
        have longer := streak_succ streak
        rw [← flipped] at longer
        by_cases waits : bdata.count < bdata.threshold
        · rw [events_quiet (handle_waits open' other waits)]
          rw [flipped] at longer ⊢
          exact @ih { bdata with count := bdata.count + 1 } _ state known longer waits
        · obtain ⟨next, event, reported, pressed, state', count, -, threshold⟩ :=
            handle_reports hz open' other (Nat.le_of_not_lt waits)
          have full : bdata.count = bdata.threshold := Nat.le_antisymm below (Nat.le_of_not_lt waits)
          obtain ⟨settled, alternates⟩ := @ih next (bdata.getValue sample :: past)
            (bdata.getValue sample) state' (by rw [count]; rfl) (by omega)
          rw [events_reported reported]
          constructor
          · intro entry member
            cases member with
            | head =>
                dsimp only
                rw [pressed, ← full]
                exact longer
            | tail _ later =>
                rw [← threshold]
                exact settled entry later
          · rw [List.map_cons, pressed, List.isChain_cons_cons]
            exact ⟨Ne.symm same, alternates⟩

/-! ## Before a state is known -/

/-- From the initialization on. What was sampled is of one level so far, and of a switch what is
still to be sampled before its first event is of that level too. -/
theorem unknown_debounced (unknown : bdata.lastState = none)
    (streak : past.take bdata.count = List.replicate bdata.count level)
    (below : bdata.count ≤ bdata.threshold)
    (pressed : bdata.button.type.orKey = .key → level = true)
    (steady : bdata.button.type.orKey ≠ .key →
      ∀ sample ∈ samples.take (bdata.threshold + 1 - bdata.count), bdata.getValue sample = level) :
    Debounced bdata.threshold (bdata.events hz past samples) := by
  induction samples generalizing bdata past with
  | nil =>
      constructor
      · intro entry member
        cases member
      · exact List.IsChain.nil
  | cons sample rest ih =>
      by_cases idle : bdata.button.type.orKey = .key ∧ bdata.getValue sample = false
      · have saved : bdata.handle hz sample = (bdata.setState false, none) := by
          rw [ButtonData.handle, if_pos ⟨unknown, idle⟩, idle.2]
        rw [events_quiet saved]
        obtain ⟨settled, alternates⟩ := @known_debounced hz (bdata.setState false)
          (bdata.getValue sample :: past) rest false rfl rfl (Nat.zero_le _)
        exact ⟨settled, alternates.tail⟩
      · have steady' : bdata.getValue sample = level := by
          by_cases key : bdata.button.type.orKey = .key
          · rw [pressed key]
            exact (Bool.not_eq_false _).mp fun low => idle ⟨key, low⟩
          · apply steady key
            rw [show bdata.threshold + 1 - bdata.count = bdata.threshold - bdata.count + 1 by omega,
              List.take_succ_cons]
            exact List.mem_cons_self
        have open' : bdata.lastState = none → bdata.button.type.orKey = .key →
            bdata.getValue sample = true :=
          fun _ key => steady'.trans (pressed key)
        have other : bdata.lastState ≠ some (bdata.getValue sample) := by
          rw [unknown]
          exact (Option.some_ne_none _).symm
        have longer := streak_succ streak
        by_cases waits : bdata.count < bdata.threshold
        · rw [events_quiet (handle_waits open' other waits), steady']
          apply @ih { bdata with count := bdata.count + 1 } _ unknown longer waits pressed
          intro switch sample' member
          apply steady switch
          rw [show bdata.threshold + 1 - bdata.count = bdata.threshold + 1 - (bdata.count + 1) + 1 by
            omega, List.take_succ_cons]
          exact List.mem_cons_of_mem _ member
        · obtain ⟨next, event, reported, told, state', count, -, threshold⟩ :=
            handle_reports hz open' other (Nat.le_of_not_lt waits)
          have full : bdata.count = bdata.threshold := Nat.le_antisymm below (Nat.le_of_not_lt waits)
          obtain ⟨settled, alternates⟩ := @known_debounced hz next (bdata.getValue sample :: past)
            rest (bdata.getValue sample) state' (by rw [count]; rfl) (by omega)
          rw [events_reported reported]
          constructor
          · intro entry member
            cases member with
            | head =>
                dsimp only
                rw [told, ← full, steady']
                exact longer
            | tail _ later =>
                rw [← threshold]
                exact settled entry later
          · rw [List.map_cons, told]
            exact alternates

/-- The first event of a switch comes after `threshold + 1` samples, whatever their levels. -/
theorem unknown_reports (unknown : bdata.lastState = none)
    (switch : bdata.button.type.orKey ≠ .key) (below : bdata.count ≤ bdata.threshold)
    (enough : bdata.threshold < bdata.count + samples.length) :
    ∃ event, (event, ((samples.take (bdata.threshold + 1 - bdata.count)).map
      bdata.getValue).reverse ++ past) ∈ bdata.events hz past samples := by
  induction samples generalizing bdata past with
  | nil => exact absurd enough (Nat.not_lt_of_le below)
  | cons sample rest ih =>
      have open' : bdata.lastState = none → bdata.button.type.orKey = .key →
          bdata.getValue sample = true := fun _ key => absurd key switch
      have other : bdata.lastState ≠ some (bdata.getValue sample) := by
        rw [unknown]
        exact (Option.some_ne_none _).symm
      rw [List.length_cons] at enough
      by_cases waits : bdata.count < bdata.threshold
      · rw [events_quiet (handle_waits open' other waits)]
        obtain ⟨event, listed⟩ := @ih { bdata with count := bdata.count + 1 }
          (bdata.getValue sample :: past) unknown switch waits (by dsimp only; omega)
        refine ⟨event, ?_⟩
        rw [show bdata.threshold + 1 - bdata.count = bdata.threshold + 1 - (bdata.count + 1) + 1 by
          omega, List.take_succ_cons, List.map_cons, List.reverse_cons, List.append_assoc]
        exact listed
      · obtain ⟨next, event, reported, -⟩ :=
          handle_reports hz open' other (Nat.le_of_not_lt waits)
        refine ⟨event, ?_⟩
        rw [events_reported reported, show bdata.threshold + 1 - bdata.count = 0 + 1 by omega,
          List.take_succ_cons]
        exact List.mem_cons_self

/-- Fewer samples lead to no event. -/
theorem unknown_quiet (unknown : bdata.lastState = none)
    (switch : bdata.button.type.orKey ≠ .key)
    (few : bdata.count + samples.length ≤ bdata.threshold) : bdata.events hz past samples = [] := by
  induction samples generalizing bdata past with
  | nil => rfl
  | cons sample rest ih =>
      rw [List.length_cons] at few
      have other : bdata.lastState ≠ some (bdata.getValue sample) := by
        rw [unknown]
        exact (Option.some_ne_none _).symm
      rw [events_quiet (handle_waits (fun _ key => absurd key switch) other (by omega))]
      exact @ih { bdata with count := bdata.count + 1 } _ unknown switch (by dsimp only; omega)

/-! ## From the probe on -/

theorem debounced_iff (hz : UInt32) (button : Button) (pollInterval : Nat)
    (samples : List Sample) :
    Debounced (probe button pollInterval).threshold
        ((probe button pollInterval).events hz [] samples) ↔
      button.type ≠ .switch ∨ SteadyStart (probe button pollInterval) samples := by
  generalize start : probe button pollInterval = bdata
  have unknown : bdata.lastState = none := by rw [← start]; rfl
  have zero : bdata.count = 0 := by rw [← start]; rfl
  have type : bdata.button.type = button.type := by rw [← start]; rfl
  by_cases switch : button.type = .switch
  · have notKey : bdata.button.type.orKey ≠ .key := by
      rw [type, switch]
      decide
    constructor
    · intro debounced
      refine .inr ?_
      by_contra unsteady
      obtain ⟨long, mixed⟩ := not_or.mp unsteady
      obtain ⟨event, listed⟩ := @unknown_reports hz bdata [] samples unknown notKey (by omega)
        (by omega)
      have same := debounced.settled _ listed
      rw [zero, Nat.sub_zero, List.append_nil, List.take_of_length_le (by simp)] at same
      apply mixed
      refine ⟨event.pressed, fun sample member => ?_⟩
      apply List.eq_of_mem_replicate (n := bdata.threshold + 1)
      rw [← same, List.mem_reverse]
      exact List.mem_map_of_mem member
    · intro either
      obtain few | ⟨level, steady⟩ := either.resolve_left (fun other => other switch)
      · rw [unknown_quiet unknown notKey (by omega)]
        constructor
        · intro entry member
          cases member
        · exact List.IsChain.nil
      · apply @unknown_debounced hz bdata [] samples level unknown
        · rw [zero]
          rfl
        · omega
        · exact fun key => absurd key notKey
        · intro _ sample member
          rw [zero] at member
          exact steady sample member
  · have key : bdata.button.type.orKey = .key := by
      rw [type]
      cases h : button.type with
      | unset => rfl
      | key => rfl
      | switch => exact absurd h switch
    constructor
    · exact fun _ => .inl switch
    · intro _
      apply @unknown_debounced hz bdata [] samples true unknown
      · rw [zero]
        rfl
      · omega
      · exact fun _ => rfl
      · exact fun other => absurd key other

/-- A switch that bounces while the driver starts, with a threshold of 2. -/
theorem switch_not_debounced :
    ¬ Debounced (probe ⟨"wlan", .switch, false, 5⟩ 3).threshold
      ((probe ⟨"wlan", .switch, false, 5⟩ 3).events 100 []
        [⟨false, 1⟩, ⟨false, 2⟩, ⟨true, 3⟩]) := by
  intro debounced
  have listed : (⟨"wlan", .switch, 0, true⟩, [true, false, false]) ∈
      (probe ⟨"wlan", .switch, false, 5⟩ 3).events 100 [] [⟨false, 1⟩, ⟨false, 2⟩, ⟨true, 3⟩] := by
    decide
  have same := debounced.settled _ listed
  revert same
  decide

end

end Rut9xx.GpioButton
