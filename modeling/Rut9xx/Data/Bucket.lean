import Mathlib.Data.Rat.Floor
import Mathlib.Tactic.Linarith
import Mathlib.Tactic.Ring

namespace Rut9xx.Data

/-! # A bucket that leaks at a rate, exactly and in whole units -/

/-- What is left of a level when an amount has run out of it. -/
def leak (level amount : ℚ) : ℚ := max 0 (level - amount)

/-- The level of a bucket that leaks exactly, with what is added at its times. -/
def exactLevel (rate level since : ℚ) : List (ℚ × Nat) → ℚ → ℚ
  | [], now => leak level (rate * (now - since))
  | (time, amount) :: rest, now =>
      exactLevel rate (leak level (rate * (time - since)) + amount) time rest now

/-- A bucket of whole units, as it was left the last time. -/
structure Bucket (size : Nat) where
  level : Nat
  since : ℚ
  below : level ≤ size

variable {size : Nat} {rate level since now missing before after : ℚ} {bucket : Bucket size}
  {offers added : List (ℚ × Nat)} {time : ℚ} {amount : Nat}

/-- The whole units that have run out are taken off. -/
def Bucket.drained (bucket : Bucket size) (rate now : ℚ) : Nat :=
  bucket.level - ⌊rate * (now - bucket.since)⌋₊

theorem Bucket.drained_le : bucket.drained rate now ≤ size :=
  Nat.le_trans (Nat.sub_le _ _) bucket.below

/-- An amount that would overflow the bucket is turned down. -/
def Bucket.offer (bucket : Bucket size) (rate now : ℚ) (amount : Nat) : Bucket size × Bool :=
  if fits : bucket.drained rate now + amount ≤ size then
    (⟨bucket.drained rate now + amount, now, fits⟩, true)
  else (⟨bucket.drained rate now, now, Bucket.drained_le⟩, false)

def Bucket.run (bucket : Bucket size) (rate : ℚ) : List (ℚ × Nat) → Bucket size
  | [] => bucket
  | (time, amount) :: rest => ((bucket.offer rate time amount).1).run rate rest

def Bucket.accepted (bucket : Bucket size) (rate : ℚ) : List (ℚ × Nat) → List (ℚ × Nat)
  | [] => []
  | (time, amount) :: rest =>
      (if (bucket.offer rate time amount).2 then [(time, amount)] else []) ++
        ((bucket.offer rate time amount).1).accepted rate rest

/-- The fractions that were not taken off since the bucket was last drained of everything. -/
def Bucket.lost (bucket : Bucket size) (rate missing : ℚ) : List (ℚ × Nat) → ℚ
  | [] => missing
  | (time, amount) :: rest =>
      ((bucket.offer rate time amount).1).lost rate
        (if bucket.drained rate time = 0 then 0 else missing + Int.fract (rate * (time - bucket.since))) rest

/-- Times that do not go back, from one on. -/
def Onward (since : ℚ) (offers : List (ℚ × Nat)) : Prop :=
  (since :: offers.map Prod.fst).Pairwise (· ≤ ·)

theorem onward_cons : Onward since ((time, amount) :: offers) ↔ since ≤ time ∧ Onward time offers := by
  constructor
  · intro onward
    obtain ⟨first, rest⟩ := List.pairwise_cons.mp onward
    exact ⟨first time List.mem_cons_self, rest⟩
  · intro ⟨first, rest⟩
    apply List.pairwise_cons.mpr
    refine ⟨?_, rest⟩
    intro later member
    rcases List.mem_cons.mp member with rfl | further
    · exact first
    · exact Rat.le_trans first ((List.pairwise_cons.mp rest).1 later further)

/-! ## The exact bucket -/

/-- Two leaks one after the other are one leak. -/
theorem leak_leak {first second : ℚ} (positive : 0 ≤ second) :
    leak (leak level first) second = leak level (first + second) := by
  unfold leak
  rcases le_total 0 (level - first) with some' | none'
  · rw [max_eq_right some']
    congr 1
    ring
  · rw [max_eq_left none', max_eq_left (by linarith), max_eq_left (by linarith)]

/-- A look at the bucket on the way changes nothing. -/
theorem exactLevel_look (positive : 0 ≤ rate) (onward : Onward time added) (early : time ≤ now) :
    exactLevel rate (leak level (rate * (time - since))) time added now =
      exactLevel rate level since added now := by
  have steps {later : ℚ} (behind : time ≤ later) :
      leak (leak level (rate * (time - since))) (rate * (later - time)) =
        leak level (rate * (later - since)) := by
    rw [leak_leak (mul_nonneg positive (sub_nonneg.mpr behind))]
    congr 1
    ring
  cases added with
  | nil => exact steps early
  | cons next rest =>
      obtain ⟨later, amount⟩ := next
      rw [exactLevel, exactLevel, steps (Iff.mp onward_cons onward).1]

theorem Onward.sublist (onward : Onward since offers) (less : added.Sublist offers) :
    Onward since added :=
  List.Pairwise.sublist ((less.map Prod.fst).cons_cons since) onward

/-- Nor does what adds nothing. -/
theorem exactLevel_filter (positive : 0 ≤ rate) (onward : Onward since added)
    (ended : ∀ event ∈ added, event.1 ≤ now) :
    exactLevel rate level since (added.filter (·.2 ≠ 0)) now = exactLevel rate level since added now := by
  induction added generalizing level since with
  | nil => rfl
  | cons event rest ih =>
      obtain ⟨time, amount⟩ := event
      have further := (Iff.mp onward_cons onward).2
      have inside : ∀ event ∈ rest, event.1 ≤ now :=
        fun event member => ended event (List.mem_cons_of_mem _ member)
      by_cases nothing : amount = 0
      · subst nothing
        have early : time ≤ now := ended (time, 0) List.mem_cons_self
        rw [List.filter_cons_of_neg (by simp), exactLevel, Nat.cast_zero, add_zero,
          ← ih further inside]
        exact (exactLevel_look positive (further.sublist List.filter_sublist) early).symm
      · rw [List.filter_cons_of_pos (by simpa using nothing), exactLevel, exactLevel, ih further inside]

/-- An empty bucket leaks nothing. -/
theorem exactLevel_empty {start : ℚ} (positive : 0 ≤ rate) (onward : Onward since added)
    (onward' : Onward start added) (early : since ≤ now) (early' : start ≤ now) :
    exactLevel rate 0 since added now = exactLevel rate 0 start added now := by
  have empty {first later : ℚ} (ordered : first ≤ later) : leak 0 (rate * (later - first)) = 0 := by
    have amount := mul_nonneg positive (sub_nonneg.mpr ordered)
    exact max_eq_left (by linarith)
  cases added with
  | nil => rw [exactLevel, exactLevel, empty early, empty early']
  | cons event rest =>
      rw [exactLevel, exactLevel, empty (Iff.mp onward_cons onward).1, empty (Iff.mp onward_cons onward').1]

/-! ## Between the exact bucket and the one of whole units -/

theorem floor_between {out : ℚ} (some' : 0 ≤ out) (above : level ≤ amount) (near : amount ≤ level + missing) :
    leak level out ≤ ((amount - ⌊out⌋₊ : Nat) : ℚ) ∧
      ((amount - ⌊out⌋₊ : Nat) : ℚ) ≤
        leak level out + if amount - ⌊out⌋₊ = 0 then 0 else missing + Int.fract out := by
  have whole : (⌊out⌋₊ : ℚ) ≤ out := Nat.floor_le some'
  have fraction : Int.fract out = out - ⌊out⌋₊ := by
    rw [natCast_floor_eq_intCast_floor some', Int.self_sub_floor]
  by_cases empty : amount - ⌊out⌋₊ = 0
  · have few : (amount : ℚ) ≤ ⌊out⌋₊ := Nat.cast_le.mpr (Nat.sub_eq_zero_iff_le.mp empty)
    have none' : leak level out = 0 := max_eq_left (by linarith)
    simp [empty, none']
  · have less : ⌊out⌋₊ ≤ amount := by omega
    rw [if_neg empty, Nat.cast_sub less, fraction]
    have enough : level - out ≤ leak level out := le_max_right _ _
    have few : (⌊out⌋₊ : ℚ) ≤ amount := Nat.cast_le.mpr less
    constructor
    · exact max_le (by linarith) (by linarith)
    · linarith

theorem offer_since : (bucket.offer rate time amount).1.since = time := by
  unfold Bucket.offer
  split <;> rfl

theorem offer_level : (bucket.offer rate time amount).1.level = bucket.drained rate time +
    if (bucket.offer rate time amount).2 then amount else 0 := by
  unfold Bucket.offer
  split <;> rfl

theorem accepted_sublist : (bucket.accepted rate offers).Sublist offers := by
  induction offers generalizing bucket with
  | nil => exact List.Sublist.refl _
  | cons offer rest ih =>
      obtain ⟨time, amount⟩ := offer
      rw [Bucket.accepted]
      split
      · exact ih.cons_cons _
      · exact ih.cons _

/-- The last look was at the last offer. -/
theorem run_since (onward : Onward bucket.since offers) :
    bucket.since ≤ (bucket.run rate offers).since ∧
      ∀ event ∈ offers, event.1 ≤ (bucket.run rate offers).since := by
  induction offers generalizing bucket with
  | nil => exact ⟨le_refl _, by simp⟩
  | cons offer rest ih =>
      obtain ⟨time, amount⟩ := offer
      obtain ⟨first, further⟩ := Iff.mp onward_cons onward
      have onward' : Onward (bucket.offer rate time amount).1.since rest := by rwa [offer_since]
      obtain ⟨early, inside⟩ := ih onward'
      rw [offer_since] at early
      refine ⟨le_trans first early, ?_⟩
      intro event member
      rcases List.mem_cons.mp member with rfl | later
      · exact early
      · exact inside event later

/-- The bucket of whole units is above the exact one by no more than the fractions lost. -/
theorem run_exact (positive : 0 ≤ rate) (onward : Onward bucket.since offers)
    (above : level ≤ bucket.level) (near : bucket.level ≤ level + missing) :
    exactLevel rate level bucket.since (bucket.accepted rate offers) (bucket.run rate offers).since ≤
        (bucket.run rate offers).level ∧
      (bucket.run rate offers).level ≤
        exactLevel rate level bucket.since (bucket.accepted rate offers) (bucket.run rate offers).since +
          bucket.lost rate missing offers := by
  induction offers generalizing bucket level missing with
  | nil =>
      have still : leak level (rate * (bucket.since - bucket.since)) = max 0 level := by
        rw [sub_self, mul_zero, leak, sub_zero]
      have some' : (0 : ℚ) ≤ bucket.level := Nat.cast_nonneg _
      simp only [Bucket.accepted, Bucket.run, exactLevel, Bucket.lost, still]
      exact ⟨max_le some' above, near.trans (add_le_add_left (le_max_right _ _) _)⟩
  | cons offer rest ih =>
      obtain ⟨time, amount⟩ := offer
      obtain ⟨first, further⟩ := Iff.mp onward_cons onward
      have out := mul_nonneg positive (sub_nonneg.mpr first)
      obtain ⟨low, high⟩ := floor_between out above near
      rw [← Bucket.drained] at low high
      have onward' : Onward (bucket.offer rate time amount).1.since rest := by rwa [offer_since]
      obtain ⟨early, _⟩ := @run_since _ rate _ _ onward'
      rw [offer_since] at early
      have through := @ih
        (leak level (rate * (time - bucket.since)) +
          ((if (bucket.offer rate time amount).2 then amount else 0 : Nat) : ℚ))
        (if bucket.drained rate time = 0 then 0 else missing + Int.fract (rate * (time - bucket.since)))
        _ onward' (by rw [offer_level, Nat.cast_add]; linarith) (by rw [offer_level, Nat.cast_add]; linarith)
      rw [offer_since] at through
      rw [Bucket.accepted, Bucket.run, Bucket.lost]
      by_cases taken : (bucket.offer rate time amount).2
      · simpa only [taken, if_true, List.singleton_append, exactLevel] using through
      · have same := @exactLevel_look rate level bucket.since
          (((bucket.offer rate time amount).1.run rate rest).since)
          ((bucket.offer rate time amount).1.accepted rate rest) time positive
          (further.sublist accepted_sublist) early
        simpa only [taken, Bool.false_eq_true, if_false, List.nil_append, Nat.cast_zero, add_zero, same]
          using through

/-- The same accepted amounts leave the same level, up to what both have lost. -/
theorem run_close {size' : Nat} {bucket' : Bucket size'} {offers' : List (ℚ × Nat)}
    (positive : 0 ≤ rate) (onward : Onward bucket.since offers) (onward' : Onward bucket'.since offers')
    (empty : bucket.level = 0) (empty' : bucket'.level = 0)
    (same : (bucket.accepted rate offers).filter (·.2 ≠ 0) =
      (bucket'.accepted rate offers').filter (·.2 ≠ 0))
    (ends : (bucket.run rate offers).since = (bucket'.run rate offers').since)
    (few : bucket.lost rate 0 offers ≤ 1) :
    (bucket.run rate offers).level ≤ (bucket'.run rate offers').level + 1 := by
  obtain ⟨early, inside⟩ := @run_since _ rate _ _ onward
  obtain ⟨early', inside'⟩ := @run_since _ rate _ _ onward'
  have accepted := onward.sublist (@accepted_sublist _ rate bucket offers)
  have accepted' := onward'.sublist (@accepted_sublist _ rate bucket' offers')
  have whole := @exactLevel_filter rate 0 _ _ _ positive accepted
    fun event member => inside event (accepted_sublist.subset member)
  have whole' := @exactLevel_filter rate 0 _ _ _ positive accepted'
    fun event member => inside' event (accepted_sublist.subset member)
  have high := (@run_exact _ rate 0 0 bucket offers positive onward (by simp) (by simp [empty])).2
  have low := (@run_exact _ rate 0 0 bucket' offers' positive onward' (by simp) (by simp [empty'])).1
  have between : exactLevel rate 0 bucket.since
        ((bucket.accepted rate offers).filter (·.2 ≠ 0)) (bucket.run rate offers).since =
      exactLevel rate 0 bucket'.since
        ((bucket'.accepted rate offers').filter (·.2 ≠ 0)) (bucket'.run rate offers').since := by
    rw [same, ends]
    exact exactLevel_empty positive (same ▸ accepted.sublist List.filter_sublist)
      (accepted'.sublist List.filter_sublist) (ends ▸ early) early'
  have close : ((bucket.run rate offers).level : ℚ) ≤ (bucket'.run rate offers').level + 1 := by
    linarith
  exact_mod_cast close

/-! ## What is accepted in a window -/

def sumWithin (before after : ℚ) (added : List (ℚ × Nat)) : Nat :=
  ((added.filter fun event => before ≤ event.1 ∧ event.1 ≤ after).map Prod.snd).sum

theorem sumWithin_late (onward : Onward since added) (late : after < since) :
    sumWithin before after added = 0 := by
  have none' : (added.filter fun event => before ≤ event.1 ∧ event.1 ≤ after) = [] := by
    rw [List.filter_eq_nil_iff]
    intro event member
    have behind := (List.pairwise_cons.mp onward).1 event.1 (List.mem_map_of_mem member)
    simp only [decide_eq_true_eq]
    intro inside
    linarith [inside.2]
  rw [sumWithin, none']
  rfl

theorem sumWithin_append {further : List (ℚ × Nat)} : sumWithin before after (added ++ further) =
    sumWithin before after added + sumWithin before after further := by
  simp [sumWithin]

theorem sumWithin_single : sumWithin before after [(time, amount)] =
    if before ≤ time ∧ time ≤ after then amount else 0 := by
  unfold sumWithin
  split <;> simp [*]

theorem sumWithin_filter :
    sumWithin before after (added.filter (·.2 ≠ 0)) = sumWithin before after added := by
  induction added with
  | nil => rfl
  | cons event rest ih =>
      have first := @sumWithin_append before after [event] rest
      rw [List.singleton_append] at first
      by_cases nothing : event.2 = 0
      · rw [List.filter_cons_of_neg (by simp [nothing]), ih, first, sumWithin_single, nothing, ite_self,
          Nat.zero_add]
      · rw [List.filter_cons_of_pos (by simpa using nothing), ← List.singleton_append, sumWithin_append,
          ih, first]

theorem sumWithin_accepted : sumWithin before after (bucket.accepted rate ((time, amount) :: offers)) =
    (if before ≤ time ∧ time ≤ after then
      if (bucket.offer rate time amount).2 then amount else 0 else 0) +
    sumWithin before after ((bucket.offer rate time amount).1.accepted rate offers) := by
  rw [Bucket.accepted, sumWithin_append]
  congr 1
  by_cases taken : (bucket.offer rate time amount).2
  · simp only [taken, if_true, sumWithin_single]
  · simp only [taken, Bool.false_eq_true, if_false, ite_self]
    rfl

theorem level_le_drained (positive : 0 ≤ rate) (early : bucket.since ≤ now) :
    (bucket.level : ℚ) ≤ bucket.drained rate now + rate * (now - bucket.since) := by
  have out := mul_nonneg positive (sub_nonneg.mpr early)
  have units : bucket.level ≤ bucket.drained rate now + ⌊rate * (now - bucket.since)⌋₊ := by
    unfold Bucket.drained
    omega
  have whole : (bucket.level : ℚ) ≤ bucket.drained rate now + ⌊rate * (now - bucket.since)⌋₊ := by
    exact_mod_cast units
  exact whole.trans (add_le_add_right (Nat.floor_le out) _)

/-- From now on no more is accepted than there is room, and what leaks. -/
theorem accepted_until (positive : 0 ≤ rate) (onward : Onward bucket.since offers)
    (early : bucket.since ≤ after) :
    (sumWithin before after (bucket.accepted rate offers) : ℚ) + bucket.level ≤
      size + rate * (after - bucket.since) := by
  induction offers generalizing bucket with
  | nil =>
      have out := mul_nonneg positive (sub_nonneg.mpr early)
      have below : (bucket.level : ℚ) ≤ size := Nat.cast_le.mpr bucket.below
      have nothing : sumWithin before after (bucket.accepted rate []) = 0 := rfl
      rw [nothing, Nat.cast_zero]
      linarith
  | cons offer rest ih =>
      obtain ⟨time, amount⟩ := offer
      obtain ⟨first, further⟩ := Iff.mp onward_cons onward
      have onward' : Onward (bucket.offer rate time amount).1.since rest := by rwa [offer_since]
      have before' := level_le_drained positive first
      rw [sumWithin_accepted]
      rcases le_or_gt time after with inside | late
      · have through := ih onward' (by rwa [offer_since])
        rw [offer_since, offer_level, Nat.cast_add] at through
        have counted : ((if before ≤ time ∧ time ≤ after then
            if (bucket.offer rate time amount).2 then amount else 0 else 0 : Nat) : ℚ) ≤
            ((if (bucket.offer rate time amount).2 then amount else 0 : Nat) : ℚ) := by
          apply Nat.cast_le.mpr
          split
          · exact le_refl _
          · exact Nat.zero_le _
        rw [Nat.cast_add]
        linarith
      · have out := mul_nonneg positive (sub_nonneg.mpr early)
        have below : (bucket.level : ℚ) ≤ size := Nat.cast_le.mpr bucket.below
        rw [if_neg fun window => absurd window.2 (not_le.mpr late),
          sumWithin_late (further.sublist accepted_sublist) late, Nat.zero_add, Nat.cast_zero]
        linarith

/-- In any window no more is accepted than the bucket holds, and what leaks in the window. -/
theorem accepted_window (positive : 0 ≤ rate) (onward : Onward bucket.since offers)
    (window : before ≤ after) :
    (sumWithin before after (bucket.accepted rate offers) : ℚ) ≤ size + rate * (after - before) := by
  have whole := mul_nonneg positive (sub_nonneg.mpr window)
  have some' : (0 : ℚ) ≤ size := Nat.cast_nonneg _
  induction offers generalizing bucket with
  | nil =>
      have nothing : sumWithin before after (bucket.accepted rate []) = 0 := rfl
      rw [nothing, Nat.cast_zero]
      linarith
  | cons offer rest ih =>
      obtain ⟨time, amount⟩ := offer
      obtain ⟨first, further⟩ := Iff.mp onward_cons onward
      have onward' : Onward (bucket.offer rate time amount).1.since rest := by rwa [offer_since]
      rw [sumWithin_accepted]
      by_cases inside : before ≤ time ∧ time ≤ after
      · have through := @accepted_until _ _ before after _ _ positive onward'
          (offer_since.trans_le inside.2)
        have less := mul_nonneg positive (sub_nonneg.mpr inside.1)
        have drained : (0 : ℚ) ≤ bucket.drained rate time := Nat.cast_nonneg _
        rw [offer_since, offer_level, Nat.cast_add] at through
        rw [if_pos inside, Nat.cast_add]
        linarith
      · rw [if_neg inside, Nat.zero_add]
        exact ih onward'

end Rut9xx.Data
