import Rut9xx.Mtdsplit.FitSplit
import Rut9xx.Data.Align

namespace Rut9xx.Mtdsplit

open Rut9xx.Data Rut9xx.Tplink

/-! # `mtdsplit`: what the search for the rootfs returns

The block boundary behind the limit has to be a `size_t`, or the search starts
over from the front of the master.
-/

variable {mtd : MtdInfo} {offset limit fuel : Nat}

/-- A rootfs that a search from `start` on meets below the limit. -/
def RootfsBelow (mtd : MtdInfo) (start limit place : Nat) (type : MtdsplitPartType) : Prop :=
  Searched mtd start place ∧ place < limit ∧ mtdCheckRootfsMagic mtd place = .ok type

/-- The search ends, with the first rootfs or without one where there is none. -/
def ReturnsFirst (mtd : MtdInfo) (start limit : Nat) :
    Option (Except Errno (Nat × MtdsplitPartType)) → Prop
  | none => False
  | some (.ok (place, type)) =>
      RootfsBelow mtd start limit place type ∧
        ∀ earlier, earlier < place → ∀ type, ¬ RootfsBelow mtd start limit earlier type
  | some (.error err) =>
      err = .ENODEV ∧ ∀ place type, ¬ RootfsBelow mtd start limit place type

theorem Searched.reached {place : Nat} (looked : Searched mtd offset place) : offset ≤ place := by
  rcases looked with same | ⟨above, -⟩ <;> omega

/-- The boundary behind `offset` is a place that is looked at, and so is what a search from there
on looks at. -/
theorem Searched.of_next {place : Nat} (positive : 0 < mtd.erasesize)
    (looked : Searched mtd (offset - offset % mtd.erasesize + mtd.erasesize) place) :
    Searched mtd offset place := by
  have boundary : mtd.erasesize ∣ offset - offset % mtd.erasesize + mtd.erasesize :=
    Nat.dvd_add (Nat.dvd_sub_mod offset) (Nat.dvd_refl _)
  have rest := Nat.mod_lt offset positive
  have part := Nat.mod_le offset mtd.erasesize
  rcases looked with same | ⟨above, onBoundary⟩
  · exact .inr ⟨by omega, same ▸ boundary⟩
  · exact .inr ⟨by omega, onBoundary⟩

/-- With a rootfs below the limit the search returns one. -/
theorem findRootfs_returns {target : Nat} {kind : MtdsplitPartType} (positive : 0 < mtd.erasesize)
    (small : limit ≤ 2 ^ 32) (enough : target - offset < fuel)
    (there : RootfsBelow mtd offset limit target kind) :
    ∃ place type, mtdFindRootfsLoop mtd limit fuel offset = some (.ok (place, type)) := by
  obtain ⟨looked, below, magic⟩ := there
  induction fuel generalizing offset with
  | zero => omega
  | succ fuel ih =>
      have inside : offset < limit := Nat.lt_of_le_of_lt looked.reached below
      rw [mtdFindRootfsLoop, if_pos inside]
      cases checked : mtdCheckRootfsMagic mtd offset with
      | ok type => exact ⟨offset, type, rfl⟩
      | error err =>
          have other : target ≠ offset := by
            intro same
            rw [same, checked] at magic
            cases magic
          obtain ⟨reached, boundary⟩ := looked.behind positive other
          have rest := Nat.mod_lt offset positive
          have next : mtdNextEb mtd offset = offset - offset % mtd.erasesize + mtd.erasesize :=
            Nat.mod_eq_of_lt (by omega)
          have again : Searched mtd (mtdNextEb mtd offset) target := by
            rw [next]
            rcases Nat.eq_or_lt_of_le reached with same | above
            · exact .inl same.symm
            · exact .inr ⟨above, boundary⟩
          exact ih (by omega) again

/-- Without one the search runs up to the boundary behind the limit. -/
theorem findRootfs_ended (positive : 0 < mtd.erasesize)
    (room : limit ≤ offset ∨ roundUp limit mtd.erasesize < 2 ^ 32) (enough : limit - offset < fuel)
    (nowhere : ∀ place type, ¬ RootfsBelow mtd offset limit place type) :
    mtdFindRootfsLoop mtd limit fuel offset = some (.error .ENODEV) := by
  induction fuel generalizing offset with
  | zero => omega
  | succ fuel ih =>
      rw [mtdFindRootfsLoop]
      by_cases inside : offset < limit
      · rw [if_pos inside]
        have fits : roundUp limit mtd.erasesize < 2 ^ 32 := by
          rcases room with over' | fits
          · omega
          · exact fits
        cases checked : mtdCheckRootfsMagic mtd offset with
        | ok type => exact absurd ⟨.inl rfl, inside, checked⟩ (nowhere offset type)
        | error err =>
            have rest := Nat.mod_lt offset positive
            have part := Nat.mod_le offset mtd.erasesize
            have reach := le_roundUp limit positive
            have next : mtdNextEb mtd offset = offset - offset % mtd.erasesize + mtd.erasesize := by
              have multiple : offset - offset % mtd.erasesize + mtd.erasesize ≤
                  roundUp limit mtd.erasesize :=
                multiple_next (Nat.dvd_sub_mod offset) (dvd_roundUp limit _) (by omega) (by omega)
              exact Nat.mod_eq_of_lt (by omega)
            refine ih (.inr fits) (by omega) fun place type there => ?_
            rw [next] at there
            exact nowhere place type ⟨there.1.of_next positive, there.2⟩
      · rw [if_neg inside]

/-- Where the boundary behind the limit wraps, the search never runs out of places. -/
theorem findRootfs_not_ended (positive : 0 < mtd.erasesize) (narrow : mtd.erasesize < 2 ^ 32)
    (small : limit ≤ 2 ^ 32) (inside : offset < limit) (wraps : 2 ^ 32 ≤ roundUp limit mtd.erasesize)
    (err : Errno) : mtdFindRootfsLoop mtd limit fuel offset ≠ some (.error err) := by
  induction fuel generalizing offset with
  | zero =>
      intro impossible
      cases impossible
  | succ fuel ih =>
      rw [mtdFindRootfsLoop, if_pos inside]
      cases mtdCheckRootfsMagic mtd offset with
      | ok type =>
          intro impossible
          cases impossible
      | error _ =>
          refine ih ?_
          have rest := Nat.mod_lt offset positive
          have part := Nat.mod_le offset mtd.erasesize
          rw [mtdNextEb]
          by_cases fits : offset - offset % mtd.erasesize + mtd.erasesize < 2 ^ 32
          · rw [Nat.mod_eq_of_lt fits]
            have multiple : mtd.erasesize ∣ offset - offset % mtd.erasesize + mtd.erasesize :=
              Nat.dvd_add (Nat.dvd_sub_mod offset) (Nat.dvd_refl _)
            by_contra beyond
            have least := roundUp_le multiple (Nat.not_lt.mp beyond)
            omega
          · rw [Nat.mod_eq_sub_mod (by omega), Nat.mod_eq_of_lt (by omega)]
            omega

/-- What is searched for is returned, or the search wraps. -/
theorem mtdFindRootfsFrom_first {start : Nat} (positive : 0 < mtd.erasesize) (small : limit < 2 ^ 32)
    (room : limit ≤ start ∨ roundUp limit mtd.erasesize < 2 ^ 32 ∨
      ∃ place type, RootfsBelow mtd start limit place type) :
    ReturnsFirst mtd start limit (mtdFindRootfsFrom mtd start limit) := by
  rw [mtdFindRootfsFrom, Nat.mod_eq_of_lt small]
  by_cases there : ∃ place type, RootfsBelow mtd start limit place type
  · obtain ⟨target, kind, here⟩ := there
    have below := here.2.1
    obtain ⟨place, type, found⟩ := @findRootfs_returns mtd start limit (limit + 1) target kind positive (by omega) (by omega) here
    obtain ⟨inside, magic, -⟩ := findRootfs_searched positive (by omega) found
    obtain ⟨-, looked, first⟩ := findRootfs_least positive (by omega) found here.1 below here.2.2
    rw [found]
    refine ⟨⟨looked, inside, magic⟩, fun earlier before type also => ?_⟩
    exact first earlier before also.1 type also.2.2
  · have nowhere (place : Nat) (type : MtdsplitPartType) : ¬ RootfsBelow mtd start limit place type :=
      fun here => there ⟨place, type, here⟩
    have fits : limit ≤ start ∨ roundUp limit mtd.erasesize < 2 ^ 32 := by
      rcases room with over' | fits | here
      · exact .inl over'
      · exact .inr fits
      · exact absurd here there
    rw [findRootfs_ended positive fits (by omega) nowhere]
    exact ⟨rfl, nowhere⟩

/-- Without a rootfs to stop it, a search that wraps does not say so. -/
theorem mtdFindRootfsFrom_wraps {start : Nat} (positive : 0 < mtd.erasesize)
    (narrow : mtd.erasesize < 2 ^ 32) (small : limit < 2 ^ 32) (inside : start < limit)
    (wraps : 2 ^ 32 ≤ roundUp limit mtd.erasesize)
    (nowhere : ∀ place type, ¬ RootfsBelow mtd start limit place type) :
    ¬ ReturnsFirst mtd start limit (mtdFindRootfsFrom mtd start limit) := by
  rw [mtdFindRootfsFrom, Nat.mod_eq_of_lt small]
  intro returns
  cases result : mtdFindRootfsLoop mtd limit (limit + 1) start with
  | none =>
      rw [result] at returns
      exact returns
  | some value =>
      cases value with
      | error err =>
          exact findRootfs_not_ended positive narrow (Nat.le_of_lt small) inside wraps err result
      | ok found =>
          rw [result] at returns
          exact nowhere _ _ returns.1

/-- The search returns the first rootfs exactly where it has not to pass the end of the `size_t`. -/
theorem mtdFindRootfsFrom_iff (positive : 0 < mtd.erasesize) (narrow : mtd.erasesize < 2 ^ 32)
    (start limit : UInt32) :
    ReturnsFirst mtd start.toNat limit.toNat (mtdFindRootfsFrom mtd start.toNat limit.toNat) ↔
      limit.toNat ≤ start.toNat ∨ roundUp limit.toNat mtd.erasesize < 2 ^ 32 ∨
        ∃ place type, RootfsBelow mtd start.toNat limit.toNat place type := by
  have small := limit.toNat_lt
  constructor
  · intro returns
    by_contra other
    simp only [not_or, Nat.not_le, Nat.not_lt, not_exists] at other
    obtain ⟨inside, wraps, nowhere⟩ := other
    exact mtdFindRootfsFrom_wraps positive narrow small inside wraps nowhere returns
  · exact mtdFindRootfsFrom_first positive small

/-- A squashfs on the second of two 8-byte blocks, searched for from the middle of the first. -/
def squashfsOnSecond : MtdInfo :=
  ⟨List.replicate 8 0 ++ squashfsMagic ++ List.replicate 4 0, 8, .big⟩

theorem mtdFindRootfsFrom_iff_unaligned :
    ReturnsFirst squashfsOnSecond (3 : UInt32).toNat (12 : UInt32).toNat
        (mtdFindRootfsFrom squashfsOnSecond (3 : UInt32).toNat (12 : UInt32).toNat) ↔
      (12 : UInt32).toNat ≤ (3 : UInt32).toNat ∨ roundUp (12 : UInt32).toNat 8 < 2 ^ 32 ∨
        ∃ place type, RootfsBelow squashfsOnSecond (3 : UInt32).toNat (12 : UInt32).toNat place type :=
  mtdFindRootfsFrom_iff (by decide) (by decide) 3 12

/-- A master of zeros that ends one byte short of 4 GiB. -/
def zeros4GiB : MtdInfo := ⟨List.replicate (2 ^ 32 - 1) 0, 0x10000, .big⟩

theorem zeros4GiB_nothing (place : Nat) (type : MtdsplitPartType) :
    mtdCheckRootfsMagic zeros4GiB place ≠ .ok type := by
  intro found
  obtain ⟨magic, read, checked⟩ := bind_eq_ok.mp found
  rw [mtdRead] at read
  split at read
  · rename_i inside
    have bytes : slice zeros4GiB.flash place 4 = List.replicate 4 0 := by
      obtain ⟨-, room⟩ := inside
      have size : zeros4GiB.size = 2 ^ 32 - 1 := List.length_replicate
      rw [slice, zeros4GiB, List.drop_replicate, List.take_replicate, Nat.min_eq_left (by omega)]
    rw [bytes] at read
    cases read
    cases checked
  · cases read

/-- On a master that ends within a block of 4 GiB and has no rootfs the search goes round for ever. -/
theorem mtdFindRootfsFrom_never_ends :
    ¬ ReturnsFirst zeros4GiB 0 (2 ^ 32 - 1) (mtdFindRootfsFrom zeros4GiB 0 (2 ^ 32 - 1)) :=
  mtdFindRootfsFrom_wraps (show 0 < 0x10000 by decide) (show 0x10000 < 2 ^ 32 by decide) (by decide)
    (by decide) (show 2 ^ 32 ≤ roundUp (2 ^ 32 - 1) 0x10000 by decide)
    fun place type there => zeros4GiB_nothing place type there.2.2

end Rut9xx.Mtdsplit
