import KeySearch.Proofs.SeedCounter
import Mathlib.Dynamics.PeriodicPts.Defs

/-!
# The cycle of all seeds

Increments of a seed count up from its number modulo `2 ^ 256`. So there are as many different seeds
in a row as there are numbers of 256 bits, and the next increment leads back to the first one. Every
seed has the period `2 ^ 256`: the seeds that a worker goes through are all different up to there.
-/

set_option autoImplicit false

namespace KeySearch.Seed

open Function

/-- Increments one after another lead to the seed so many behind. -/
theorem iterate_increment (s : Seed) (n : Nat) : increment^[n] s = s.plus n := by
  induction n generalizing s with
  | zero => exact s.plus_zero.symm
  | succ n ih => rw [iterate_succ_apply, ih, increment_plus]

/-- The number of a seed after increments. -/
theorem toNat_iterate_increment (s : Seed) (n : Nat) :
    (increment^[n] s).toNat = (s.toNat + n) % 2 ^ 256 := by
  rw [iterate_increment, toNat_plus]

/-- Only a multiple of `2 ^ 256` increments leads back. -/
theorem isPeriodicPt_increment_iff {s : Seed} {n : Nat} :
    IsPeriodicPt increment n s ↔ 2 ^ 256 ∣ n := by
  have hlt := s.toNat_lt
  constructor
  · intro h
    have hnumber : (s.toNat + n) % 2 ^ 256 = s.toNat := by
      rw [← toNat_iterate_increment, h.eq]
    omega
  · intro h
    refine toNat_injective ?_
    rw [toNat_iterate_increment]
    omega

/-- **The period of every seed.** -/
theorem minimalPeriod_increment (s : Seed) : minimalPeriod increment s = 2 ^ 256 := by
  refine Nat.dvd_antisymm ?_ ?_
  · exact (isPeriodicPt_increment_iff.mpr (Nat.dvd_refl _)).minimalPeriod_dvd
  · exact isPeriodicPt_increment_iff.mp (isPeriodicPt_minimalPeriod increment s)

/-- **Increments add, and repeat no seed before all have come up.** After `n` increments the seed is
the number that is `n` more modulo `2 ^ 256`, in 32 bytes. Different numbers of increments below
`2 ^ 256` lead to different seeds, and `2 ^ 256` of them to the seed that they began at. -/
theorem iterate_increment_cycle (s : Seed) :
    (∀ n, (increment^[n] s).toNat = (s.toNat + n) % 2 ^ 256
        ∧ (increment^[n] s).bytes = Bytes.ofNat 32 ((s.toNat + n) % 2 ^ 256)
        ∧ (increment^[n] s).bytes.length = 32)
      ∧ (∀ i j, i < j → j < 2 ^ 256 → increment^[i] s ≠ increment^[j] s)
      ∧ increment^[2 ^ 256] s = s := by
  refine ⟨fun n => ⟨toNat_iterate_increment s n, ?_, (increment^[n] s).size⟩, ?_, ?_⟩
  · rw [iterate_increment]
    rfl
  · intro i j hij hj hsame
    rw [← minimalPeriod_increment s] at hj
    have heq : i = j :=
      (iterate_eq_iterate_iff_of_lt_minimalPeriod (hij.trans hj) hj).mp hsame
    exact Nat.ne_of_lt hij heq
  · rw [← minimalPeriod_increment s]
    exact iterate_minimalPeriod

/-- After the last seed comes zero, and one increment less than a whole round does not lead back. -/
theorem iterate_increment_cycle_lastSeed :
    increment^[1] (⟨List.replicate 32 0xff, List.length_replicate⟩ : Seed) = zero
      ∧ increment^[0] (⟨List.replicate 32 0xff, List.length_replicate⟩ : Seed)
        ≠ increment^[2 ^ 256 - 1] ⟨List.replicate 32 0xff, List.length_replicate⟩ := by
  obtain ⟨hnumber, hdistinct, -⟩ :=
    iterate_increment_cycle ⟨List.replicate 32 0xff, List.length_replicate⟩
  refine ⟨toNat_injective ?_, hdistinct 0 (2 ^ 256 - 1) (by decide) (by decide)⟩
  rw [(hnumber 1).1]
  decide

end KeySearch.Seed
