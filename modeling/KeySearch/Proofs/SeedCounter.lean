import KeySearch.Proofs.BitStream
import KeySearch.Seed

/-!
# Seeds as a counter

`addOne` carries byte by byte. As a number it adds one, and what its carry says it lost is the
number that does not fit any more. So the seed `n` increments behind a given one is the seed that
many behind it modulo `2 ^ 256`, `Seed.plus`.
-/

set_option autoImplicit false

namespace KeySearch

/-- The increment of a counter together with its carry is one more than the counter. -/
theorem toNat_addOne (bytes : List UInt8) :
    Bytes.toNat (addOne bytes).1 + (if (addOne bytes).2 then 256 ^ bytes.length else 0)
      = Bytes.toNat bytes + 1 := by
  induction bytes with
  | nil => rfl
  | cons byte rest ih =>
      have hlen := length_addOne rest
      rw [addOne, Bytes.toNat_cons byte rest, List.length_cons]
      rcases hcarry : addOne rest with ⟨low, carry⟩
      rw [hcarry] at ih hlen
      cases carry with
      | false =>
          simp only [Bool.false_eq_true, if_false, Bytes.toNat_cons, hlen] at ih ⊢
          omega
      | true =>
          simp only [if_true] at ih ⊢
          -- the carry goes on through a byte `ff` and is taken up by any other one
          by_cases hfull : byte = 0xff
          · simp only [if_true, Bytes.toNat_cons, hlen, hfull, Nat.pow_succ, UInt8.toNat_ofNat]
            omega
          · have hbyte : (byte + 1).toNat = byte.toNat + 1 := by
              have hlt := byte.toNat_lt
              have hne : byte.toNat ≠ 255 := fun h => hfull (UInt8.toNat_inj.mp h)
              rw [UInt8.toNat_add, UInt8.toNat_one]
              omega
            simp only [if_neg hfull, Bool.false_eq_true, if_false, Bytes.toNat_cons, hlen, hbyte,
              Nat.add_mul]
            omega

namespace Seed

theorem toNat_lt (s : Seed) : s.toNat < 2 ^ 256 := by
  have h := Bytes.toNat_lt_two_pow s.bytes
  rwa [s.size] at h

/-- Seeds with the same number are the same. -/
theorem toNat_injective {s t : Seed} (h : s.toNat = t.toNat) : s = t := by
  obtain ⟨sbytes, ssize⟩ := s
  obtain ⟨tbytes, tsize⟩ := t
  have hbytes : sbytes = tbytes := by
    rw [← Bytes.ofNat_toNat sbytes, ← Bytes.ofNat_toNat tbytes, ssize, tsize]
    exact congrArg (Bytes.ofNat 32) h
  subst hbytes
  rfl

/-- The seed so many behind a given one. After the last one comes zero. -/
def plus (s : Seed) (n : Nat) : Seed := ⟨Bytes.ofNat 32 ((s.toNat + n) % 2 ^ 256), by simp⟩

theorem toNat_plus (s : Seed) (n : Nat) : (s.plus n).toNat = (s.toNat + n) % 2 ^ 256 := by
  have hpow : 256 ^ 32 = 2 ^ 256 := by decide
  rw [plus, toNat, Bytes.toNat_ofNat, hpow, Nat.mod_mod]

/-- An increment adds one modulo `2 ^ 256`. -/
theorem toNat_increment (s : Seed) : s.increment.toNat = (s.toNat + 1) % 2 ^ 256 := by
  have h := toNat_addOne s.bytes
  have hpow : 256 ^ 32 = 2 ^ 256 := by decide
  have hlt := s.increment.toNat_lt
  rw [s.size, hpow] at h
  change s.increment.toNat + _ = s.toNat + 1 at h
  have hle := s.toNat_lt
  -- with a carry the number was the last one, without it nothing wraps
  split at h <;> omega

@[simp] theorem plus_zero (s : Seed) : s.plus 0 = s :=
  toNat_injective (by rw [toNat_plus, Nat.add_zero, Nat.mod_eq_of_lt s.toNat_lt])

theorem increment_plus (s : Seed) (n : Nat) : s.increment.plus n = s.plus (n + 1) :=
  toNat_injective (by rw [toNat_plus, toNat_increment, toNat_plus]; omega)

end Seed

end KeySearch
