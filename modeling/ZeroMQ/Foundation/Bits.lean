import Mathlib.Data.List.GetD
import Mathlib.Tactic.Common

/-!
# The first bits of bytes

The bits of a list of bytes are counted from the most significant bit of the first byte on. Two lists agree in their
first bits when they agree in the whole bytes among them, and in the part of the next byte that a mask lets through.
-/

namespace Foundation

open Nat List

/-- A bit of a list of bytes. -/
def bitAt (bytes : List UInt8) (i : ℕ) : Bool := (bytes.getD (i / 8) 0).toBitVec.getMsbD (i % 8)

/-- The first `n` bits are the same. -/
def SameBits (n : ℕ) (a b : List UInt8) : Prop := ∀ i < n, bitAt a i = bitAt b i

instance (n : ℕ) (a b : List UInt8) : Decidable (SameBits n a b) :=
  inferInstanceAs (Decidable (∀ i < n, bitAt a i = bitAt b i))

variable {a b : List UInt8} {n r : ℕ}

lemma bitAt_mul_add (bytes : List UInt8) (k : ℕ) {j : ℕ} (hj : j < 8) :
    bitAt bytes (8 * k + j) = (bytes.getD k 0).toBitVec.getMsbD j := by
  have hdiv : (8 * k + j) / 8 = k := by omega
  have hmod : (8 * k + j) % 8 = j := by omega
  rw [bitAt, hdiv, hmod]

lemma eq_of_getMsbD {x y : UInt8} (h : ∀ j < 8, x.toBitVec.getMsbD j = y.toBitVec.getMsbD j) : x = y :=
  UInt8.toBitVec_inj.mp (BitVec.eq_of_getMsbD_eq h)

lemma sameBits_add (hr : r ≤ 8) : SameBits (8 * n + r) a b ↔
    SameBits (8 * n) a b ∧ ∀ j < r, (a.getD n 0).toBitVec.getMsbD j = (b.getD n 0).toBitVec.getMsbD j := by
  constructor
  · intro h
    refine ⟨fun i hi => h i (by omega), fun j hj => ?_⟩
    have hbit := h (8 * n + j) (by omega)
    rwa [bitAt_mul_add a n (by omega), bitAt_mul_add b n (by omega)] at hbit
  · rintro ⟨hbytes, hbits⟩ i hi
    by_cases hlt : i < 8 * n
    · exact hbytes i hlt
    · obtain ⟨j, rfl⟩ := Nat.exists_eq_add_of_le (Nat.le_of_not_lt hlt)
      rw [bitAt_mul_add a n (by omega), bitAt_mul_add b n (by omega)]
      exact hbits j (by omega)

lemma sameBits_bytes (ha : n ≤ a.length) (hb : n ≤ b.length) : SameBits (8 * n) a b ↔ a.take n = b.take n := by
  induction n with
  | zero => exact ⟨fun _ => rfl, fun _ i hi => absurd hi (Nat.not_lt_zero i)⟩
  | succ n ih =>
    have hget : ∀ c : List UInt8, n + 1 ≤ c.length → c.take (n + 1) = c.take n ++ [c.getD n 0] := by
      intro c hc
      rw [take_succ_eq_append_getElem hc, getD_eq_getElem _ _ hc]
    rw [Nat.mul_succ, sameBits_add (Nat.le_refl 8), ih (by omega) (by omega), hget a ha, hget b hb]
    constructor
    · rintro ⟨hbytes, hbits⟩
      rw [hbytes, eq_of_getMsbD hbits]
    intro h
    obtain ⟨hbytes, hlast⟩ := append_inj' h rfl
    rw [(cons.inj hlast).1]
    exact ⟨hbytes, fun _ _ => rfl⟩

lemma and_mask_eq_iff {mask x y : UInt8} (hmask : ∀ j < 8, mask.toBitVec.getMsbD j = decide (j < r)) (hr : r ≤ 8) :
    x &&& mask = y &&& mask ↔ ∀ j < r, x.toBitVec.getMsbD j = y.toBitVec.getMsbD j := by
  have hand : ∀ (z : UInt8) (j : ℕ), j < 8 → (z &&& mask).toBitVec.getMsbD j = (z.toBitVec.getMsbD j && decide (j < r)) := by
    intro z j hj
    rw [UInt8.toBitVec_and, BitVec.getMsbD_and, hmask j hj]
  constructor
  · intro h j hj
    have hbit : (x &&& mask).toBitVec.getMsbD j = (y &&& mask).toBitVec.getMsbD j := by rw [h]
    rw [hand x j (by omega), hand y j (by omega), decide_eq_true hj, Bool.and_true, Bool.and_true] at hbit
    exact hbit
  · intro h
    apply eq_of_getMsbD
    intro j hj
    rw [hand x j hj, hand y j hj]
    by_cases hlt : j < r
    · rw [h j hlt]
    · rw [decide_eq_false hlt, Bool.and_false, Bool.and_false]

end Foundation
