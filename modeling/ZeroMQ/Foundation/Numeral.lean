import Mathlib.Data.Nat.Digits.Lemmas

/-!
# Numerals of a fixed length

A numeral is the list of the digits of a number in some base, the most significant one first, with as many zeros in
front as its length asks for. A number below the power of the base that belongs to the length has exactly one
numeral. A machine reads a numeral digit by digit, and it writes one by dividing by smaller and smaller powers of the
base.
-/

namespace Foundation

open List Nat

variable {b : ℕ}

/-- The number that a list of digits says, the most significant digit first. -/
def ofNumeral (b : ℕ) (ds : List ℕ) : ℕ := ds.foldl (fun v d => v * b + d) 0

/-- The last `n` digits of a number, the most significant one first. -/
def numeral (b : ℕ) : ℕ → ℕ → List ℕ
  | 0, _ => []
  | n + 1, v => v / b ^ n % b :: numeral b n v

/-! ### Reading -/

@[simp] lemma ofNumeral_nil : ofNumeral b [] = 0 := rfl

lemma ofNumeral_concat (ds : List ℕ) (d : ℕ) : ofNumeral b (ds ++ [d]) = ofNumeral b ds * b + d := by
  rw [ofNumeral, foldl_append]
  rfl

lemma ofNumeral_eq_ofDigits (ds : List ℕ) : ofNumeral b ds = ofDigits b ds.reverse := by
  induction ds using List.reverseRecOn with
  | nil => rfl
  | append_singleton ds d ih =>
    rw [ofNumeral_concat, ih, reverse_append, reverse_singleton, singleton_append, ofDigits_cons,
      mul_comm, add_comm]

lemma ofNumeral_cons (d : ℕ) (ds : List ℕ) : ofNumeral b (d :: ds) = d * b ^ ds.length + ofNumeral b ds := by
  rw [ofNumeral_eq_ofDigits, ofNumeral_eq_ofDigits, ofDigits_reverse_cons, mul_comm, add_comm]

lemma ofNumeral_lt (hb : 1 < b) {ds : List ℕ} (h : ∀ d ∈ ds, d < b) : ofNumeral b ds < b ^ ds.length := by
  rw [ofNumeral_eq_ofDigits, ← length_reverse]
  exact ofDigits_lt_base_pow_length hb fun d hd => h d (mem_reverse.mp hd)

/-! ### Writing -/

@[simp] lemma length_numeral (n v : ℕ) : (numeral b n v).length = n := by
  induction n with
  | zero => rfl
  | succ n ih => rw [numeral, length_cons, ih]

lemma lt_of_mem_numeral (hb : 0 < b) {n v d : ℕ} (h : d ∈ numeral b n v) : d < b := by
  induction n with
  | zero => cases h
  | succ n ih =>
    rcases mem_cons.mp h with rfl | hmem
    · exact mod_lt _ hb
    · exact ih hmem

/-- What is written is read again, up to the digits for which there was no room. -/
lemma ofNumeral_numeral_mod (n v : ℕ) : ofNumeral b (numeral b n v) = v % b ^ n := by
  induction n with
  | zero => rw [pow_zero, mod_one, numeral, ofNumeral_nil]
  | succ n ih =>
    rw [numeral, ofNumeral_cons, length_numeral, ih, mod_pow_succ, mul_comm, add_comm]

lemma ofNumeral_numeral {n v : ℕ} (h : v < b ^ n) : ofNumeral b (numeral b n v) = v := by
  rw [ofNumeral_numeral_mod, mod_eq_of_lt h]

lemma numeral_add_mul (n d v : ℕ) : numeral b n (d * b ^ n + v) = numeral b n v := by
  induction n generalizing d with
  | zero => rfl
  | succ n ih =>
    have hsplit : d * b ^ (n + 1) + v = d * b * b ^ n + v := by rw [Nat.pow_succ', Nat.mul_assoc]
    rw [numeral, numeral, hsplit, ih (d * b)]
    rcases Nat.eq_zero_or_pos (b ^ n) with hzero | hpos
    · rw [hzero, Nat.mul_zero, Nat.zero_add]
    · rw [Nat.add_comm, Nat.add_mul_div_right _ _ hpos, Nat.add_mul_mod_self_right]

lemma numeral_ofNumeral (hb : 1 < b) {ds : List ℕ} (h : ∀ d ∈ ds, d < b) :
    numeral b ds.length (ofNumeral b ds) = ds := by
  induction ds with
  | nil => rfl
  | cons d ds ih =>
    have hlt : ofNumeral b ds < b ^ ds.length := ofNumeral_lt hb fun e he => h e (mem_cons_of_mem _ he)
    have hpos : 0 < b ^ ds.length := zero_lt_of_lt hlt
    rw [length_cons, numeral, ofNumeral_cons, numeral_add_mul, ih fun e he => h e (mem_cons_of_mem _ he),
      add_comm, add_mul_div_right _ _ hpos, div_eq_of_lt hlt, zero_add,
      mod_eq_of_lt (h d mem_cons_self)]

end Foundation
