import ZeroMQ.Foundation.Numeral
import ZeroMQ.Engine.Mechanism

/-!
# Z85

Four bytes are a number of 32 bits, and five characters say the same number in base 85. `zmq_z85_encode` and
`zmq_z85_decode` are the same loop with other values: each reads a group of the input digit by digit into `value`,
writes the digits of `value` in the other base behind what it has written, and goes on with the next group. All
counters of the loop are `unsigned int`, while the sizes of the input are `size_t`.
-/

namespace Zmq

open Foundation List Nat

/-- `encoder`. -/
def z85Encoder : List UInt8 :=
  ascii "0123456789abcdefghijklmnopqrstuvwxyzABCDEFGHIJKLMNOPQRSTUVWXYZ.-:+=^!/*?&<>()[]\x7b\x7d@%$#"

/-- `decoder`. -/
def z85Decoder : List UInt8 :=
  [0x00, 0x44, 0x00, 0x54, 0x53, 0x52, 0x48, 0x00,
   0x4B, 0x4C, 0x46, 0x41, 0x00, 0x3F, 0x3E, 0x45,
   0x00, 0x01, 0x02, 0x03, 0x04, 0x05, 0x06, 0x07,
   0x08, 0x09, 0x40, 0x00, 0x49, 0x42, 0x4A, 0x47,
   0x51, 0x24, 0x25, 0x26, 0x27, 0x28, 0x29, 0x2A,
   0x2B, 0x2C, 0x2D, 0x2E, 0x2F, 0x30, 0x31, 0x32,
   0x33, 0x34, 0x35, 0x36, 0x37, 0x38, 0x39, 0x3A,
   0x3B, 0x3C, 0x3D, 0x4D, 0x00, 0x4E, 0x43, 0x00,
   0x00, 0x0A, 0x0B, 0x0C, 0x0D, 0x0E, 0x0F, 0x10,
   0x11, 0x12, 0x13, 0x14, 0x15, 0x16, 0x17, 0x18,
   0x19, 0x1A, 0x1B, 0x1C, 0x1D, 0x1E, 0x1F, 0x20,
   0x21, 0x22, 0x23, 0x4F, 0x00, 0x50, 0x00, 0x00]

/-- `decoder [(uint8_t) c - 32]`: nothing when the index is outside the table. -/
def z85Decoder.at (c : UInt8) : Option UInt8 :=
  if 32 ≤ c.toNat then z85Decoder[c.toNat - 32]? else none

/-- What must not happen in the codec. -/
inductive Z85Fault
  /-- The last assertion fails. -/
  | assertFailed
  /-- The index of a character is outside `decoder`. -/
  | outOfTable
  /-- `dest` is too short. -/
  | outOfBounds
  /-- More is read than there is. -/
  | overread
  deriving DecidableEq, Repr

/-! ### The loop -/

/-- The variables of the loop: `byte_nbr` and `char_nbr` are `read` and `written` in one direction, and `written` and
`read` in the other. -/
structure Z85State (n : ℕ) where
  read : UInt32
  written : UInt32
  value : UInt32
  dest : Block UInt8 n

/-- The variables at the beginning. -/
def Z85State.start {n : ℕ} (dest : Block UInt8 n) : Z85State n := ⟨0, 0, 0, dest⟩

/-- In what the two directions differ. -/
structure Z85Direction where
  /-- The base of the input. -/
  base : UInt32
  /-- The digit that a character of the input stands for. -/
  digit : UInt8 → Option UInt8
  /-- The number of characters that are a group. -/
  group : UInt32
  /-- The base of the output. -/
  outBase : UInt32
  /-- `divisor` at the beginning. -/
  divisor : UInt32
  /-- The character that stands for a digit of the output. -/
  char : UInt32 → UInt8
  /-- The divisions come to an end. -/
  one_lt_outBase : 1 < outBase.toNat

namespace Z85Direction

variable {n : ℕ} (d : Z85Direction)

/-- `while (divisor)`: write the digits of the value. -/
def output (value divisor : UInt32) (s : Z85State n) : Except Z85Fault (Z85State n) :=
  if _ : divisor = 0 then .ok s
  else
    match s.dest.store s.written.toNat [d.char (value / divisor % d.outBase)] with
    | none => .error .outOfBounds
    | some dest => output value (divisor / d.outBase) { s with dest := dest, written := s.written + 1 }
termination_by divisor.toNat
decreasing_by
  rename_i h
  have hpos : 0 < divisor.toNat := Nat.pos_of_ne_zero fun h0 => h (UInt32.toNat_inj.mp h0)
  rw [UInt32.toNat_div]
  exact Nat.div_lt_self hpos d.one_lt_outBase

/-- The body of the outer loop, for a character of the input. -/
def step (c : UInt8) (s : Z85State n) : Except Z85Fault (Z85State n) :=
  match d.digit c with
  | none => .error .outOfTable
  | some digit =>
    let s := { s with value := s.value * d.base + digit.toUInt32, read := s.read + 1 }
    if s.read % d.group = 0 then
      match d.output s.value d.divisor s with
      | .error fault => .error fault
      | .ok s => .ok { s with value := 0 }
    else .ok s

/-- The outer loop, as far as the fuel goes. -/
def loop (input : List UInt8) (size : ℕ) : ℕ → Z85State n → Option (Except Z85Fault (Z85State n))
  | 0, _ => none
  | fuel + 1, s =>
    if s.read.toNat < size then
      match d.step (input.getD s.read.toNat 0) s with
      | .error fault => some (.error fault)
      | .ok s => loop input size fuel s
    else some (.ok s)

end Z85Direction

/-! ### The two functions -/

/-- From bytes to characters. -/
def z85Encoding : Z85Direction where
  base := 256
  digit := some
  group := 4
  outBase := 85
  divisor := 85 * 85 * 85 * 85
  char digit := z85Encoder.getD digit.toNat 0
  one_lt_outBase := by decide

/-- From characters to bytes. -/
def z85Decoding : Z85Direction where
  base := 85
  digit := z85Decoder.at
  group := 5
  outBase := 256
  divisor := 256 * 256 * 256
  char digit := digit.toUInt8
  one_lt_outBase := by decide

/-- `size_t` holds numbers up to `2^64`. -/
def sizeT (n : ℕ) : ℕ := n % 2 ^ 64

/-- `zmq_z85_encode`: nothing when there is not enough fuel, otherwise a fault, `NULL` with an `errno`, or `dest`. -/
def z85Encode {n : ℕ} (fuel : ℕ) (dest : Block UInt8 n) (data : List UInt8) :
    Option (Except Z85Fault (Except Errno (Block UInt8 n))) :=
  if data.length % 4 ≠ 0 then some (.ok (.error .einval))
  else
    match z85Encoding.loop data data.length fuel (.start dest) with
    | none => none
    | some (.error fault) => some (.error fault)
    | some (.ok s) =>
      if s.written.toNat = sizeT (data.length * 5) / 4 then
        match s.dest.store s.written.toNat [0] with
        | none => some (.error .outOfBounds)
        | some dest => some (.ok (.ok dest))
      else some (.error .assertFailed)

/-- `zmq_z85_decode`, for the characters in front of the zero. -/
def z85Decode {n : ℕ} (fuel : ℕ) (dest : Block UInt8 n) (string : List UInt8) :
    Option (Except Z85Fault (Except Errno (Block UInt8 n))) :=
  if string.length % 5 ≠ 0 then some (.ok (.error .einval))
  else
    let stringLen := UInt32.ofNat string.length
    match z85Decoding.loop string stringLen.toNat fuel (.start dest) with
    | none => none
    | some (.error fault) => some (.error fault)
    | some (.ok s) =>
      if s.written.toNat = sizeT (string.length * 4) / 5 then some (.ok (.ok s.dest))
      else some (.error .assertFailed)

/-! ### What the loop does -/

lemma toNat_add_one {x : UInt32} (h : x.toNat + 1 < 2 ^ 32) : (x + 1).toNat = x.toNat + 1 := by
  have hone : UInt32.toNat 1 = 1 := rfl
  rw [UInt32.toNat_add, hone, mod_eq_of_lt h]

namespace Z85Direction

variable {n : ℕ} {d : Z85Direction} {s : Z85State n} {input pre : List UInt8}

/-- The number of digits that are written for a group. -/
structure Wide (d : Z85Direction) (width : ℕ) : Prop where
  divisor_eq : d.divisor.toNat = d.outBase.toNat ^ (width - 1)
  pos : 0 < width

/-- The characters that are written for a group, given the digits that have been read. -/
def groupOf (d : Z85Direction) (width : ℕ) (digits : List ℕ) : List UInt8 :=
  (numeral d.outBase.toNat width (ofNumeral d.base.toNat digits % 2 ^ 32)).map fun e => d.char (UInt32.ofNat e)

@[simp] lemma length_groupOf (width : ℕ) (digits : List ℕ) : (d.groupOf width digits).length = width := by
  rw [groupOf, length_map, length_numeral]

lemma output_zero (value : UInt32) (s : Z85State n) : d.output value 0 s = .ok s := by
  rw [output, dif_pos rfl]

lemma output_next {value divisor : UInt32} (k : ℕ) (hdiv : divisor.toNat = d.outBase.toNat ^ k)
    (hpre : pre <+: s.dest.cells) (hwritten : s.written.toNat = pre.length) (hfits : pre.length < n) :
    ∃ dest, d.output value divisor s =
        d.output value (divisor / d.outBase) { s with dest := dest, written := s.written + 1 } ∧
      pre ++ [d.char (UInt32.ofNat (value.toNat / d.outBase.toNat ^ k % d.outBase.toNat))] <+: dest.cells := by
  have hpos : 0 < d.outBase.toNat ^ k := Nat.pow_pos (Nat.zero_lt_of_lt d.one_lt_outBase)
  have hne : divisor ≠ 0 := by
    rintro rfl
    exact hpos.ne hdiv
  have hdigit : UInt32.ofNat (value.toNat / d.outBase.toNat ^ k % d.outBase.toNat) = value / divisor % d.outBase := by
    rw [← hdiv, ← UInt32.toNat_div, ← UInt32.toNat_mod, UInt32.ofNat_toNat]
  obtain ⟨dest, hstore, hdest⟩ := Block.store_append hpre [d.char (value / divisor % d.outBase)] hfits
  refine ⟨dest, ?_, hdigit ▸ hdest⟩
  rw [output, dif_neg hne, hwritten, hstore]

lemma output_spec {value divisor : UInt32} (k : ℕ) (hdiv : divisor.toNat = d.outBase.toNat ^ k)
    (hpre : pre <+: s.dest.cells) (hwritten : s.written.toNat = pre.length) (hfits : pre.length + (k + 1) ≤ n)
    (hwidth : pre.length + (k + 1) < 2 ^ 32) :
    ∃ dest written, d.output value divisor s = .ok { s with dest := dest, written := written } ∧
      written.toNat = pre.length + (k + 1) ∧
      pre ++ (numeral d.outBase.toNat (k + 1) value.toNat).map (fun e => d.char (UInt32.ofNat e)) <+: dest.cells := by
  have hone : (s.written + 1).toNat = pre.length + 1 := by
    rw [toNat_add_one (by omega), hwritten]
  induction k generalizing s pre divisor with
  | zero =>
    obtain ⟨dest, hnext, hdest⟩ := @output_next n d s pre value divisor 0 hdiv hpre hwritten (by omega)
    have hzero : divisor / d.outBase = 0 := by
      rw [← UInt32.toNat_inj, UInt32.toNat_div, hdiv]
      exact Nat.div_eq_of_lt d.one_lt_outBase
    rw [hzero, output_zero] at hnext
    exact ⟨dest, s.written + 1, hnext, hone, hdest⟩
  | succ k ih =>
    obtain ⟨dest, hnext, hdest⟩ := @output_next n d s pre value divisor (k + 1) hdiv hpre hwritten (by omega)
    have hless : (divisor / d.outBase).toNat = d.outBase.toNat ^ k := by
      rw [UInt32.toNat_div, hdiv, Nat.pow_succ, Nat.mul_div_cancel _ (Nat.zero_lt_of_lt d.one_lt_outBase)]
    have hlen : ∀ c : UInt8, (pre ++ [c]).length = pre.length + 1 := fun c => length_append
    have htwo : (s.written + 1 + 1).toNat = pre.length + 1 + 1 := by
      rw [toNat_add_one (by omega), hone]
    obtain ⟨dest', written, hout, hwritten', hcells⟩ := @ih { s with dest := dest, written := s.written + 1 } _ _ hless
      hdest (by rw [hone, hlen]) (by rw [hlen]; omega) (by rw [hlen]; omega) (by rw [htwo, hlen])
    refine ⟨dest', written, hnext.trans hout, by rw [hlen] at hwritten'; omega, ?_⟩
    rw [numeral, map_cons]
    rwa [append_assoc] at hcells

/-! ### Reading a group -/

/-- The digit of a character, if it has one. -/
def digitOf (d : Z85Direction) (c : UInt8) : ℕ := ((d.digit c).getD 0).toNat

/-- What is known of the variables inside a group: `done` has been converted to `pre`, and `seen` has been read. -/
structure Reading (d : Z85Direction) (s : Z85State n) (done pre seen : List UInt8) : Prop where
  read_eq : s.read.toNat = done.length + seen.length
  written_eq : s.written.toNat = pre.length
  value_eq : s.value.toNat = ofNumeral d.base.toNat (seen.map d.digitOf) % 2 ^ 32
  isPrefix : pre <+: s.dest.cells

variable {done seen left rest : List UInt8} {c : UInt8} {size fuel : ℕ}

lemma Reading.value_next (h : d.Reading s done pre seen) {digit : UInt8} (hdigit : d.digit c = some digit) :
    (s.value * d.base + digit.toUInt32).toNat = ofNumeral d.base.toNat ((seen ++ [c]).map d.digitOf) % 2 ^ 32 := by
  have hof : d.digitOf c = digit.toNat := by rw [digitOf, hdigit, Option.getD_some]
  rw [map_append, map_singleton, ofNumeral_concat, UInt32.toNat_add, UInt32.toNat_mul, h.value_eq, hof,
    UInt8.toNat_toUInt32]
  simp only [mod_mul_mod, mod_add_mod]

lemma Reading.read_mod (h : d.Reading s done pre seen) (hgroup : d.group.toNat ∣ done.length)
    (hread : done.length + seen.length + 1 < 2 ^ 32) :
    (s.read + 1).toNat = done.length + (seen.length + 1) ∧
      ((s.read + 1) % d.group).toNat = (seen.length + 1) % d.group.toNat := by
  have hone : (s.read + 1).toNat = done.length + (seen.length + 1) := by
    rw [toNat_add_one (by rw [h.read_eq]; exact hread), h.read_eq, add_assoc]
  obtain ⟨k, hk⟩ := hgroup
  refine ⟨hone, ?_⟩
  rw [UInt32.toNat_mod, hone, hk, mul_add_mod]

lemma Reading.inside (h : d.Reading s done pre seen) (hgroup : d.group.toNat ∣ done.length)
    (hless : seen.length + 1 < d.group.toNat) (hread : done.length + seen.length + 1 < 2 ^ 32)
    (hdigit : (d.digit c).isSome) :
    ∃ s', d.step c s = .ok s' ∧ d.Reading s' done pre (seen ++ [c]) := by
  obtain ⟨digit, hdigit⟩ := Option.isSome_iff_exists.mp hdigit
  obtain ⟨hone, hmod⟩ := h.read_mod hgroup hread
  have hinside : ¬(s.read + 1) % d.group = 0 := by
    intro h0
    rw [h0, mod_eq_of_lt hless] at hmod
    exact succ_ne_zero _ hmod.symm
  refine ⟨{ s with value := s.value * d.base + digit.toUInt32, read := s.read + 1 }, ?_,
    ?_, h.written_eq, h.value_next hdigit, h.isPrefix⟩
  · simp only [step, hdigit, if_neg hinside]
  · rw [hone, length_append, length_singleton]

lemma Reading.last (h : d.Reading s done pre seen) (hgroup : d.group.toNat ∣ done.length) {width : ℕ}
    (hwide : d.Wide width) (hlast : seen.length + 1 = d.group.toNat) (hread : done.length + seen.length + 1 < 2 ^ 32)
    (hdigit : (d.digit c).isSome) (hfits : pre.length + width ≤ n) (hwidth : pre.length + width < 2 ^ 32) :
    ∃ s', d.step c s = .ok s' ∧ d.Reading s' (done ++ (seen ++ [c]))
      (pre ++ d.groupOf width ((seen ++ [c]).map d.digitOf)) [] := by
  obtain ⟨digit, hdigit⟩ := Option.isSome_iff_exists.mp hdigit
  obtain ⟨hone, hmod⟩ := h.read_mod hgroup hread
  have hend : (s.read + 1) % d.group = 0 := by
    rw [← UInt32.toNat_inj, hmod, hlast, mod_self]
    rfl
  obtain ⟨k, rfl⟩ := exists_eq_succ_of_ne_zero hwide.pos.ne'
  obtain ⟨dest, written, hout, hwritten, hcells⟩ := @output_spec n d
    { s with value := s.value * d.base + digit.toUInt32, read := s.read + 1 } pre
    (s.value * d.base + digit.toUInt32) d.divisor k hwide.divisor_eq h.isPrefix h.written_eq hfits hwidth
  refine ⟨{ s with value := 0, read := s.read + 1, dest := dest, written := written }, ?_, ?_, ?_, rfl, ?_⟩
  · simp only [step, hdigit, if_pos hend, hout]
  · simp only [hone, length_append, length_singleton, length_nil, add_zero]
  · rw [hwritten, length_append, length_groupOf]
  · rw [h.value_next hdigit] at hcells
    exact hcells

/-! ### Groups -/

/-- The output for a number of whole groups. -/
def convert (d : Z85Direction) (width : ℕ) (input : List UInt8) : ℕ → List UInt8
  | 0 => []
  | k + 1 => d.groupOf width ((input.take d.group.toNat).map d.digitOf) ++ d.convert width (input.drop d.group.toNat) k

@[simp] lemma length_convert (width : ℕ) (input : List UInt8) (k : ℕ) :
    (d.convert width input k).length = k * width := by
  induction k generalizing input with
  | zero => rw [convert, length_nil, zero_mul]
  | succ k ih => rw [convert, length_append, length_groupOf, ih, succ_mul, add_comm]

lemma convert_append {width k : ℕ} {first : List UInt8} (hlen : first.length = d.group.toNat) (rest : List UInt8) :
    d.convert width (first ++ rest) (k + 1) = d.groupOf width (first.map d.digitOf) ++ d.convert width rest k := by
  rw [convert, take_left' hlen, drop_left' hlen]

lemma loop_step {s' : Z85State n} (hread : s.read.toNat < size) (hstep : d.step (input.getD s.read.toNat 0) s = .ok s') :
    d.loop input size (fuel + 1) s = d.loop input size fuel s' := by
  rw [loop, if_pos hread, hstep]

lemma Reading.loop_group {width : ℕ} (hwide : d.Wide width) (h : d.Reading s done pre seen)
    (hgroup : d.group.toNat ∣ done.length) (hlen : seen.length + left.length = d.group.toNat) (hleft : left ≠ [])
    (hdigits : ∀ c ∈ left, (d.digit c).isSome) (hinput : input = done ++ (seen ++ (left ++ rest)))
    (hsize : input.length < 2 ^ 32) (hfits : pre.length + width ≤ n) (hwidth : pre.length + width < 2 ^ 32) :
    ∃ s', d.loop input input.length (fuel + left.length) s = d.loop input input.length fuel s' ∧
      d.Reading s' (done ++ (seen ++ left)) (pre ++ d.groupOf width ((seen ++ left).map d.digitOf)) [] := by
  induction left generalizing s seen with
  | nil => exact absurd rfl hleft
  | cons c left ih =>
    have hlength : input.length = done.length + (seen.length + (left.length + 1 + rest.length)) := by
      simp only [hinput, length_append, length_cons]
    have hread : s.read.toNat < input.length := by
      rw [h.read_eq, hlength]
      omega
    have hget : input.getD s.read.toNat 0 = c := by
      rw [h.read_eq, hinput, getD_append_right _ _ _ _ (by omega), Nat.add_sub_cancel_left,
        getD_append_right _ _ _ _ (Nat.le_refl _), Nat.sub_self]
      rfl
    rw [length_cons] at hlen
    by_cases hnil : left = []
    · subst hnil
      obtain ⟨s', hstep, hs'⟩ := h.last hgroup hwide hlen (by omega) (hdigits c mem_cons_self) hfits hwidth
      exact ⟨s', loop_step hread (hget ▸ hstep), hs'⟩
    · have hpos := length_pos_of_ne_nil hnil
      obtain ⟨s', hstep, hs'⟩ := h.inside hgroup (by omega) (by omega) (hdigits c mem_cons_self)
      obtain ⟨s'', hloop, hs''⟩ := ih hs' (by rw [length_append, length_singleton]; omega) hnil
        (fun e he => hdigits e (mem_cons_of_mem _ he)) (by rw [hinput, append_assoc]; rfl)
      rw [append_assoc] at hs''
      exact ⟨s'', (loop_step hread (hget ▸ hstep)).trans hloop, hs''⟩

lemma Reading.loop_groups {width k : ℕ} (hwide : d.Wide width) (hpos : 0 < d.group.toNat)
    (h : d.Reading s done pre []) (hgroup : d.group.toNat ∣ done.length) (hlen : rest.length = k * d.group.toNat)
    (hdigits : ∀ c ∈ rest, (d.digit c).isSome) (hinput : input = done ++ rest) (hsize : input.length < 2 ^ 32)
    (hfits : pre.length + k * width ≤ n) (hwidth : pre.length + k * width < 2 ^ 32) :
    ∃ s', d.loop input input.length (fuel + rest.length) s = d.loop input input.length fuel s' ∧
      d.Reading s' input (pre ++ d.convert width rest k) [] := by
  induction k generalizing s done pre rest with
  | zero =>
    rw [zero_mul] at hlen
    obtain rfl := length_eq_zero_iff.mp hlen
    rw [append_nil] at hinput
    refine ⟨s, rfl, ?_⟩
    rw [convert, append_nil, hinput]
    exact h
  | succ k ih =>
    rw [succ_mul] at hlen hfits hwidth
    obtain ⟨first, rest', rfl, hfirst⟩ : ∃ first rest', rest = first ++ rest' ∧ first.length = d.group.toNat :=
      ⟨_, _, (take_append_drop d.group.toNat rest).symm, length_take_of_le (by omega)⟩
    rw [length_append] at hlen
    have hne : first ≠ [] := by
      rintro rfl
      exact hpos.ne hfirst
    obtain ⟨s', hloop, hs'⟩ := @loop_group n d s input pre done [] first rest' (fuel + rest'.length) width hwide h hgroup
      (by rw [length_nil, zero_add, hfirst]) hne (fun c hc => hdigits c (mem_append_left _ hc)) hinput hsize
      (by omega) (by omega)
    have hlen' : (pre ++ d.groupOf width (first.map d.digitOf)).length = pre.length + width := by
      rw [length_append, length_groupOf]
    obtain ⟨s'', hloop', hs''⟩ := ih hs' (by
        rw [nil_append, length_append, hfirst]
        exact dvd_add hgroup (dvd_refl _)) (by omega)
      (fun c hc => hdigits c (mem_append_right _ hc)) (by rw [hinput, nil_append, append_assoc])
      (by rw [nil_append, hlen']; omega) (by rw [nil_append, hlen']; omega)
    refine ⟨s'', ?_, ?_⟩
    · rw [length_append, add_comm first.length, ← add_assoc, hloop, hloop']
    · rw [nil_append, append_assoc] at hs''
      rwa [convert_append hfirst]

lemma loop_spec {width k : ℕ} (hwide : d.Wide width) (hpos : 0 < d.group.toNat) (dest : Block UInt8 n)
    (hlen : input.length = k * d.group.toNat) (hdigits : ∀ c ∈ input, (d.digit c).isSome)
    (hsize : input.length < 2 ^ 32) (hfits : k * width ≤ n) (hwidth : k * width < 2 ^ 32) :
    ∃ s', d.loop input input.length (input.length + 1) (.start dest) = some (.ok s') ∧
      s'.written.toNat = k * width ∧ d.convert width input k <+: s'.dest.cells := by
  have hstart : d.Reading (.start dest) [] [] [] := ⟨rfl, rfl, rfl, nil_prefix⟩
  obtain ⟨s', hloop, hs'⟩ := @Reading.loop_groups n d _ input [] [] input 1 width k hwide hpos hstart (dvd_zero _) hlen
    hdigits rfl hsize (by rwa [length_nil, zero_add]) (by rwa [length_nil, zero_add])
  have hend : ¬s'.read.toNat < input.length := by
    rw [hs'.read_eq]
    exact lt_irrefl _
  refine ⟨s', ?_, ?_, hs'.isPrefix⟩
  · rw [add_comm, hloop, loop, if_neg hend]
  · rw [hs'.written_eq, nil_append, length_convert]

lemma loop_mono {r : Except Z85Fault (Z85State n)} {more : ℕ} (h : d.loop input size fuel s = some r)
    (hle : fuel ≤ more) : d.loop input size more s = some r := by
  induction fuel generalizing s more with
  | zero => cases h
  | succ fuel ih =>
    obtain ⟨more, rfl⟩ := Nat.exists_eq_add_of_le' (Nat.lt_of_lt_of_le (Nat.succ_pos _) hle)
    rw [loop] at h ⊢
    by_cases hread : s.read.toNat < size
    · rw [if_pos hread] at h ⊢
      cases hstep : d.step (input.getD s.read.toNat 0) s with
      | error fault =>
        rw [hstep] at h
        exact h
      | ok s' =>
        rw [hstep] at h
        exact ih h (Nat.le_of_succ_le_succ hle)
    · rw [if_neg hread] at h ⊢
      exact h

lemma loop_size_le {s' : Z85State n} (h : d.loop input size fuel s = some (.ok s')) : size < 2 ^ 32 := by
  induction fuel generalizing s with
  | zero => cases h
  | succ fuel ih =>
    rw [loop] at h
    by_cases hread : s.read.toNat < size
    · rw [if_pos hread] at h
      cases hstep : d.step (input.getD s.read.toNat 0) s with
      | error fault =>
        rw [hstep] at h
        cases h
      | ok s' =>
        rw [hstep] at h
        exact ih h
    · exact Nat.lt_of_le_of_lt (Nat.le_of_not_lt hread) s.read.toNat_lt

end Z85Direction

end Zmq
