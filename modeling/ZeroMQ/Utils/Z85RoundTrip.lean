import ZeroMQ.Utils.Z85

/-!
# What is encoded is decoded

The two directions are inverse to each other as long as each group is a number of 32 bits, which four bytes always
are. The counters of the loop have 32 bits, too, and hence the encoder does its work for what makes less than `2^32`
characters: for more of them the last assertion fails, or the loop does not end.
-/

namespace Zmq

open Foundation List Nat

/-! ### Inverse directions -/

namespace Z85Direction

variable {d e : Z85Direction}

/-- What one direction writes is what the other one reads. -/
structure Inverse (d e : Z85Direction) : Prop where
  base_eq : e.base = d.outBase
  outBase_eq : e.outBase = d.base
  digitOf_char : ∀ x < d.outBase.toNat, e.digitOf (d.char (UInt32.ofNat x)) = x

/-- The characters are those that the other direction writes. -/
def Proper (d e : Z85Direction) (c : UInt8) : Prop :=
  d.digitOf c < d.base.toNat ∧ e.char (UInt32.ofNat (d.digitOf c)) = c

/-- Every group is a number of 32 bits. -/
def Fits (d : Z85Direction) (input : List UInt8) : ℕ → Prop
  | 0 => True
  | k + 1 =>
    ofNumeral d.base.toNat ((input.take d.group.toNat).map d.digitOf) < 2 ^ 32 ∧ d.Fits (input.drop d.group.toNat) k

instance (input : List UInt8) (k : ℕ) : Decidable (d.Fits input k) := by
  induction k generalizing input with
  | zero => exact inferInstanceAs (Decidable True)
  | succ k ih =>
    have := ih (input.drop d.group.toNat)
    exact inferInstanceAs (Decidable (_ ∧ _))

lemma fits_append {first : List UInt8} (hlen : first.length = d.group.toNat) (rest : List UInt8) (k : ℕ) :
    d.Fits (first ++ rest) (k + 1) ↔ ofNumeral d.base.toNat (first.map d.digitOf) < 2 ^ 32 ∧ d.Fits rest k := by
  rw [Fits, take_left' hlen, drop_left' hlen]

lemma Inverse.map_digitOf_groupOf (h : d.Inverse e) {width : ℕ} {digits : List ℕ} :
    (d.groupOf width digits).map e.digitOf =
      numeral d.outBase.toNat width (ofNumeral d.base.toNat digits % 2 ^ 32) := by
  rw [groupOf, map_map]
  refine (map_congr_left fun x hx => ?_).trans (map_id _)
  exact h.digitOf_char x (lt_of_mem_numeral (zero_lt_of_lt d.one_lt_outBase) hx)

lemma Inverse.groupOf_groupOf (h : d.Inverse e) {width : ℕ} {chunk : List UInt8} (hproper : ∀ c ∈ chunk, d.Proper e c)
    (hvalue : ofNumeral d.base.toNat (chunk.map d.digitOf) < 2 ^ 32) (hwidth : 2 ^ 32 ≤ d.outBase.toNat ^ width) :
    e.groupOf chunk.length ((d.groupOf width (chunk.map d.digitOf)).map e.digitOf) = chunk := by
  have hdigits : ∀ x ∈ chunk.map d.digitOf, x < d.base.toNat := by
    intro x hx
    obtain ⟨c, hc, rfl⟩ := mem_map.mp hx
    exact (hproper c hc).1
  have hbase : 1 < d.base.toNat := h.outBase_eq ▸ e.one_lt_outBase
  rw [h.map_digitOf_groupOf, groupOf, h.base_eq, h.outBase_eq, mod_eq_of_lt hvalue,
    ofNumeral_numeral (lt_of_lt_of_le hvalue hwidth), mod_eq_of_lt hvalue, ← length_map d.digitOf,
    numeral_ofNumeral hbase hdigits, map_map]
  exact (map_congr_left fun c hc => (hproper c hc).2).trans (map_id _)

lemma Inverse.convert_convert (h : d.Inverse e) {width k : ℕ} {input : List UInt8} (hgroup : e.group.toNat = width)
    (hlen : input.length = k * d.group.toNat) (hproper : ∀ c ∈ input, d.Proper e c) (hfits : d.Fits input k)
    (hwidth : 2 ^ 32 ≤ d.outBase.toNat ^ width) :
    e.convert d.group.toNat (d.convert width input k) k = input := by
  induction k generalizing input with
  | zero =>
    rw [zero_mul] at hlen
    exact (length_eq_zero_iff.mp hlen).symm
  | succ k ih =>
    rw [succ_mul] at hlen
    obtain ⟨first, rest, rfl, hfirst⟩ : ∃ first rest, input = first ++ rest ∧ first.length = d.group.toNat :=
      ⟨_, _, (take_append_drop d.group.toNat input).symm, length_take_of_le (by omega)⟩
    rw [length_append] at hlen
    obtain ⟨hvalue, hrest⟩ := (fits_append hfirst rest k).mp hfits
    have hback := h.groupOf_groupOf (fun c hc => hproper c (mem_append_left _ hc)) hvalue hwidth
    rw [hfirst] at hback
    rw [convert_append hfirst, convert_append (by rw [length_groupOf, hgroup]), hback,
      ih (by omega) (fun c hc => hproper c (mem_append_right _ hc)) hrest]

lemma mem_convert {width k : ℕ} {input : List UInt8} {c : UInt8} (h : c ∈ d.convert width input k) :
    ∃ x < d.outBase.toNat, c = d.char (UInt32.ofNat x) := by
  induction k generalizing input with
  | zero => cases h
  | succ k ih =>
    rcases mem_append.mp h with hgroup | hrest
    · obtain ⟨x, hx, rfl⟩ := mem_map.mp hgroup
      exact ⟨x, lt_of_mem_numeral (zero_lt_of_lt d.one_lt_outBase) hx, rfl⟩
    · exact ih hrest

end Z85Direction

/-! ### The two directions -/

lemma z85Encoding_wide : z85Encoding.Wide 5 := ⟨by decide, by decide⟩

lemma z85Decoding_wide : z85Decoding.Wide 4 := ⟨by decide, by decide⟩

lemma z85Decoder_at_encoder (x : ℕ) (hx : x < 85) :
    z85Decoder.at (z85Encoder.getD x 0) = some (UInt8.ofNat x) := by
  have hall : ∀ x : Fin 85, z85Decoder.at (z85Encoder.getD x.val 0) = some (UInt8.ofNat x.val) := by decide +kernel
  exact hall ⟨x, hx⟩

lemma z85Encoding_char (x : ℕ) (hx : x < 85) : z85Encoding.char (UInt32.ofNat x) = z85Encoder.getD x 0 := by
  change z85Encoder.getD (UInt32.ofNat x).toNat 0 = _
  rw [UInt32.toNat_ofNat_of_lt' (lt_trans hx (by decide))]

lemma z85Encoding_inverse : z85Encoding.Inverse z85Decoding where
  base_eq := rfl
  outBase_eq := rfl
  digitOf_char x hx := by
    have hx : x < 85 := hx
    rw [z85Encoding_char x hx, Z85Direction.digitOf]
    change ((z85Decoder.at _).getD 0).toNat = x
    rw [z85Decoder_at_encoder x hx, Option.getD_some, UInt8.toNat_ofNat_of_lt' (lt_trans hx (by decide))]

lemma z85Decoding_inverse : z85Decoding.Inverse z85Encoding where
  base_eq := rfl
  outBase_eq := rfl
  digitOf_char x hx := by
    have hx : x < 256 := hx
    change (UInt32.ofNat x).toUInt8.toNat = x
    rw [UInt32.toNat_toUInt8, UInt32.toNat_ofNat_of_lt' (lt_trans hx (by decide)), mod_eq_of_lt hx]

lemma z85Encoding_proper (c : UInt8) : z85Encoding.Proper z85Decoding c := by
  refine ⟨c.toNat_lt, ?_⟩
  change (UInt32.ofNat c.toNat).toUInt8 = c
  rw [← UInt8.toNat_inj, UInt32.toNat_toUInt8, UInt32.toNat_ofNat_of_lt' (lt_trans c.toNat_lt (by decide)),
    mod_eq_of_lt c.toNat_lt]

lemma z85Encoding_fits (data : List UInt8) {k : ℕ} (hlen : data.length = k * 4) : z85Encoding.Fits data k := by
  induction k generalizing data with
  | zero => trivial
  | succ k ih =>
    refine ⟨?_, ih _ (by rw [length_drop]; change _ - 4 = _; omega)⟩
    have hlt := @ofNumeral_lt 256 (by decide) ((data.take 4).map z85Encoding.digitOf) (by
      intro x hx
      obtain ⟨c, -, rfl⟩ := mem_map.mp hx
      exact c.toNat_lt)
    rw [length_map, length_take_of_le (by omega)] at hlt
    exact hlt

/-! ### The functions -/

/-- The text of a number of bytes. -/
def z85Text (data : List UInt8) : List UInt8 := z85Encoding.convert 5 data (data.length / 4)

/-- The bytes that a text says. -/
def z85Bytes (string : List UInt8) : List UInt8 := z85Decoding.convert 4 string (string.length / 5)

variable {n fuel : ℕ} {data string : List UInt8}

lemma length_z85Text (data : List UInt8) : (z85Text data).length = data.length / 4 * 5 :=
  Z85Direction.length_convert _ _ _

lemma length_z85Bytes (string : List UInt8) : (z85Bytes string).length = string.length / 5 * 4 :=
  Z85Direction.length_convert _ _ _

lemma mem_z85Encoder_of_mem_z85Text {c : UInt8} (h : c ∈ z85Text data) : c ∈ z85Encoder := by
  obtain ⟨x, hx, rfl⟩ := Z85Direction.mem_convert h
  have hx : x < 85 := hx
  have hlen : z85Encoder.length = 85 := by decide +kernel
  rw [z85Encoding_char x hx, getD_eq_getElem _ _ (by rwa [hlen])]
  exact getElem_mem _

lemma zero_notMem_z85Encoder : 0 ∉ z85Encoder := by decide +kernel

lemma z85Decoding_of_mem {c : UInt8} (h : c ∈ z85Encoder) :
    (z85Decoding.digit c).isSome ∧ z85Decoding.Proper z85Encoding c := by
  have hall : ∀ c ∈ z85Encoder, (z85Decoder.at c).isSome ∧ ((z85Decoder.at c).getD 0).toNat < 85 ∧
      z85Encoder.getD ((z85Decoder.at c).getD 0).toNat 0 = c := by decide +kernel
  obtain ⟨hsome, hlt, hchar⟩ := hall c h
  exact ⟨hsome, hlt, (z85Encoding_char _ hlt).trans hchar⟩

lemma z85Encode_spec (h4 : data.length % 4 = 0) (h32 : data.length * 5 / 4 < 2 ^ 32) (dest : Block UInt8 n)
    (hfits : data.length * 5 / 4 + 1 ≤ n) :
    ∃ dest', z85Encode (data.length + 1) dest data = some (.ok (.ok dest')) ∧ z85Text data ++ [0] <+: dest'.cells := by
  have hgroups : data.length = data.length / 4 * 4 := by omega
  obtain ⟨s, hloop, hwritten, hcells⟩ := @Z85Direction.loop_spec n z85Encoding data 5 (data.length / 4) z85Encoding_wide
    (by decide) dest hgroups (fun _ _ => rfl) (by omega) (by omega) (by omega)
  have hsize : s.written.toNat = sizeT (data.length * 5) / 4 := by
    rw [sizeT, mod_eq_of_lt (by omega), hwritten]
    omega
  obtain ⟨dest', hstore, hdest'⟩ := Block.store_append hcells [0] (by
    rw [Z85Direction.length_convert, length_singleton]
    omega)
  rw [Z85Direction.length_convert, ← hwritten] at hstore
  refine ⟨dest', ?_, hdest'⟩
  rw [z85Encode, if_neg (not_not.mpr h4), hloop]
  simp only [if_pos hsize, hstore]

lemma z85Encode_size {dest dest' : Block UInt8 n} (h : z85Encode fuel dest data = some (.ok (.ok dest'))) :
    data.length % 4 = 0 ∧ data.length * 5 / 4 < 2 ^ 32 ∧ data.length * 5 / 4 + 1 ≤ n := by
  have h4 : data.length % 4 = 0 := by
    by_contra h4
    rw [z85Encode, if_pos h4] at h
    cases h
  rw [z85Encode, if_neg (not_not.mpr h4)] at h
  cases hloop : z85Encoding.loop data data.length fuel (.start dest) with
  | none =>
    rw [hloop] at h
    cases h
  | some r =>
    rw [hloop] at h
    cases r with
    | error fault => cases h
    | ok s =>
      dsimp only at h
      have hsize : s.written.toNat = sizeT (data.length * 5) / 4 := by
        by_contra hsize
        rw [if_neg hsize] at h
        cases h
      rw [if_pos hsize] at h
      have hlt := s.written.toNat_lt
      rw [hsize, sizeT, mod_eq_of_lt (by have := Z85Direction.loop_size_le hloop; omega)] at hlt
      refine ⟨h4, hlt, ?_⟩
      rw [hsize, sizeT, mod_eq_of_lt (by have := Z85Direction.loop_size_le hloop; omega)] at h
      by_contra hfits
      rw [Block.store, dif_neg (by simpa using hfits)] at h
      cases h

lemma z85Encode_mono {dest : Block UInt8 n} {r : Except Z85Fault (Except Errno (Block UInt8 n))} {more : ℕ}
    (h : z85Encode fuel dest data = some r) (hle : fuel ≤ more) : z85Encode more dest data = some r := by
  unfold z85Encode at h ⊢
  split_ifs at h ⊢ with h4
  · exact h
  cases hloop : z85Encoding.loop data data.length fuel (.start dest) with
  | none =>
    rw [hloop] at h
    cases h
  | some r =>
    rw [Z85Direction.loop_mono hloop hle]
    rw [hloop] at h
    exact h

lemma z85Decode_spec (h5 : string.length % 5 = 0) (h32 : string.length < 2 ^ 32)
    (hdigits : ∀ c ∈ string, (z85Decoding.digit c).isSome) (dest : Block UInt8 n) (hfits : string.length * 4 / 5 ≤ n) :
    ∃ dest', z85Decode (string.length + 1) dest string = some (.ok (.ok dest')) ∧ z85Bytes string <+: dest'.cells := by
  have hgroups : string.length = string.length / 5 * 5 := by omega
  obtain ⟨s, hloop, hwritten, hcells⟩ := @Z85Direction.loop_spec n z85Decoding string 4 (string.length / 5)
    z85Decoding_wide (by decide) dest hgroups hdigits h32 (by omega) (by omega)
  have hsize : s.written.toNat = sizeT (string.length * 4) / 5 := by
    rw [sizeT, mod_eq_of_lt (by omega), hwritten]
    omega
  refine ⟨s.dest, ?_, hcells⟩
  have hread : (UInt32.ofNat string.length).toNat = string.length := UInt32.toNat_ofNat_of_lt' h32
  rw [z85Decode, if_neg (not_not.mpr h5)]
  simp only [hread, hloop, if_pos hsize]

lemma z85Bytes_z85Text (h4 : data.length % 4 = 0) : z85Bytes (z85Text data) = data := by
  have hgroups : data.length = data.length / 4 * 4 := by omega
  have hback := @Z85Direction.Inverse.convert_convert z85Encoding z85Decoding z85Encoding_inverse 5 (data.length / 4) data
    rfl hgroups (fun c _ => z85Encoding_proper c) (z85Encoding_fits data hgroups) (by decide)
  rw [z85Bytes, length_z85Text, Nat.mul_div_cancel _ (by decide)]
  exact hback

/-! ### Round trips -/

/-- The data are encoded as a string over the alphabet, with a zero behind it, and the string is decoded as the data,
whatever the memory is that the functions write to. -/
def Z85RoundTrip (data : List UInt8) : Prop :=
  ∃ string : List UInt8, string.length * 4 = data.length * 5 ∧ (∀ c ∈ string, c ∈ z85Encoder) ∧
    (∀ (n : ℕ) (dest : Block UInt8 n), string.length + 1 ≤ n → ∃ fuel dest',
      z85Encode fuel dest data = some (.ok (.ok dest')) ∧ string ++ [0] <+: dest'.cells) ∧
    ∀ (n : ℕ) (dest : Block UInt8 n), data.length ≤ n → ∃ fuel dest',
      z85Decode fuel dest string = some (.ok (.ok dest')) ∧ data <+: dest'.cells

lemma Z85RoundTrip.size (h : Z85RoundTrip data) : data.length * 5 / 4 < 2 ^ 32 := by
  obtain ⟨string, -, -, hencode, -⟩ := h
  obtain ⟨fuel, dest', hrun, -⟩ := hencode (string.length + 1) ⟨replicate _ 0, length_replicate⟩ (le_refl _)
  exact (z85Encode_size hrun).2.1

/-- For data of whole groups the round trip works exactly when the characters can be counted with 32 bits. -/
theorem z85RoundTrip_iff (h4 : data.length % 4 = 0) : Z85RoundTrip data ↔ data.length * 5 / 4 < 2 ^ 32 := by
  refine ⟨Z85RoundTrip.size, fun h32 => ?_⟩
  have hlen : (z85Text data).length = data.length * 5 / 4 := by
    rw [length_z85Text]
    omega
  refine ⟨z85Text data, by omega, fun c => mem_z85Encoder_of_mem_z85Text, ?_, ?_⟩
  · intro n dest hroom
    obtain ⟨dest', hrun, hcells⟩ := z85Encode_spec h4 h32 dest (by omega)
    exact ⟨_, dest', hrun, hcells⟩
  · intro n dest hroom
    obtain ⟨dest', hrun, hcells⟩ := @z85Decode_spec n (z85Text data) (by omega) (by omega)
      (fun c hc => (z85Decoding_of_mem (mem_z85Encoder_of_mem_z85Text hc)).1) dest (by omega)
    rw [z85Bytes_z85Text h4] at hcells
    exact ⟨_, dest', hrun, hcells⟩

/-- Eight bytes. -/
theorem z85RoundTrip_eight : Z85RoundTrip [0x86, 0x4F, 0xD2, 0x6F, 0xB5, 0x59, 0xF7, 0x5B] :=
  (z85RoundTrip_iff (by decide)).mpr (by decide)

/-- One group more than what can be counted. -/
theorem not_z85RoundTrip_long : ¬Z85RoundTrip (replicate 3435973840 0) := by
  intro h
  have hsize := h.size
  rw [length_replicate] at hsize
  exact absurd hsize (by norm_num)

end Zmq
