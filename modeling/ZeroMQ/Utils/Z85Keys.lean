import ZeroMQ.Utils.Z85RoundTrip

/-!
# What the decoder accepts

The decoder refuses a string for its length only. A character that is not in the alphabet counts as zero when the
table has a hole for it, it is looked up outside the table when it is below 32 or above 127, and a group that is too
large for 32 bits is cut off. So it accepts exactly the strings that the encoder makes as long as there are no others
of their lengths. The options for the keys of CURVE do not even look at what the decoder returns.
-/

namespace Zmq

open Foundation List Nat

variable {n fuel : ℕ} {data string : List UInt8}

/-! ### Encoded strings -/

/-- The encoder makes this string of the data, in a buffer that it just fills. -/
def Z85Encodes (data string : List UInt8) : Prop :=
  0 ∉ string ∧ ∀ dest : Block UInt8 (string.length + 1), ∃ fuel dest',
    z85Encode fuel dest data = some (.ok (.ok dest')) ∧ dest'.cells = string ++ [0]

/-- The characters are those of the alphabet, each group is a number of 32 bits, and the characters can be counted
with 32 bits. -/
def Z85Valid (string : List UInt8) : Prop :=
  string.length < 2 ^ 32 ∧ (∀ c ∈ string, c ∈ z85Encoder) ∧ z85Decoding.Fits string (string.length / 5)

instance : DecidablePred Z85Valid := fun string =>
  inferInstanceAs (Decidable (string.length < 2 ^ 32 ∧ (∀ c ∈ string, c ∈ z85Encoder) ∧
    z85Decoding.Fits string (string.length / 5)))

lemma zero_notMem_z85Text (data : List UInt8) : 0 ∉ z85Text data :=
  fun h => zero_notMem_z85Encoder (mem_z85Encoder_of_mem_z85Text h)

/-- Two strings without a zero that end with one are the same if one of them is the beginning of the other one. -/
lemma eq_of_concat_zero_isPrefix {s t : List UInt8} (h : s ++ [0] <+: t ++ [0]) (ht : 0 ∉ t) : s = t := by
  obtain ⟨rest, hrest⟩ := h
  rw [append_assoc] at hrest
  rcases append_eq_append_iff.mp hrest with ⟨mid, hmid, hzero⟩ | ⟨mid, rfl, hzero⟩
  · cases mid with
    | nil => rw [hmid, append_nil]
    | cons c mid =>
      rw [singleton_append, cons_append, cons.injEq] at hzero
      exact absurd (hmid ▸ mem_append_right s (hzero.1 ▸ mem_cons_self)) ht
  · cases mid with
    | nil => rw [append_nil]
    | cons c mid =>
      have hlen := congrArg length hzero
      simp only [length_cons, length_append, length_nil] at hlen
      omega

lemma z85Encodes_iff : Z85Encodes data string ↔
    data.length % 4 = 0 ∧ data.length * 5 / 4 < 2 ^ 32 ∧ string = z85Text data := by
  constructor
  · rintro ⟨hzero, hrun⟩
    obtain ⟨fuel, dest', hencode, hcells⟩ := hrun ⟨replicate _ 0, length_replicate⟩
    obtain ⟨h4, h32, hroom⟩ := z85Encode_size hencode
    obtain ⟨dest'', hspec, htext⟩ := z85Encode_spec h4 h32 ⟨replicate _ 0, length_replicate⟩ hroom
    have hmore := z85Encode_mono hencode (le_max_left fuel (data.length + 1))
    have hmore' := z85Encode_mono hspec (le_max_right fuel (data.length + 1))
    rw [hmore] at hmore'
    obtain rfl : dest' = dest'' := by simpa using hmore'
    rw [hcells] at htext
    exact ⟨h4, h32, (eq_of_concat_zero_isPrefix htext hzero).symm⟩
  · rintro ⟨h4, h32, rfl⟩
    refine ⟨zero_notMem_z85Text data, fun dest => ?_⟩
    have hlen := length_z85Text data
    obtain ⟨dest', hrun, hcells⟩ := z85Encode_spec h4 h32 dest (by omega)
    refine ⟨_, dest', hrun, (hcells.eq_of_length ?_).symm⟩
    rw [dest'.length_eq, length_append, length_singleton]

lemma z85Text_z85Bytes (h5 : string.length % 5 = 0) (hvalid : Z85Valid string) : z85Text (z85Bytes string) = string := by
  have hgroups : string.length = string.length / 5 * 5 := by omega
  have hback := @Z85Direction.Inverse.convert_convert z85Decoding z85Encoding z85Decoding_inverse 4 (string.length / 5)
    string rfl hgroups (fun c hc => (z85Decoding_of_mem (hvalid.2.1 c hc)).2) hvalid.2.2 (by decide)
  rw [z85Text, length_z85Bytes, Nat.mul_div_cancel _ (by decide)]
  exact hback

lemma fits_convert {k : ℕ} (hlen : data.length = k * 4) : z85Decoding.Fits (z85Encoding.convert 5 data k) k := by
  induction k generalizing data with
  | zero => trivial
  | succ k ih =>
    obtain ⟨first, rest, rfl, hfirst⟩ : ∃ first rest, data = first ++ rest ∧ first.length = 4 :=
      ⟨_, _, (take_append_drop 4 data).symm, length_take_of_le (by omega)⟩
    rw [length_append, hfirst] at hlen
    rw [@Z85Direction.convert_append z85Encoding 5 k first hfirst rest]
    refine (@Z85Direction.fits_append z85Decoding _ (Z85Direction.length_groupOf _ _) _ k).mpr ⟨?_, ih (by omega)⟩
    have hlt : ofNumeral z85Encoding.base.toNat (first.map z85Encoding.digitOf) % 2 ^ 32 < 2 ^ 32 :=
      mod_lt _ (by decide)
    rw [z85Encoding_inverse.map_digitOf_groupOf, z85Encoding_inverse.base_eq,
      ofNumeral_numeral (lt_trans hlt (by decide))]
    exact hlt

lemma exists_z85Encodes_iff : (∃ data, Z85Encodes data string) ↔ string.length % 5 = 0 ∧ Z85Valid string := by
  constructor
  · rintro ⟨data, h⟩
    obtain ⟨h4, h32, rfl⟩ := z85Encodes_iff.mp h
    have hlen := length_z85Text data
    refine ⟨by omega, by omega, fun c => mem_z85Encoder_of_mem_z85Text, ?_⟩
    rw [hlen, Nat.mul_div_cancel _ (by decide)]
    exact fits_convert (by omega)
  · rintro ⟨h5, hvalid⟩
    have hlen := length_z85Bytes string
    have hsize := hvalid.1
    exact ⟨z85Bytes string, z85Encodes_iff.mpr ⟨by omega, by omega, (z85Text_z85Bytes h5 hvalid).symm⟩⟩

/-- What the decoder should return for a string, and what it should have written. -/
def Z85Decoded (string : List UInt8) : Except Errno (Block UInt8 n) → Prop
  | .ok dest => ∃ data, Z85Encodes data string ∧ data <+: dest.cells
  | .error errno => errno = .einval ∧ ∀ data, ¬Z85Encodes data string

/-- The decoder returns without a fault, and with the data exactly when the string has been encoded. -/
def Z85Accepts (string : List UInt8) : Prop :=
  ∀ (n : ℕ) (dest : Block UInt8 n), string.length * 4 / 5 ≤ n →
    ∃ fuel r, z85Decode fuel dest string = some (.ok r) ∧ Z85Decoded string r

lemma z85Decode_ne_error (h5 : string.length % 5 = 0) {dest : Block UInt8 n} {errno : Errno} :
    z85Decode fuel dest string ≠ some (.ok (.error errno)) := by
  intro h
  rw [z85Decode, if_neg (not_not.mpr h5)] at h
  dsimp only at h
  split at h
  · cases h
  · cases h
  · split_ifs at h
    · cases h
    · cases h

lemma z85Accepts_iff : Z85Accepts string ↔ string.length % 5 ≠ 0 ∨ Z85Valid string := by
  constructor
  · intro h
    by_contra hnot
    obtain ⟨h5, hinvalid⟩ := not_or.mp hnot
    have h5 : string.length % 5 = 0 := not_not.mp h5
    obtain ⟨fuel, r, hrun, hr⟩ := h _ ⟨replicate (string.length * 4 / 5) 0, length_replicate⟩ (le_refl _)
    cases r with
    | ok dest =>
      obtain ⟨data, hdata, -⟩ := hr
      exact hinvalid (exists_z85Encodes_iff.mp ⟨data, hdata⟩).2
    | error errno => exact z85Decode_ne_error h5 hrun
  · intro h n dest hroom
    by_cases h5 : string.length % 5 = 0
    · have hvalid : Z85Valid string := h.resolve_left (not_not.mpr h5)
      obtain ⟨dest', hrun, hcells⟩ := z85Decode_spec h5 hvalid.1 (fun c hc => (z85Decoding_of_mem (hvalid.2.1 c hc)).1)
        dest hroom
      have hlen := length_z85Bytes string
      have hsize := hvalid.1
      exact ⟨_, .ok dest', hrun, z85Bytes string,
        z85Encodes_iff.mpr ⟨by omega, by omega, (z85Text_z85Bytes h5 hvalid).symm⟩, hcells⟩
    · refine ⟨0, .error .einval, if_pos h5, rfl, fun data hdata => h5 ?_⟩
      exact (exists_z85Encodes_iff.mp ⟨data, hdata⟩).1

/-! ### The keys of CURVE -/

/-- The options for the keys of CURVE. -/
inductive CurveKeyOption
  | publickey
  | secretkey
  | serverkey
  deriving DecidableEq, Repr

/-- What `setsockopt` changes of `options_t` for them. -/
structure CurveOptions where
  mechanism : MechanismOption
  asServer : Int
  curvePublicKey : Block UInt8 32
  curveSecretKey : Block UInt8 32
  curveServerKey : Block UInt8 32

namespace CurveOptions

/-- `CURVE_KEYSIZE`. -/
def curveKeysize : ℕ := 32

/-- `CURVE_KEYSIZE_Z85`. -/
def curveKeysizeZ85 : ℕ := 40

/-- The key that an option is about. -/
def key (o : CurveOptions) : CurveKeyOption → Block UInt8 32
  | .publickey => o.curvePublicKey
  | .secretkey => o.curveSecretKey
  | .serverkey => o.curveServerKey

/-- What is changed when a key has been written: the key of the server is one for clients. -/
def stored (o : CurveOptions) (key : Block UInt8 32) : CurveKeyOption → CurveOptions
  | .publickey => { o with mechanism := .curve, curvePublicKey := key }
  | .secretkey => { o with mechanism := .curve, curveSecretKey := key }
  | .serverkey => { o with mechanism := .curve, asServer := 0, curveServerKey := key }

/-- The string in some memory, which has to end before the memory does. -/
def cString (memory : List UInt8) : Option (List UInt8) :=
  if 0 ∈ memory then some (memory.takeWhile (· ≠ 0)) else none

/-- Decode a key; what the decoder returns is not looked at. -/
def decodeKey (fuel : ℕ) (key : Block UInt8 32) (memory : List UInt8) : Option (Except Z85Fault (Block UInt8 32)) :=
  match cString memory with
  | none => some (.error .overread)
  | some string =>
    match z85Decode fuel key string with
    | none => none
    | some (.error fault) => some (.error fault)
    | some (.ok (.error _)) => some (.ok key)
    | some (.ok (.ok key)) => some (.ok key)

/-- The new value of a key, or nothing when the length is not one of a key. -/
def newKey (fuel : ℕ) (key : Block UInt8 32) (optval : List UInt8) (optvallen : ℕ) :
    Option (Except Z85Fault (Option (Block UInt8 32))) :=
  if optvallen = curveKeysize then
    if optval.length < curveKeysize then some (.error .overread)
    else
      match key.store 0 (optval.take curveKeysize) with
      | none => some (.error .outOfBounds)
      | some key => some (.ok (some key))
  else if optvallen = curveKeysizeZ85 + 1 then
    (decodeKey fuel key optval).map (·.map some)
  else if optvallen = curveKeysizeZ85 then
    -- the deprecated form: a copy with a zero behind it
    if optval.length < curveKeysizeZ85 then some (.error .overread)
    else (decodeKey fuel key (optval.take curveKeysizeZ85 ++ [0])).map (·.map some)
  else some (.ok none)

/-- `setsockopt` for a key of CURVE, given the memory at `optval`. -/
def setsockopt (fuel : ℕ) (option : CurveKeyOption) (optval : List UInt8) (optvallen : ℕ) (o : CurveOptions) :
    Option (Except Z85Fault (Except Errno Unit × CurveOptions)) :=
  (newKey fuel (o.key option) optval optvallen).map fun r =>
    r.map fun
      | none => (.error .einval, o)
      | some key => (.ok (), o.stored key option)

/-- What setting an option should do for a string: store the key that it encodes, or fail and change nothing. -/
def KeySet (option : CurveKeyOption) (string : List UInt8) (o : CurveOptions) : Except Errno Unit × CurveOptions → Prop
  | (.ok (), o') => ∃ key, Z85Encodes key.cells string ∧ o' = o.stored key option
  | (.error _, o') => o' = o

end CurveOptions

/-- Setting an option from a string does what it should, with and without the zero. -/
def Z85Settable (option : CurveKeyOption) (string : List UInt8) : Prop :=
  ∀ (o : CurveOptions) (rest : List UInt8),
    (∃ fuel r, o.setsockopt fuel option (string ++ 0 :: rest) 41 = some (.ok r) ∧ o.KeySet option string r) ∧
      ∃ fuel r, o.setsockopt fuel option (string ++ rest) 40 = some (.ok r) ∧ o.KeySet option string r

namespace CurveOptions

lemma cString_append (hzero : 0 ∉ string) (rest : List UInt8) : cString (string ++ 0 :: rest) = some string := by
  have hall : ∀ c ∈ string, decide (c ≠ 0) = true := fun c hc => decide_eq_true fun h0 => hzero (h0 ▸ hc)
  rw [cString, if_pos (mem_append_right _ mem_cons_self), takeWhile_append_of_pos hall]
  simp

lemma decodeKey_spec (hlen : string.length = 40) (hvalid : Z85Valid string) (key : Block UInt8 32)
    (rest : List UInt8) :
    ∃ key', decodeKey 41 key (string ++ 0 :: rest) = some (.ok key') ∧ Z85Encodes key'.cells string := by
  have hzero : 0 ∉ string := fun h => zero_notMem_z85Encoder (hvalid.2.1 0 h)
  have h5 : string.length % 5 = 0 := by rw [hlen]
  obtain ⟨key', hrun, hcells⟩ := z85Decode_spec h5 hvalid.1 (fun c hc => (z85Decoding_of_mem (hvalid.2.1 c hc)).1) key
    (by rw [hlen])
  have hbytes : z85Bytes string = key'.cells := hcells.eq_of_length (by rw [length_z85Bytes, hlen, key'.length_eq])
  refine ⟨key', ?_, ?_⟩
  · rw [hlen] at hrun
    rw [decodeKey, cString_append hzero]
    simp only [hrun]
  · rw [← hbytes, z85Encodes_iff, length_z85Bytes, hlen]
    exact ⟨by decide, by decide, (z85Text_z85Bytes h5 hvalid).symm⟩

lemma setsockopt_ne_error {option : CurveKeyOption} {optval : List UInt8} {o o' : CurveOptions} {errno : Errno} :
    o.setsockopt fuel option optval 41 ≠ some (.ok (.error errno, o')) := by
  intro h
  have hkey : newKey fuel (o.key option) optval 41 = (decodeKey fuel (o.key option) optval).map (·.map some) := rfl
  rw [setsockopt, hkey] at h
  cases hrun : decodeKey fuel (o.key option) optval with
  | none =>
    rw [hrun] at h
    cases h
  | some r =>
    rw [hrun] at h
    cases r with
    | error fault | ok key => cases h

end CurveOptions

lemma z85Settable_iff (hlen : string.length = 40) (option : CurveKeyOption) :
    Z85Settable option string ↔ Z85Valid string := by
  constructor
  · intro h
    have blank : Block UInt8 32 := ⟨replicate 32 0, length_replicate⟩
    obtain ⟨⟨fuel, ⟨r, o'⟩, hrun, hr⟩, -⟩ := h ⟨.null, 0, blank, blank, blank⟩ []
    cases r with
    | error errno => exact absurd hrun CurveOptions.setsockopt_ne_error
    | ok =>
      obtain ⟨key, hkey, -⟩ := hr
      exact (exists_z85Encodes_iff.mp ⟨_, hkey⟩).2
  · intro hvalid o rest
    obtain ⟨key, hdecode, hkey⟩ := CurveOptions.decodeKey_spec hlen hvalid (o.key option) rest
    obtain ⟨key', hdecode', hkey'⟩ := CurveOptions.decodeKey_spec hlen hvalid (o.key option) []
    refine ⟨⟨41, (.ok (), o.stored key option), ?_, key, hkey, rfl⟩,
      41, (.ok (), o.stored key' option), ?_, key', hkey', rfl⟩
    · have hnew : CurveOptions.newKey 41 (o.key option) (string ++ 0 :: rest) 41 = some (.ok (some key)) := by
        change (CurveOptions.decodeKey 41 (o.key option) (string ++ 0 :: rest)).map (·.map some) = _
        rw [hdecode]
        rfl
      rw [CurveOptions.setsockopt, hnew]
      rfl
    · have hnew : CurveOptions.newKey 41 (o.key option) (string ++ rest) 40 = some (.ok (some key')) := by
        have hlong : ¬(string ++ rest).length < CurveOptions.curveKeysizeZ85 := by
          rw [length_append, hlen]
          exact not_lt.mpr (le_add_right _ _)
        have htake : (string ++ rest).take CurveOptions.curveKeysizeZ85 = string := take_left' hlen
        have hform : CurveOptions.newKey 41 (o.key option) (string ++ rest) 40 =
            if (string ++ rest).length < CurveOptions.curveKeysizeZ85 then some (.error .overread)
            else (CurveOptions.decodeKey 41 (o.key option)
              ((string ++ rest).take CurveOptions.curveKeysizeZ85 ++ [0])).map (·.map some) := rfl
        rw [hform, if_neg hlong, htake, hdecode']
        rfl
      rw [CurveOptions.setsockopt, hnew]
      rfl

/-- The decoder accepts what has been encoded and nothing else, and neither do the options for the keys. -/
def Z85Safe (string : List UInt8) : Prop :=
  Z85Accepts string ∧ (string.length = 40 → ∀ option, Z85Settable option string)

lemma Z85Safe.accepts (h : Z85Safe string) : string.length % 5 ≠ 0 ∨ Z85Valid string := z85Accepts_iff.mp h.1

/-- Only the strings of whole groups that are not encoded are treated in a wrong way. -/
theorem z85Safe_iff : Z85Safe string ↔ string.length % 5 ≠ 0 ∨ Z85Valid string := by
  refine ⟨Z85Safe.accepts, fun h => ⟨z85Accepts_iff.mpr h, fun hlen option => (z85Settable_iff hlen option).mpr ?_⟩⟩
  exact h.resolve_left (not_not.mpr (by rw [hlen]))

/-- Five spaces are decoded as if they were five zeros. -/
theorem not_z85Safe_spaces : ¬Z85Safe (ascii "     ") := by
  intro h
  exact absurd h.accepts (by decide +kernel)

end Zmq
