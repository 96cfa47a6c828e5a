import ZeroMQ.Engine.Mechanism

/-!
# Metadata

Metadata are properties one after the other, each with the lengths of its name and of its value. `parse_metadata`
undoes `add_property`: it hands over the properties in order. What is behind the last whole property is an error,
except in two cases in which it takes the end of the data for the end of a property: when they end right behind a
name, or right behind the length of a value that is not empty.
-/

namespace Zmq

open List

/-! ### Properties -/

/-- A property whose name and value fit the fields for their lengths. -/
structure Property where
  name : List UInt8
  value : List UInt8
  name_le : name.length ≤ 255
  value_lt : value.length < 2 ^ 32

namespace Property

/-- A property with the lengths of its name and of its value. -/
def encode (p : Property) : List UInt8 :=
  [UInt8.ofNat p.name.length] ++ p.name ++ putUint32 p.value.length ++ p.value

/-- Properties one after the other. -/
def encodeAll (ps : List Property) : List UInt8 := ps.flatMap encode

/-- The type of the peer's socket, if this is what the property says, suits the own type. -/
def TypeMatches (o : MechanismOptions) (p : Property) : Prop :=
  p.name = ascii "Socket-Type" → checkSocketType o.type p.value = true

instance (o : MechanismOptions) (p : Property) : Decidable (p.TypeMatches o) :=
  inferInstanceAs (Decidable (_ → _))

/-- What a property does to the fields of a mechanism. -/
def report (o : MechanismOptions) (zapFlag : Bool) (b : MechanismBase) (p : Property) : MechanismBase :=
  let identity := if p.name = ascii "Identity" ∧ o.recvIdentity then p.value else b.identity
  if zapFlag then { b with identity, zapProperties := MechanismBase.insert b.zapProperties p.name p.value }
  else { b with identity, zmtpProperties := MechanismBase.insert b.zmtpProperties p.name p.value }

lemma takeProperty_eq (o : MechanismOptions) (zapFlag : Bool) (p : Property) (b : MechanismBase) :
    takeProperty o zapFlag p.name p.value b =
      if p.TypeMatches o then (.ok (), report o zapFlag b p) else (.error .einval, b) := by
  have hmismatch : (p.name = ascii "Socket-Type" ∧ checkSocketType o.type p.value = false) ↔ ¬p.TypeMatches o := by
    rw [TypeMatches, Classical.not_imp, Bool.not_eq_true]
  unfold takeProperty
  by_cases hmatch : p.TypeMatches o
  · rw [if_pos hmatch, if_neg fun h => hmismatch.mp h hmatch, report]
    cases zapFlag <;> rfl
  · rw [if_neg hmatch, if_pos (hmismatch.mpr hmatch)]

lemma toNat_length {p : Property} : (UInt8.ofNat p.name.length).toNat = p.name.length := by
  have hle := p.name_le
  rw [UInt8.toNat_ofNat']
  omega

lemma encode_append (p : Property) (after : List UInt8) : p.encode ++ after =
    UInt8.ofNat p.name.length :: (p.name ++ (putUint32 p.value.length ++ (p.value ++ after))) := by
  rw [encode, append_assoc, append_assoc, append_assoc, singleton_append]

lemma parse_cons (o : MechanismOptions) (zapFlag : Bool) (p : Property) (rest : List UInt8) (b : MechanismBase) :
    parseMetadata o zapFlag (p.encode ++ rest) b =
      if p.TypeMatches o then parseMetadata o zapFlag rest (report o zapFlag b p) else (.error .einval, b) := by
  obtain ⟨c, tail, htail⟩ : ∃ c tail, p.name ++ (putUint32 p.value.length ++ (p.value ++ rest)) = c :: tail := by
    refine exists_cons_of_ne_nil fun hnil => ?_
    have hlen := congrArg length hnil
    simp [putUint32] at hlen
  have hlength : (putUint32 p.value.length).length = 4 := length_putUint32 _
  have hname : (c :: tail).drop p.name.length = putUint32 p.value.length ++ (p.value ++ rest) := by
    rw [← htail, drop_left]
  have hafter : (putUint32 p.value.length ++ (p.value ++ rest)).drop 4 = p.value ++ rest := drop_left' hlength
  have hvalue : getUint32 ((putUint32 p.value.length ++ (p.value ++ rest)).take 4) = p.value.length := by
    rw [take_left' hlength, getUint32_putUint32 p.value_lt]
  rw [encode_append, htail, parseMetadata, toNat_length, hname, hafter, hvalue, if_neg, if_neg, if_neg, ← htail,
    take_left, take_left,
    drop_left, takeProperty_eq]
  · by_cases hmatch : p.TypeMatches o
    · rw [if_pos hmatch, if_pos hmatch]
    · rw [if_neg hmatch, if_neg hmatch]
  all_goals simp [← htail, putUint32]

lemma parse_append (o : MechanismOptions) (zapFlag : Bool) (ps : List Property) (rest : List UInt8)
    (b : MechanismBase) (h : ∀ p ∈ ps, p.TypeMatches o) :
    parseMetadata o zapFlag (encodeAll ps ++ rest) b =
      parseMetadata o zapFlag rest (ps.foldl (report o zapFlag) b) := by
  induction ps generalizing b with
  | nil => rfl
  | cons p ps ih =>
    rw [encodeAll, flatMap_cons, append_assoc, parse_cons, if_pos (h p mem_cons_self), ← encodeAll,
      ih _ fun q hq => h q (mem_cons_of_mem _ hq), foldl_cons]

lemma parse_mismatch (o : MechanismOptions) (zapFlag : Bool) (ps : List Property) (rest : List UInt8)
    (b : MechanismBase) (h : ¬∀ p ∈ ps, p.TypeMatches o) :
    (parseMetadata o zapFlag (encodeAll ps ++ rest) b).1 = .error .einval := by
  induction ps generalizing b with
  | nil => exact absurd (fun p hp => (by cases hp)) h
  | cons p ps ih =>
    rw [encodeAll, flatMap_cons, append_assoc, parse_cons, ← encodeAll]
    by_cases hmatch : p.TypeMatches o
    · rw [if_pos hmatch]
      exact ih _ fun hall => h (forall_mem_cons.mpr ⟨hmatch, hall⟩)
    · rw [if_neg hmatch]

/-! ### What is left -/

/-- No whole property is at the start. -/
def Incomplete (rest : List UInt8) : Prop := ∀ (p : Property) (after : List UInt8), rest ≠ p.encode ++ after

/-- The data end right behind a name, or right behind the length of a value that is not empty. -/
def CutShort (rest : List UInt8) : Prop :=
  ∃ name : List UInt8, name.length ≤ 255 ∧
    (name ≠ [] ∧ rest = UInt8.ofNat name.length :: name ∨
      ∃ n, 0 < n ∧ n < 2 ^ 32 ∧ rest = UInt8.ofNat name.length :: (name ++ putUint32 n))

lemma encode_append_inj {p q : Property} {a b : List UInt8} (h : p.encode ++ a = q.encode ++ b) :
    p = q ∧ a = b := by
  rw [encode_append, encode_append] at h
  obtain ⟨hlength, h⟩ := cons.inj h
  have hname : p.name.length = q.name.length := by
    rw [← p.toNat_length, ← q.toNat_length, hlength]
  obtain ⟨hnames, h⟩ := append_inj h hname
  obtain ⟨hput, h⟩ := append_inj h rfl
  have hvalue : p.value.length = q.value.length := by
    rw [← getUint32_putUint32 p.value_lt, ← getUint32_putUint32 q.value_lt, hput]
  obtain ⟨hvalues, hrest⟩ := append_inj h hvalue
  obtain ⟨name, value, hp⟩ := p
  obtain ⟨name', value', hq⟩ := q
  obtain rfl : name = name' := hnames
  obtain rfl : value = value' := hvalues
  exact ⟨rfl, hrest⟩

lemma CutShort.incomplete {rest : List UInt8} (h : CutShort rest) : Incomplete rest := by
  intro p after hrest
  rw [encode_append] at hrest
  obtain ⟨name, hname, ⟨-, rfl⟩ | ⟨n, hpos, hlt, rfl⟩⟩ := h
  all_goals
    obtain ⟨hlength, hrest⟩ := cons.inj hrest
    have hlen : name.length = p.name.length := by
      have hle := p.name_le
      have htoNat := congrArg UInt8.toNat hlength
      rw [UInt8.toNat_ofNat', UInt8.toNat_ofNat'] at htoNat
      omega
  · have hsum := congrArg length hrest
    rw [length_append, length_append, length_putUint32] at hsum
    omega
  · obtain ⟨-, hrest⟩ := append_inj hrest hlen
    rw [← append_nil (putUint32 n)] at hrest
    obtain ⟨hput, hafter⟩ := append_inj hrest rfl
    have hvalue : n = p.value.length := by
      rw [← getUint32_putUint32 hlt, ← getUint32_putUint32 p.value_lt, hput]
    have hnil := congrArg length hafter
    rw [length_append] at hnil
    simp only [length_nil] at hnil
    omega

lemma exists_incomplete (data : List UInt8) : ∃ ps rest, data = encodeAll ps ++ rest ∧ Incomplete rest := by
  induction hn : data.length using Nat.strong_induction_on generalizing data with
  | _ n ih =>
    by_cases hwhole : Incomplete data
    · exact ⟨[], data, rfl, hwhole⟩
    simp only [Incomplete, ne_eq, not_forall, not_not] at hwhole
    obtain ⟨p, after, rfl⟩ := hwhole
    have hlen : after.length < n := by
      rw [← hn, length_append]
      have hpos : 0 < p.encode.length := by simp [encode]
      omega
    obtain ⟨ps, rest, hafter, hrest⟩ := ih after.length hlen after rfl
    refine ⟨p :: ps, rest, ?_, hrest⟩
    rw [encodeAll, flatMap_cons, append_assoc, ← encodeAll, ← hafter]

lemma parse_incomplete (o : MechanismOptions) (zapFlag : Bool) {rest : List UInt8} (b : MechanismBase)
    (hrest : Incomplete rest) (hne : rest ≠ []) (hcut : ¬CutShort rest) :
    parseMetadata o zapFlag rest b = (.error .eproto, b) := by
  have hmetadataRest : ∀ l : List UInt8, l ≠ [] → metadataRest l b = (.error .eproto, b) := fun l hl => if_neg hl
  obtain ⟨c, tail, rfl⟩ := exists_cons_of_ne_nil hne
  cases tail with
  | nil => rw [parseMetadata]
  | cons d tail =>
    have hc := c.toNat_lt
    have hlne : d :: tail ≠ [] := cons_ne_nil d tail
    rw [parseMetadata]
    · generalize d :: tail = l at *
      have hsplit : l.take c.toNat ++ l.drop c.toNat = l := take_append_drop _ _
      have htake : (l.take c.toNat).length = min c.toNat l.length := length_take
      generalize l.take c.toNat = name at *
      generalize l.drop c.toNat = afterName at *
      by_cases hshort : l.length < c.toNat
      · rw [if_pos hshort]
        exact hmetadataRest l hlne
      rw [if_neg hshort]
      have hlen : name.length = c.toNat := by omega
      have hname : UInt8.ofNat name.length = c := by rw [hlen, UInt8.ofNat_toNat]
      by_cases hafter : afterName.length < 4
      · rw [if_pos hafter]
        refine hmetadataRest _ fun hnil => hcut ⟨name, by omega, .inl ?_⟩
        rw [hnil, append_nil] at hsplit
        rw [hname, hsplit]
        exact ⟨hlne, rfl⟩
      rw [if_neg hafter]
      obtain ⟨hput, hlt⟩ := @putUint32_getUint32 (afterName.take 4) (by rw [length_take]; omega)
      have hfour : putUint32 (getUint32 (afterName.take 4)) ++ afterName.drop 4 = afterName := by
        rw [hput, take_append_drop]
      generalize getUint32 (afterName.take 4) = valueLength at *
      generalize afterName.drop 4 = afterLength at *
      by_cases hvalue : afterLength.length < valueLength
      · rw [if_pos hvalue]
        refine hmetadataRest _ fun hnil => hcut ⟨name, by omega, .inr ⟨valueLength, by omega, hlt, ?_⟩⟩
        rw [hnil, append_nil] at hfour
        rw [hname, hfour, hsplit]
      · have hvalueLen : (afterLength.take valueLength).length = valueLength := by
          rw [length_take]
          omega
        refine absurd ?_ (hrest ⟨name, afterLength.take valueLength, by omega, by omega⟩
          (afterLength.drop valueLength))
        rw [encode_append]
        dsimp only
        rw [hvalueLen, hname, take_append_drop, hfour, hsplit]
    · exact fun h => hlne h

/-! ### The inverse of `add_property` -/

/-- Data that are cut short behind their last whole property. -/
def EndsShort (data : List UInt8) : Prop := ∃ ps rest, data = encodeAll ps ++ rest ∧ CutShort rest

lemma not_endsShort_encodeAll (ps : List Property) : ¬EndsShort (encodeAll ps) := by
  rintro ⟨ps', rest, hdata, hcut⟩
  induction ps generalizing ps' with
  | nil =>
    obtain ⟨-, rfl⟩ := append_eq_nil_iff.mp hdata.symm
    obtain ⟨name, -, ⟨-, h⟩ | ⟨n, -, -, h⟩⟩ := hcut <;> cases h
  | cons p ps ih =>
    cases ps' with
    | nil => exact hcut.incomplete p (encodeAll ps) hdata.symm
    | cons q ps' =>
      rw [encodeAll, encodeAll, flatMap_cons, flatMap_cons, append_assoc] at hdata
      exact ih ps' (encode_append_inj hdata).2

/-- What `add_property` writes is the property, as long as the value has fewer than 2^31 bytes. -/
lemma addProperty_eq (p : Property) :
    addProperty p.name p.value = if p.value.length ≤ 0x7FFFFFFF then .ok p.encode else .error .assertFailed := by
  have hname := p.name_le
  unfold addProperty
  by_cases hvalue : p.value.length ≤ 0x7FFFFFFF
  · rw [if_pos hvalue, if_neg (by omega)]
    rfl
  · rw [if_neg hvalue, if_pos (by omega)]

lemma addProperty_all {ps : List Property} {chunks : List (List UInt8)}
    (h : ps.mapM (fun p => addProperty p.name p.value) = .ok chunks) : chunks.flatten = encodeAll ps := by
  induction ps generalizing chunks with
  | nil =>
    obtain rfl := Except.ok.inj h
    rfl
  | cons p ps ih =>
    rw [mapM_cons, addProperty_eq] at h
    split at h
    next =>
      cases hps : ps.mapM fun p => addProperty p.name p.value with
      | error f =>
        rw [hps] at h
        cases h
      | ok rest =>
        rw [hps] at h
        obtain rfl := Except.ok.inj h
        rw [flatten_cons, ih hps, encodeAll, encodeAll, flatMap_cons]
    next => cases h

/-- What `parse_metadata` makes of data. -/
structure Parsed (o : MechanismOptions) (zapFlag : Bool) (data : List UInt8) (b : MechanismBase) : Prop where
  reports : ∀ ps, data = encodeAll ps → (∀ p ∈ ps, p.TypeMatches o) →
    parseMetadata o zapFlag data b = (.ok (), ps.foldl (report o zapFlag) b)
  /-- So it is with what `add_property` has written. -/
  written : ∀ (ps : List Property) chunks, ps.mapM (fun p => addProperty p.name p.value) = .ok chunks →
    data = chunks.flatten → (∀ p ∈ ps, p.TypeMatches o) →
    parseMetadata o zapFlag data b = (.ok (), ps.foldl (report o zapFlag) b)
  /-- A whole property with a type that does not suit is an error of its own. -/
  mismatch : ∀ ps rest, data = encodeAll ps ++ rest → (¬∀ p ∈ ps, p.TypeMatches o) →
    (parseMetadata o zapFlag data b).1 = .error .einval
  /-- It succeeds with nothing else, as long as the data are not cut short. -/
  succeeds : ¬EndsShort data → ((parseMetadata o zapFlag data b).1 = .ok () ↔
    ∃ ps, data = encodeAll ps ∧ ∀ p ∈ ps, p.TypeMatches o)
  malformed : ¬EndsShort data → (∀ ps, data ≠ encodeAll ps) →
    (∀ ps rest, data = encodeAll ps ++ rest → ∀ p ∈ ps, p.TypeMatches o) →
    (parseMetadata o zapFlag data b).1 = .error .eproto

/-- `parse_metadata` undoes `add_property`. -/
theorem parse_metadata_exact (o : MechanismOptions) (zapFlag : Bool) (data : List UInt8) (b : MechanismBase) :
    Parsed o zapFlag data b := by
  have hreports : ∀ ps, data = encodeAll ps → (∀ p ∈ ps, p.TypeMatches o) →
      parseMetadata o zapFlag data b = (.ok (), ps.foldl (report o zapFlag) b) := by
    rintro ps rfl hps
    have hparse := parse_append o zapFlag ps [] b hps
    rw [append_nil] at hparse
    rw [hparse, parseMetadata]
  have hmismatch : ∀ ps rest, data = encodeAll ps ++ rest → (¬∀ p ∈ ps, p.TypeMatches o) →
      (parseMetadata o zapFlag data b).1 = .error .einval := by
    rintro ps rest rfl hps
    exact parse_mismatch o zapFlag ps rest b hps
  obtain ⟨ps, rest, hdata, hrest⟩ := exists_incomplete data
  have hmalformed : ¬EndsShort data → rest ≠ [] → (∀ p ∈ ps, p.TypeMatches o) →
      (parseMetadata o zapFlag data b).1 = .error .eproto := by
    intro h hne hps
    have hcut : ¬CutShort rest := fun hcut => h ⟨ps, rest, hdata, hcut⟩
    rw [hdata, parse_append o zapFlag ps rest b hps, parse_incomplete o zapFlag _ hrest hne hcut]
  have hwhole : rest = [] → data = encodeAll ps := by
    rintro rfl
    rw [hdata, append_nil]
  have hwritten (ps : List Property) (chunks) (hchunks : ps.mapM (fun p => addProperty p.name p.value) = .ok chunks)
      (hflat : data = chunks.flatten) := hreports ps (hflat.trans (addProperty_all hchunks))
  refine ⟨hreports, hwritten, hmismatch, fun h => ⟨fun hok => ?_, ?_⟩, fun h hnot hall => ?_⟩
  · by_cases hps : ∀ p ∈ ps, p.TypeMatches o
    · by_cases hne : rest = []
      · exact ⟨ps, hwhole hne, hps⟩
      · rw [hmalformed h hne hps] at hok
        cases hok
    · rw [hmismatch ps rest hdata hps] at hok
      cases hok
  · rintro ⟨ps', hps', hmatch⟩
    rw [hreports ps' hps' hmatch]
  · exact hmalformed h (fun hnil => hnot ps (hwhole hnil)) (hall ps rest hdata)

/-- A property that is whole may be refused, and data that end behind a name are accepted. -/
theorem parse_metadata_inexact :
    (∃ p : Property, (parseMetadata ⟨.req, [], Nat.zero_le _, false, [], []⟩ false (encodeAll [p]) .init).1 = .error .einval) ∧
      (parseMetadata ⟨.req, [], Nat.zero_le _, false, [], []⟩ false [1, 88] .init).1 = .ok () ∧ ∀ ps, encodeAll ps ≠ [1, 88] := by
  refine ⟨⟨⟨ascii "Socket-Type", ascii "PUB", by decide, by decide⟩, ?_⟩, ?_, fun ps hps => ?_⟩
  · rw [← append_nil (encodeAll _)]
    exact parse_mismatch _ false _ [] .init (by decide)
  · simp [parseMetadata, metadataRest]
  · have hcut : CutShort [1, 88] := ⟨[88], by decide, .inl ⟨by decide, rfl⟩⟩
    exact not_endsShort_encodeAll ps ⟨[], [1, 88], hps, hcut⟩

end Property

end Zmq
