import Mathlib.Algebra.Group.Nat.Defs
import Mathlib.Order.Lattice
import ZeroMQ.Foundation.Run

/-!
# Chunks

A chunk is a block of `max_size` bytes the first `size` of which are its contents. `zchunk_consume` copies
what fits from another chunk, and `consumed` marks how far that one has been copied. Only `zchunk_consume`
moves the mark, so `zchunk_set`, `zchunk_fill` and `zchunk_resize` leave it behind the end of contents they
make shorter. Whoever copies a chunk passes its `max_size`.

Memory is taken not to run out. Its contents are arbitrary when `malloc` returns it, and zero when `zmalloc`
does.
-/

namespace Czmq.Chunks

open Foundation List Option Nat Except Ensures

/-- How a call can fail. -/
inductive ZchunkFault
  /-- `assert` -/
  | assertion
  /-- A copy leaves the memory of a chunk. -/
  | outside
  deriving DecidableEq

/-- `zchunk_t`. -/
structure Zchunk where
  size : ℕ
  maxSize : ℕ
  consumed : ℕ
  /-- The memory `data` points at. -/
  data : List UInt8
  /-- What has been consumed from the chunk; the code does not keep it. -/
  taken : List UInt8
  deriving DecidableEq

/-- What the caller passes: data with its size, or a size without data. -/
inductive ChunkSource
  | bytes (data : List UInt8)
  | null (size : UInt64)

/-- The size the caller passes. -/
def ChunkSource.size : ChunkSource → ℕ
  | .bytes data => data.length
  | .null size => size.toNat

/-- `sizeof (zchunk_t)`. -/
def sizeofZchunk : ℕ := 40

namespace Zchunk

/-- The contents. -/
def contents (c : Zchunk) : List UInt8 := c.data.take c.size

/-- The memory after bytes have been copied into it. -/
def splice (c : Zchunk) (offset : ℕ) (bytes : List UInt8) : List UInt8 :=
  c.data.take offset ++ bytes ++ c.data.drop (offset + bytes.length)

/-- `memcpy` into the memory of the chunk. -/
def store (c : Zchunk) (offset : ℕ) (bytes : List UInt8) : Except ZchunkFault Zchunk :=
  if offset + bytes.length ≤ c.data.length then .ok { c with data := c.splice offset bytes }
  else .error .outside

/-- `memcpy` out of the memory of the chunk. -/
def load (c : Zchunk) (offset n : ℕ) : Except ZchunkFault (List UInt8) :=
  if offset + n ≤ c.data.length then .ok ((c.data.drop offset).take n) else .error .outside

/-- `zchunk_new`. -/
def new (source : ChunkSource) (memory : ℕ → UInt8) : Except ZchunkFault Zchunk :=
  let allocated := (sizeofZchunk + source.size) % 2 ^ 64
  if allocated < sizeofZchunk then .error .outside
  else
    let c : Zchunk := ⟨0, source.size, 0, (List.range (allocated - sizeofZchunk)).map memory, []⟩
    match source with
    | .null _ => .ok c
    | .bytes data => { c with size := data.length }.store 0 data

/-- `zchunk_resize`. -/
def resize (c : Zchunk) (size : UInt64) : Zchunk :=
  { c with data := List.replicate size.toNat 0, maxSize := size.toNat, size := 0 }

/-- `zchunk_set`. -/
def set (c : Zchunk) (source : ChunkSource) : Except ZchunkFault Zchunk :=
  let size := if source.size > c.maxSize then c.maxSize else source.size
  match source with
  | .null _ => .ok { c with size }
  | .bytes data => { c with size }.store 0 (data.take size)

/-- `zchunk_fill`. -/
def fill (c : Zchunk) (filler : UInt8) (size : UInt64) : Except ZchunkFault Zchunk :=
  let size := if size.toNat > c.maxSize then c.maxSize else size.toNat
  { c with size }.store 0 (List.replicate size filler)

/-- The size that `zchunk_append` and `zchunk_consume` cut off to what the chunk has room for. -/
def fit (c : Zchunk) (size : ℕ) : ℕ :=
  if (c.size + size) % 2 ^ 64 > c.maxSize then (c.maxSize + 2 ^ 64 - c.size) % 2 ^ 64 else size

/-- The bytes are copied behind the contents. -/
def extend (c : Zchunk) (bytes : List UInt8) : Except ZchunkFault Zchunk :=
  (c.store c.size bytes).map fun c => { c with size := (c.size + bytes.length) % 2 ^ 64 }

/-- `zchunk_append`. -/
def append (c : Zchunk) (data : List UInt8) : Except ZchunkFault Zchunk := c.extend (data.take (c.fit data.length))

/-- What `zchunk_consume` copies from the source. -/
def consumable (self source : Zchunk) : Except ZchunkFault (List UInt8) :=
  source.load source.consumed (self.fit ((source.size + 2 ^ 64 - source.consumed) % 2 ^ 64))

/-- What `zchunk_consume` changes in the source. -/
def give (c : Zchunk) (bytes : List UInt8) : Zchunk :=
  { c with consumed := (c.consumed + bytes.length) % 2 ^ 64, taken := c.taken ++ bytes }

/-- `zchunk_exhausted`. -/
def exhausted (c : Zchunk) : Except ZchunkFault Bool :=
  if c.consumed ≤ c.size then .ok (c.consumed = c.size) else .error .assertion

/-- `zchunk_dup`. -/
def dup (c : Zchunk) (memory : ℕ → UInt8) : Except ZchunkFault Zchunk := do
  let data ← c.load 0 c.maxSize
  new (.bytes data) memory

/-- `zchunk_pack`: the data of the frame that `zframe_new` makes. -/
def pack (c : Zchunk) : Except ZchunkFault (List UInt8) := c.load 0 c.maxSize

/-- `zchunk_unpack`. -/
def unpack (frame : List UInt8) (memory : ℕ → UInt8) : Except ZchunkFault Zchunk := new (.bytes frame) memory

end Zchunk

/-- The calls, on chunks that are given by number. -/
inductive ZchunkOp
  | new (source : ChunkSource) (memory : ℕ → UInt8)
  | resize (i : ℕ) (size : UInt64)
  | set (i : ℕ) (source : ChunkSource)
  | fill (i : ℕ) (filler : UInt8) (size : UInt64)
  | append (i : ℕ) (data : List UInt8)
  | consume (i source : ℕ)
  | exhausted (i : ℕ)

namespace ZchunkOp

/-- A call on one chunk. That it is a chunk is asserted. -/
def on (s : List Zchunk) (i : ℕ) (f : Zchunk → Except ZchunkFault Zchunk) : Except ZchunkFault (List Zchunk) :=
  match s[i]? with
  | none => .error .assertion
  | some c => (f c).map (s.set i)

/-- The call. -/
def step (s : List Zchunk) : ZchunkOp → Except ZchunkFault (List Zchunk)
  | new source memory => (Zchunk.new source memory).map fun c => s ++ [c]
  | resize i size => on s i fun c => .ok (c.resize size)
  | set i source => on s i fun c => c.set source
  | fill i filler size => on s i fun c => c.fill filler size
  | append i data => on s i fun c => c.append data
  | exhausted i => on s i fun c => c.exhausted.map fun _ => c
  | consume i j =>
    match s[i]?, s[j]? with
    | some c, some source => do
      let bytes ← c.consumable source
      let c ← c.extend bytes
      .ok ((s.set i c).modify j fun source => source.give bytes)
    | _, _ => .error .assertion

/-- What the code needs: a chunk that has been consumed from is not made shorter or overwritten, it does not
consume from itself, and no sum of sizes leaves `size_t`. -/
def Fits (s : List Zchunk) : ZchunkOp → Prop
  | new source _ => sizeofZchunk + source.size < 2 ^ 64
  | resize i _ | set i _ | fill i _ _ => ∃ c, s[i]? = some c ∧ c.consumed = 0
  | append i data => ∃ c, s[i]? = some c ∧ c.size + data.length < 2 ^ 64
  | exhausted i => i < s.length
  | consume i j => i ≠ j ∧ ∃ c source, s[i]? = some c ∧ s[j]? = some source ∧ c.size + source.size < 2 ^ 64

end ZchunkOp

namespace Zchunk

variable {c c' source : Zchunk} {bytes : List UInt8} {offset n : ℕ}

/-! ### The memory -/

lemma length_splice (h : offset + bytes.length ≤ c.data.length) :
    (c.splice offset bytes).length = c.data.length := by
  simp only [splice, length_append, length_take, length_drop]
  omega

lemma take_splice (h : offset ≤ c.data.length) (hn : n ≤ offset) :
    (c.splice offset bytes).take n = c.data.take n := by
  have hlen : (c.data.take offset).length = offset := length_take_of_le (by omega)
  rw [splice, append_assoc, take_append_of_le_length (by omega), take_take, min_eq_left hn]

lemma splice_all (h : bytes.length = c.data.length) : c.splice 0 bytes = bytes := by
  rw [splice, Nat.zero_add, h, drop_length, take_zero, nil_append, append_nil]

/-- The contents are within the memory. -/
structure Sized (c : Zchunk) : Prop where
  size_le : c.size ≤ c.maxSize
  length_eq : c.data.length = c.maxSize
  lt : c.maxSize < 2 ^ 64

/-- **The bounds**: the mark is within the contents, and what has been consumed is what is before it. -/
structure Bounded (c : Zchunk) : Prop extends Sized c where
  consumed_le : c.consumed ≤ c.size
  taken_eq : c.taken = c.contents.take c.consumed

/-- Other contents, and the same mark. -/
structure Refilled (c c' : Zchunk) : Prop extends Sized c' where
  consumed : c'.consumed = c.consumed
  taken : c'.taken = c.taken

lemma Refilled.bounded (h : Refilled c c') (hc : c.Bounded) (hzero : c.consumed = 0) : c'.Bounded := by
  have htaken := hc.taken_eq
  rw [hzero, take_zero] at htaken
  refine { h with consumed_le := ?_, taken_eq := ?_ }
  · rw [h.consumed, hzero]
    exact zero_le _
  · rw [h.consumed, hzero, h.taken, htaken, take_zero]

/-! ### The calls -/

lemma ensures_store {P : Zchunk → Prop}
    (h : offset + bytes.length ≤ c.data.length → P { c with data := c.splice offset bytes }) :
    Ensures (c.store offset bytes) P := by
  unfold Zchunk.store
  split_ifs with hfit
  · exact .ok (h hfit)
  · exact .error _

lemma sized_new (source : ChunkSource) (memory : ℕ → UInt8) : Ensures (new source memory) Sized := by
  unfold new
  dsimp only
  split_ifs with hwrap
  · exact .error _
  cases source with
  | null size =>
    have hlt := size.toNat_lt
    simp only [ChunkSource.size, sizeofZchunk] at hwrap ⊢
    exact .ok ⟨zero_le _, by simp only [length_map, length_range]; omega, hlt⟩
  | bytes data =>
    simp only [ChunkSource.size, sizeofZchunk] at hwrap ⊢
    refine ensures_store fun hfit => ⟨le_refl _, (length_splice hfit).trans ?_, ?_⟩ <;>
      simp only [length_map, length_range] at hfit ⊢ <;> omega

lemma new_spec {source : ChunkSource} (h : sizeofZchunk + source.size < 2 ^ 64) (memory : ℕ → UInt8) :
    ∃ c, new source memory = .ok c ∧ c.consumed = 0 ∧ c.taken = [] ∧
      ∀ data, source = .bytes data → c.size = data.length ∧ c.contents = data := by
  have hallocated : ¬ (sizeofZchunk + source.size) % 2 ^ 64 < sizeofZchunk := by
    rw [Nat.mod_eq_of_lt h]
    exact Nat.not_lt.2 (Nat.le_add_right _ _)
  rw [new, if_neg hallocated]
  cases source with
  | null size => exact ⟨_, rfl, rfl, rfl, fun data hdata => by cases hdata⟩
  | bytes data =>
    have hlen : data.length =
        ((range ((sizeofZchunk + data.length) % 2 ^ 64 - sizeofZchunk)).map memory).length := by
      have hmod : (sizeofZchunk + data.length) % 2 ^ 64 = sizeofZchunk + data.length := Nat.mod_eq_of_lt h
      rw [length_map, length_range, hmod, Nat.add_sub_cancel_left]
    refine ⟨_, if_pos (by simp only [ChunkSource.size]; omega), rfl, rfl, fun data' hdata => ?_⟩
    cases hdata
    exact ⟨rfl, by rw [contents, splice_all hlen, take_length]⟩

lemma refilled_store {size : ℕ} (h : c.Sized) (hsize : size ≤ c.maxSize) (hlen : bytes.length ≤ size) :
    ∃ c', Zchunk.store { c with size } 0 bytes = .ok c' ∧ Refilled c c' := by
  have hfit : 0 + bytes.length ≤ c.data.length := by
    rw [h.length_eq]
    omega
  exact ⟨_, if_pos hfit, ⟨hsize, (length_splice hfit).trans h.length_eq, h.lt⟩, rfl, rfl⟩

lemma refilled_set (h : c.Sized) (source : ChunkSource) : ∃ c', c.set source = .ok c' ∧ Refilled c c' := by
  have hsize : (if source.size > c.maxSize then c.maxSize else source.size) ≤ c.maxSize := by
    split_ifs <;> omega
  cases source with
  | null size => exact ⟨_, rfl, ⟨hsize, h.length_eq, h.lt⟩, rfl, rfl⟩
  | bytes data => exact refilled_store h hsize (length_take_le _ _)

lemma refilled_fill (h : c.Sized) (filler : UInt8) (size : UInt64) :
    ∃ c', c.fill filler size = .ok c' ∧ Refilled c c' :=
  refilled_store h (by split_ifs <;> omega) (length_replicate.le)

lemma refilled_resize (c : Zchunk) (size : UInt64) : Refilled c (c.resize size) :=
  ⟨⟨zero_le _, length_replicate, size.toNat_lt⟩, rfl, rfl⟩

lemma extend_spec (h : c.Sized) (hroom : c.size + bytes.length ≤ c.maxSize) :
    ∃ c', c.extend bytes = .ok c' ∧ Refilled c c' ∧ c.size ≤ c'.size ∧ c'.data.take c.size = c.contents := by
  have hfit : c.size + bytes.length ≤ c.data.length := hroom.trans h.length_eq.ge
  have hmod : (c.size + bytes.length) % 2 ^ 64 = c.size + bytes.length := mod_eq_of_lt (hroom.trans_lt h.lt)
  refine ⟨{ c with size := (c.size + bytes.length) % 2 ^ 64, data := c.splice c.size bytes },
    by rw [extend, store, if_pos hfit, Except.map], ⟨⟨?_, (length_splice hfit).trans h.length_eq, h.lt⟩, rfl, rfl⟩, ?_,
    take_splice (by omega) (le_refl _)⟩
  · exact hmod.trans_le hroom
  · exact (le_add_right _ _).trans hmod.ge

lemma sized_extend (h : c.Sized) (bytes : List UInt8) : Ensures (c.extend bytes) Sized := by
  by_cases hroom : c.size + bytes.length ≤ c.maxSize
  · obtain ⟨c', hc', hrefilled, -⟩ := extend_spec h hroom
    rw [hc']
    exact .ok hrefilled.toSized
  · rw [extend, store, if_neg (by rw [h.length_eq]; exact hroom)]
    exact .error _

lemma Bounded.extend (h : c.Bounded) (hroom : c.size + bytes.length ≤ c.maxSize) :
    ∃ c', c.extend bytes = .ok c' ∧ c'.Bounded := by
  obtain ⟨c', hc', hrefilled, hle, hdata⟩ := extend_spec h.toSized hroom
  refine ⟨c', hc', { hrefilled with consumed_le := ?_, taken_eq := ?_ }⟩
  · rw [hrefilled.consumed]
    exact h.consumed_le.trans hle
  have htake : c'.contents.take c.consumed = c.contents.take c.consumed := by
    rw [← hdata, contents, take_take, take_take, min_eq_left (h.consumed_le.trans hle),
      min_eq_left h.consumed_le]
  rw [hrefilled.consumed, hrefilled.taken, htake, h.taken_eq]

lemma fit_spec (h : c.Sized) (hsum : c.size + n < 2 ^ 64) : c.fit n ≤ n ∧ c.size + c.fit n ≤ c.maxSize := by
  have hle := h.size_le
  have hlt := h.lt
  unfold fit
  split_ifs <;> omega

lemma consumable_spec (h : c.Sized) (hs : source.Bounded) (hsum : c.size + source.size < 2 ^ 64) :
    ∃ bytes, c.consumable source = .ok bytes ∧ c.size + bytes.length ≤ c.maxSize ∧ (source.give bytes).Bounded := by
  have hle := hs.consumed_le
  have hsize := hs.size_le
  have hlt := hs.lt
  have hlen := hs.length_eq
  have hleft : (source.size + 2 ^ 64 - source.consumed) % 2 ^ 64 = source.size - source.consumed := by omega
  obtain ⟨hfit, hroom⟩ := fit_spec (n := source.size - source.consumed) h (by omega)
  have hbytes : ((source.data.drop source.consumed).take (c.fit (source.size - source.consumed))).length =
      c.fit (source.size - source.consumed) := length_take_of_le (by rw [length_drop]; omega)
  refine ⟨_, by rw [consumable, hleft, load, if_pos (by omega)], by rw [hbytes]; exact hroom, ?_⟩
  have hmark : (source.give ((source.data.drop source.consumed).take
      (c.fit (source.size - source.consumed)))).consumed =
      source.consumed + c.fit (source.size - source.consumed) := by
    rw [give, hbytes]
    exact mod_eq_of_lt (by omega)
  refine { hs with consumed_le := ?_, taken_eq := ?_ }
  · rw [hmark]
    show _ ≤ source.size
    omega
  · rw [hmark]
    show source.taken ++ _ = (source.data.take source.size).take _
    rw [hs.taken_eq, contents, take_take, take_take, min_eq_left (by omega), min_eq_left (by omega),
      ← take_add]

end Zchunk

/-! ### Runs -/

namespace ZchunkOp

open Zchunk

variable {s : List Zchunk}

lemma on_ensures {P : Zchunk → Prop} (h : ∀ c ∈ s, P c) {f : Zchunk → Except ZchunkFault Zchunk}
    (hf : ∀ c, P c → Ensures (f c) P) (i : ℕ) : Ensures (on s i f) fun s' => ∀ c ∈ s', P c := by
  unfold on
  cases hi : s[i]? with
  | none => exact .error _
  | some c =>
    refine map ((hf c (h c (mem_of_getElem? hi))).mono fun c' hc' d hd => ?_)
    obtain hd | rfl := mem_or_eq_of_mem_set hd
    · exact h d hd
    · exact hc'

lemma on_ok {P : Zchunk → Prop} (h : ∀ c ∈ s, P c) {f : Zchunk → Except ZchunkFault Zchunk} {i : ℕ} {c : Zchunk}
    (hi : s[i]? = some c) (hf : ∃ c', f c = .ok c' ∧ P c') : ∃ s', on s i f = .ok s' ∧ ∀ c ∈ s', P c := by
  obtain ⟨c', hc', hP⟩ := hf
  refine ⟨s.set i c', by rw [on, hi]; simp only [hc', Except.map], fun d hd => ?_⟩
  obtain hd | rfl := mem_or_eq_of_mem_set hd
  · exact h d hd
  · exact hP

lemma forall_mem_consumed {P : Zchunk → Prop} (h : ∀ c ∈ s, P c) {i j : ℕ} {c : Zchunk} {bytes : List UInt8}
    (hc : P c) (hgive : ∀ source, (s.set i c)[j]? = some source → P (source.give bytes)) :
    ∀ d ∈ (s.set i c).modify j fun source => source.give bytes, P d := by
  intro d hd
  obtain ⟨k, hk⟩ := getElem?_of_mem hd
  rw [getElem?_modify] at hk
  cases hold : (s.set i c)[k]? with
  | none => simp [hold] at hk
  | some source =>
    rw [hold] at hk
    by_cases hjk : j = k
    · subst hjk
      simp only [Option.map_eq_map, Option.map_some, ↓reduceIte, Option.some.injEq] at hk
      exact hk ▸ hgive source hold
    · simp only [if_neg hjk, Option.map_eq_map, Option.map_some, Option.some.injEq] at hk
      obtain hmem | rfl := mem_or_eq_of_mem_set (mem_of_getElem? hold)
      · exact hk ▸ h source hmem
      · exact hk ▸ hc

lemma step_sized (h : ∀ c ∈ s, c.Sized) (op : ZchunkOp) : Ensures (step s op) fun s' => ∀ c ∈ s', c.Sized := by
  have hrefilled {i : ℕ} {f : Zchunk → Except ZchunkFault Zchunk}
      (hf : ∀ c, c.Sized → ∃ c', f c = .ok c' ∧ Refilled c c') : Ensures (on s i f) fun s' => ∀ c ∈ s', c.Sized := by
    refine on_ensures h (fun c hc => ?_) i
    obtain ⟨c', hc', hkept⟩ := hf c hc
    rw [hc']
    exact .ok hkept.toSized
  cases op with
  | new source memory =>
    refine map ((sized_new source memory).mono fun c hc d hd => ?_)
    rcases mem_append.1 hd with hd | hd
    · exact h d hd
    · rw [mem_singleton.1 hd]
      exact hc
  | resize i size => exact hrefilled fun c _ => ⟨_, rfl, refilled_resize c size⟩
  | set i source => exact hrefilled fun c hc => refilled_set hc source
  | fill i filler size => exact hrefilled fun c hc => refilled_fill hc filler size
  | append i data => exact on_ensures h (fun c hc => sized_extend hc _) i
  | exhausted i => exact on_ensures h (fun c hc => map fun _ _ => hc) i
  | consume i j =>
    rw [step]
    cases hi : s[i]? with
    | none => exact .error _
    | some c =>
      cases s[j]? with
      | none => exact .error _
      | some source =>
        refine bind (Q := fun _ => True) (fun _ _ => trivial) fun bytes _ => ?_
        refine bind (sized_extend (h c (mem_of_getElem? hi)) bytes) fun c' hc' => .ok ?_
        refine forall_mem_consumed h hc' fun source hsource => ?_
        obtain hmem | rfl := mem_or_eq_of_mem_set (mem_of_getElem? hsource)
        · exact { h source hmem with }
        · exact { hc' with }

/-- **Every call that fits succeeds and keeps the bounds of all chunks.** -/
theorem step_bounded (h : ∀ c ∈ s, c.Bounded) {op : ZchunkOp} (hfits : Fits s op) :
    ∃ s', step s op = .ok s' ∧ ∀ c ∈ s', c.Bounded := by
  have hrefilled {i : ℕ} {f : Zchunk → Except ZchunkFault Zchunk} (hi : ∃ c, s[i]? = some c ∧ c.consumed = 0)
      (hf : ∀ c, c.Sized → ∃ c', f c = .ok c' ∧ Refilled c c') : ∃ s', on s i f = .ok s' ∧ ∀ c ∈ s', c.Bounded := by
    obtain ⟨c, hi, hzero⟩ := hi
    have hc := h c (mem_of_getElem? hi)
    obtain ⟨c', hc', hkept⟩ := hf c hc.toSized
    exact on_ok h hi ⟨c', hc', hkept.bounded hc hzero⟩
  cases op with
  | new source memory =>
    rw [Fits] at hfits
    obtain ⟨c, hc, hzero, htaken, -⟩ := new_spec hfits memory
    refine ⟨s ++ [c], by rw [step, hc, Except.map], fun d hd => ?_⟩
    rcases mem_append.1 hd with hd | hd
    · exact h d hd
    · rw [mem_singleton.1 hd]
      exact { sized_new source memory c hc with
        consumed_le := hzero ▸ zero_le _, taken_eq := by rw [hzero, htaken, take_zero] }
  | resize i size => exact hrefilled hfits fun c _ => ⟨_, rfl, refilled_resize c size⟩
  | set i source => exact hrefilled hfits fun c hc => refilled_set hc source
  | fill i filler size => exact hrefilled hfits fun c hc => refilled_fill hc filler size
  | append i data =>
    rw [Fits] at hfits
    obtain ⟨c, hi, hsum⟩ := hfits
    have hc := h c (mem_of_getElem? hi)
    obtain ⟨hle, hroom⟩ := fit_spec hc.toSized hsum
    exact on_ok h hi (hc.extend (by rw [length_take_of_le hle]; exact hroom))
  | exhausted i =>
    obtain ⟨c, hi⟩ : ∃ c, s[i]? = some c := ⟨_, getElem?_eq_getElem hfits⟩
    have hc := h c (mem_of_getElem? hi)
    exact on_ok h hi ⟨c, by rw [Zchunk.exhausted, if_pos hc.consumed_le, Except.map], hc⟩
  | consume i j =>
    rw [Fits] at hfits
    obtain ⟨hne, c, source, hi, hj, hsum⟩ := hfits
    obtain ⟨bytes, hbytes, hroom, hgive⟩ :=
      consumable_spec (h c (mem_of_getElem? hi)).toSized (h source (mem_of_getElem? hj)) hsum
    obtain ⟨c', hc', hbounded⟩ := (h c (mem_of_getElem? hi)).extend hroom
    refine ⟨(s.set i c').modify j fun source => source.give bytes, ?_, ?_⟩
    · rw [step, hi, hj]
      dsimp only
      rw [hbytes]
      show (c.extend bytes >>= _) = _
      rw [hc']
      rfl
    · refine forall_mem_consumed h hbounded fun d hd => ?_
      rw [getElem?_set_ne hne, hj] at hd
      rw [← some.inj hd]
      exact hgive

end ZchunkOp

/-- **Chunks stay within their bounds in every run of calls that fit.** -/
theorem zchunk_bounds {ops : List ZchunkOp} (h : StepsMeet ZchunkOp.step ZchunkOp.Fits [] ops) :
    ∃ s, runSteps ZchunkOp.step [] ops = .ok s ∧ ∀ c ∈ s, c.Bounded :=
  runSteps_invariant (fun _ _ hs hfits => ZchunkOp.step_bounded hs hfits) (fun _ hc => by cases hc) h

/-- Two bytes of four are consumed. -/
def consumeTwo : List ZchunkOp := [.new (.bytes [1, 2, 3, 4]) fun _ => 0, .new (.null 2) fun _ => 0, .consume 1 0]

theorem zchunk_bounds_two : ∃ s, runSteps ZchunkOp.step [] consumeTwo = .ok s ∧ ∀ c ∈ s, c.Bounded := by
  have h1 : ZchunkOp.step [] consumeTwo[0] = .ok [⟨4, 4, 0, [1, 2, 3, 4], []⟩] := by decide +kernel
  have h2 : ZchunkOp.step [⟨4, 4, 0, [1, 2, 3, 4], []⟩] consumeTwo[1] =
      .ok [⟨4, 4, 0, [1, 2, 3, 4], []⟩, ⟨0, 2, 0, [0, 0], []⟩] := by decide +kernel
  refine zchunk_bounds ⟨show sizeofZchunk + 4 < 2 ^ 64 by decide +kernel, fun s hs => ?_⟩
  rw [← ok.inj (h1.symm.trans hs)]
  refine ⟨show sizeofZchunk + 2 < 2 ^ 64 by decide +kernel, fun s hs => ?_⟩
  rw [← ok.inj (h2.symm.trans hs)]
  exact ⟨⟨by decide, _, _, rfl, rfl, show 0 + 4 < 2 ^ 64 by decide +kernel⟩, fun _ _ => trivial⟩

/-- The mark is behind the contents that have been made shorter. -/
theorem zchunk_bounds_fails :
    runSteps ZchunkOp.step [] (consumeTwo ++ [.set 0 (.bytes [5]), .exhausted 0]) = .error .assertion := by
  decide +kernel

/-! ### Copies -/

namespace Zchunk

variable {c : Zchunk}

/-- A copy of the chunk. -/
def Copied (c : Zchunk) (r : Except ZchunkFault Zchunk) : Prop :=
  ∃ c', r = .ok c' ∧ c'.size = c.size ∧ c'.contents = c.contents

lemma Sized.copied_dup_iff (h : Sized c) (memory : ℕ → UInt8) :
    c.Copied (c.dup memory) ↔ c.size = c.maxSize ∧ sizeofZchunk + c.maxSize < 2 ^ 64 := by
  have hload : c.load 0 c.maxSize = .ok c.data := by
    rw [load, if_pos (by rw [h.length_eq, Nat.zero_add]), drop_zero, ← h.length_eq, take_length]
  have hdup : c.dup memory = new (.bytes c.data) memory := by
    rw [dup, hload]
    rfl
  have hnew (hlt : sizeofZchunk + c.maxSize < 2 ^ 64) :
      ∃ c', new (.bytes c.data) memory = .ok c' ∧ c'.size = c.maxSize ∧ c'.contents = c.data := by
    rw [← h.length_eq] at hlt ⊢
    obtain ⟨c', hc', -, -, hall⟩ :=
      new_spec (show sizeofZchunk + (ChunkSource.bytes c.data).size < 2 ^ 64 from hlt) memory
    exact ⟨c', hc', hall _ rfl⟩
  rw [hdup]
  constructor
  · rintro ⟨c', hc', hsize, -⟩
    by_cases hlt : sizeofZchunk + c.maxSize < 2 ^ 64
    · obtain ⟨c'', hc'', hfull, -⟩ := hnew hlt
      cases hc'.symm.trans hc''
      exact ⟨hsize.symm.trans hfull, hlt⟩
    · have hwrap : (sizeofZchunk + (ChunkSource.bytes c.data).size) % 2 ^ 64 < sizeofZchunk := by
        have hmax := h.lt
        rw [ChunkSource.size, h.length_eq]
        omega
      rw [new, if_pos hwrap] at hc'
      cases hc'
  · rintro ⟨hfull, hlt⟩
    obtain ⟨c', hc', hsize, hcontents⟩ := hnew hlt
    refine ⟨c', hc', hsize.trans hfull.symm, ?_⟩
    rw [hcontents, contents, hfull, ← h.length_eq, take_length]

end Zchunk

/-- **A chunk is copied as it is if and only if it is full**, by `zchunk_dup` and through a frame. -/
theorem zchunk_copies_iff {ops : List ZchunkOp} {s : List Zchunk} (h : runSteps ZchunkOp.step [] ops = .ok s)
    {c : Zchunk} (hc : c ∈ s) (memory : ℕ → UInt8) :
    (c.Copied (c.dup memory) ↔ c.size = c.maxSize ∧ sizeofZchunk + c.maxSize < 2 ^ 64) ∧
      (c.Copied (c.pack >>= fun frame => Zchunk.unpack frame memory) ↔
        c.size = c.maxSize ∧ sizeofZchunk + c.maxSize < 2 ^ 64) ∧
      (c.pack = .ok c.contents ↔ c.size = c.maxSize) := by
  have hsized : c.Sized := runSteps_preserves (I := fun s => ∀ c ∈ s, c.Sized)
    (fun s op s' hs _ => ZchunkOp.step_sized hs op s') (fun _ hc => by cases hc)
    (stepsMeet_of_forall (fun _ _ _ => trivial) _) h c hc
  refine ⟨hsized.copied_dup_iff memory, hsized.copied_dup_iff memory, ?_⟩
  rw [Zchunk.pack, Zchunk.load, if_pos (by rw [hsized.length_eq, Nat.zero_add]), drop_zero, ok.injEq,
    Zchunk.contents]
  constructor
  · intro heq
    have hlen := congrArg length heq
    have hle := hsized.size_le
    rw [length_take, length_take, hsized.length_eq] at hlen
    omega
  · intro heq
    rw [heq]

theorem zchunk_copies_iff_full : ∃ c, runSteps ZchunkOp.step [] [.new (.bytes [1, 2]) fun _ => 0] = .ok [c] ∧
    c.Copied (c.dup fun _ => 0) ∧ c.Copied (c.pack >>= fun frame => Zchunk.unpack frame fun _ => 0) := by
  have h : runSteps ZchunkOp.step [] [.new (.bytes [1, 2]) fun _ => 0] = .ok [⟨2, 2, 0, [1, 2], []⟩] := by
    decide +kernel
  have hcopies := zchunk_copies_iff h mem_cons_self fun _ => 0
  exact ⟨_, h, hcopies.1.mpr (by decide), hcopies.2.1.mpr (by decide)⟩

/-- A chunk of two bytes, one of which is filled, gets a second one from its memory. -/
theorem zchunk_copies_fails :
    runSteps ZchunkOp.step [] [.new (.null 2) fun _ => 9, .append 0 [7]] = .ok [⟨1, 2, 0, [7, 9], []⟩] ∧
      (⟨1, 2, 0, [7, 9], []⟩ : Zchunk).dup (fun _ => 0) = .ok ⟨2, 2, 0, [7, 9], []⟩ ∧
      (⟨1, 2, 0, [7, 9], []⟩ : Zchunk).pack = .ok [7, 9] := by
  decide +kernel

end Czmq.Chunks
