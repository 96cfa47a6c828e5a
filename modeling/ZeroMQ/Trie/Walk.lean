import ZeroMQ.Trie.Node

/-!
# Walking over all keys

The functions that visit every node of a trie keep the key of the current node in one buffer, which
they write to on the way down and enlarge when it is full. `Buffer` is that buffer with its
capacity; a write beyond the capacity is a fault.

`keysWhere q` lists the keys whose payload satisfies `q`, in the order a walk meets them. It is what
the walks of the two classes are compared with.
-/

namespace Zmq

open Function List UInt8

/-- A buffer on the heap. -/
structure Buffer where
  bytes : ℕ → UInt8
  capacity : ℕ

namespace Buffer

/-- A NULL pointer. -/
def null : Buffer := ⟨fun _ => 0, 0⟩

/-- The first `size` bytes. -/
def contents (b : Buffer) (size : ℕ) : List UInt8 := (List.range size).map b.bytes

/-- "Adjust the buffer": make it larger when it is full. The result is the buffer and its size as
far as the caller knows it. -/
def adjust (b : Buffer) (size max : ℕ) : Buffer × ℕ :=
  if size ≥ max then ({ b with capacity := size + 256 }, size + 256) else (b, max)

/-- Write a byte. -/
def put (b : Buffer) (i : ℕ) (c : UInt8) : Except TrieFault Buffer :=
  if i < b.capacity then .ok { b with bytes := update b.bytes i c }
  else .error .outOfBounds

/-- The same first bytes. -/
def Agree (size : ℕ) (b b' : Buffer) : Prop := ∀ i < size, b'.bytes i = b.bytes i

lemma Agree.contents_eq {size : ℕ} {b b' : Buffer} (h : Agree size b b') :
    b'.contents size = b.contents size := by
  refine map_congr_left fun i hi => h i (mem_range.mp hi)

lemma Agree.trans {size : ℕ} {b b' b'' : Buffer} (h : Agree size b b') (h' : Agree size b' b'') :
    Agree size b b'' := fun i hi => (h' i hi).trans (h i hi)

lemma adjust_spec (b : Buffer) (size : ℕ) {max : ℕ} (hcap : max ≤ b.capacity) :
    (b.adjust size max).1.bytes = b.bytes ∧ size < (b.adjust size max).2 ∧
      max ≤ (b.adjust size max).2 ∧ (b.adjust size max).2 ≤ (b.adjust size max).1.capacity := by
  unfold adjust
  split
  · exact ⟨rfl, by simp only; omega, by simp only; omega, le_refl _⟩
  · exact ⟨rfl, by simp only; omega, le_refl _, hcap⟩

lemma put_spec (b : Buffer) (size : ℕ) (c : UInt8) (hcap : size < b.capacity) :
    ∃ b', b.put size c = .ok b' ∧ b'.capacity = b.capacity ∧ Agree size b b' ∧
      b'.contents (size + 1) = b.contents size ++ [c] := by
  refine ⟨{ b with bytes := update b.bytes size c }, if_pos hcap, rfl, fun i hi => ?_, ?_⟩
  · exact update_of_ne (by omega) _ _
  rw [contents, range_succ, map_append]
  congr 1
  · refine map_congr_left fun i hi => ?_
    have := mem_range.mp hi
    exact update_of_ne (by omega) _ _
  · simp

end Buffer

namespace Node

variable {ρ : Type} [Inhabited ρ]

/-- The keys whose payload satisfies `q`, in the order of a walk. -/
def keysWhere (q : ρ → Bool) : Node ρ → List (List UInt8)
  | .null => []
  | .node payload min count _ next => (if q payload then [[]] else []) ++
    (List.range count).flatMap fun i =>
      (keysWhere q (next i)).map (UInt8.ofNat (min.toNat + i) :: ·)

variable {q : ρ → Bool}

lemma mem_keysWhere [DecidableEq ρ] (hq : q default = false) {t : Node ρ} (hwf : WF t)
    (key : List UInt8) : key ∈ keysWhere q t ↔ q (get key t) = true := by
  induction key generalizing t with
  | nil =>
    cases t with
    | null => simp [keysWhere, hq]
    | node p min count live next => simp [keysWhere]
  | cons c key ih =>
    cases t with
    | null => simp [keysWhere, hq]
    | node p min count live next =>
      obtain ⟨hshape, hchildren⟩ := hwf
      have hb := hshape.bound
      have hc := c.toNat_lt
      have hnil : (c :: key) ∉ (if q p then [[]] else []) := by
        split <;> simp
      rw [get_cons, keysWhere, List.mem_append]
      simp only [hnil, false_or, List.mem_flatMap, List.mem_range, List.mem_map, List.cons.injEq]
      constructor
      · rintro ⟨i, hi, k, hk, hci, rfl⟩
        have hnat : c.toNat = min.toNat + i := by
          rw [← hci, UInt8.toNat_ofNat']
          omega
        rw [hnat, slot_add _ _ hi]
        exact (ih (hchildren i hi).1).mp hk
      · intro h
        have hlive : (slot min count next c.toNat).isLive = true := by
          by_contra hl
          have hnull : slot min count next c.toNat = null := eq_null (by simpa using hl)
          rw [hnull, get_null, hq] at h
          exact absurd h (by decide)
        obtain ⟨hlow, hhigh⟩ := mem_range hlive
        rw [slot_of_mem _ hlow hhigh] at h
        refine ⟨c.toNat - min.toNat, by omega, key, (ih (hchildren _ (by omega)).1).mpr h, ?_, rfl⟩
        rw [Nat.add_sub_cancel' hlow, UInt8.ofNat_toNat]

lemma nodup_keysWhere [DecidableEq ρ] {t : Node ρ} (hwf : WF t) : (keysWhere q t).Nodup := by
  induction t with
  | null => exact List.nodup_nil
  | node p min count live next ih =>
    obtain ⟨hshape, hchildren⟩ := hwf
    have hb := hshape.bound
    rw [keysWhere]
    refine List.nodup_append.mpr ⟨?_, ?_, ?_⟩
    · split <;> simp
    · refine List.nodup_flatMap.mpr ⟨fun i hi => ?_, ?_⟩
      · exact (ih i (hchildren i (List.mem_range.mp hi)).1).map fun a b h => (List.cons.inj h).2
      · refine List.nodup_range.pairwise_of_forall_ne fun i hi j hj hne => ?_
        have hi' := List.mem_range.mp hi
        have hj' := List.mem_range.mp hj
        simp only [onFun, List.disjoint_left, List.mem_map]
        rintro _ ⟨a, -, rfl⟩ ⟨b, -, h⟩
        have := congrArg toNat (List.cons.inj h).1
        rw [toNat_ofNat', toNat_ofNat'] at this
        omega
    · intro a ha b hb' hab
      have hnil : a = [] := by
        split at ha
        · simpa using ha
        · simp at ha
      rw [← hab, hnil] at hb'
      simp at hb'

end Node

end Zmq
