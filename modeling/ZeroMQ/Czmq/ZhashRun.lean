import ZeroMQ.Czmq.ZhashRefine

/-!
# Runs of the hash table

`zhash_refines_map` is about every sequence of calls after `zhash_new` that does not make the table larger than
2^32 chains: every call returns what it returns on a finite map, and in the end the table has the entries of the
map, each once, in the chain of its key and with the index of this chain, and the iterator visits each once.

`zhash_index_truncated` is a run that makes the table larger. Keys with the same hash are in one chain in every
table; a search for another one passes them all and makes the table grow every time, until the index of the
chain does not fit into 32 bits.
-/

namespace Czmq

open Foundation Finmap List

namespace Zhash

/-- The sizes in the list that fit into 32 bits. -/
def narrowPrimes : List ℕ := zhashPrimes.filter (· < 2 ^ 32)

lemma narrowPrimes_narrow : Narrow narrowPrimes := by
  have hall : ∀ l ∈ narrowPrimes, 0 < l ∧ l < 2 ^ 32 := by decide +kernel
  exact hall

lemma narrowPrimes_begin : narrowPrimes <+: zhashPrimes := by decide +kernel

section Runs

variable {β : Type}

/-- A call makes the table grow beyond the sizes that fit into 32 bits: it needs more of the list. -/
def Widens (s : Zhash CString β) (op : ZhashOp CString β) : Prop :=
  match s.step narrowPrimes bernsteinHash op with
  | .error .exhausted => True
  | _ => False

instance (s : Zhash CString β) (op : ZhashOp CString β) : Decidable (Widens s op) := by
  unfold Widens
  split <;> infer_instance

/-- The table has the entries of a map, each once, in the chain of its key and with the index of this chain. -/
structure Sound (s : Zhash CString β) (m : Finmap fun _ : CString => β) (chains : ℕ → List ℕ) : Prop where
  chain : ∀ i, IsChain Item.next s.heap (s.items i) (chains i)
  nodup : ∀ i, (chains i).Nodup
  once : ∀ i p, p ∈ chains i ↔ ∃ x, s.heap p = some x ∧ s.bucket zhashPrimes bernsteinHash x.key = i
  index : ∀ p x, s.heap p = some x → x.index.toNat = s.bucket zhashPrimes bernsteinHash x.key
  holds : Holds s.entryAt m
  size : s.size = m.keys.card

variable {s : Zhash CString β} {m : Finmap fun _ : CString => β}

lemma Shape.sound {chains : ℕ → List ℕ}
    (h : Shape narrowPrimes bernsteinHash s m chains none) : Sound s m chains := by
  have hlimit : s.limit zhashPrimes = s.limit narrowPrimes := limit_of_begin narrowPrimes_begin h.prime
  have hwide := h.of_begin narrowPrimes_begin
  refine ⟨hwide.table.chain, hwide.table.nodup, fun i p => ?_, fun p x hx => ?_, h.holds, h.size⟩
  · constructor
    · intro hp
      obtain ⟨x, hx, hplaced, -⟩ := hwide.placed i p hp
      exact ⟨x, hx, hplaced⟩
    · rintro ⟨x, hx, rfl⟩
      exact hwide.stored p x hx nofun
  · obtain ⟨y, hy, -, hindex⟩ := hwide.placed _ p (hwide.stored p x hx nofun)
    obtain rfl := Option.some.inj (hx.symm.trans hy)
    have hlt := (h.bucket_lt narrowPrimes_narrow.allocatable x.key).trans (narrowPrimes_narrow _ h.limit_mem).2
    rw [bucket, ← hlimit] at hlt
    rw [hindex]
    exact UInt32.toNat_ofNat_of_lt' hlt

lemma step_narrow (op : ZhashOp CString β)
    (hs : Stores narrowPrimes bernsteinHash s m) (hnarrow : ¬ Widens s op) :
    ∃ s', Zhash.step zhashPrimes bernsteinHash s op = .ok ((spec m op).1, s') ∧
      Stores narrowPrimes bernsteinHash s' (spec m op).2 := by
  have hyields := step_spec narrowPrimes_narrow hs op
  obtain ⟨chains, hshape⟩ := hs
  have hagrees : Agrees (s.step narrowPrimes bernsteinHash op) (s.step zhashPrimes bernsteinHash op) :=
    step_agrees narrowPrimes_begin hshape.prime op
  rw [Widens] at hnarrow
  cases hr : s.step narrowPrimes bernsteinHash op with
  | error e =>
    rw [hr] at hyields hnarrow
    obtain rfl : e = .exhausted := hyields
    exact absurd trivial hnarrow
  | ok r =>
    rw [hr] at hyields hagrees
    obtain ⟨hreply, hstores⟩ := hyields
    have hok := hagrees.resolve_left nofun
    exact ⟨r.2, by rw [hok, ← hreply], hstores⟩

lemma run_narrow (ops : List (ZhashOp CString β))
    (hnarrow : StepsMeet (fun s op => (Zhash.step zhashPrimes bernsteinHash s op).map Prod.snd)
      (fun s op => ¬ Widens s op) (Zhash.new CString β) ops) :
    ∃ s, runMachine (Zhash.step zhashPrimes bernsteinHash) (Zhash.new CString β) ops =
        .ok ((runSpec spec ∅ ops).1, s) ∧ Stores narrowPrimes bernsteinHash s (runSpec spec ∅ ops).2 :=
  refines_run_of_meet (fun _ _ op hs hop => step_narrow op hs hop) (stores_new (by decide)) hnarrow

/-- **The hash table.** In every sequence of calls that does not make the table larger than 2^32 chains every
call returns what it returns on the finite map, and in the end the table has the entries of the map and visits
each once. -/
theorem zhash_refines_map (ops : List (ZhashOp CString β))
    (hnarrow : StepsMeet (fun s op => (Zhash.step zhashPrimes bernsteinHash s op).map Prod.snd)
      (fun s op => ¬ Widens s op) (Zhash.new CString β) ops) :
    ∃ s chains, runMachine (Zhash.step zhashPrimes bernsteinHash) (Zhash.new CString β) ops =
        .ok ((runSpec spec ∅ ops).1, s) ∧
      Sound s (runSpec spec ∅ ops).2 chains ∧ VisitsOnce zhashPrimes s (runSpec spec ∅ ops).2 := by
  obtain ⟨s, hrun, chains, hshape⟩ := run_narrow ops hnarrow
  have hlimit : s.limit zhashPrimes = s.limit narrowPrimes := limit_of_begin narrowPrimes_begin hshape.prime
  have hpos : 0 < s.limit zhashPrimes := by
    rw [hlimit]
    exact (narrowPrimes_narrow _ hshape.limit_mem).1
  exact ⟨s, chains, hrun, hshape.sound, (hshape.of_begin narrowPrimes_begin).visitsOnce hpos⟩

/-- Items are inserted, found, renamed and deleted. -/
theorem zhash_refines_map_calls : ∃ s chains, runMachine (Zhash.step zhashPrimes bernsteinHash)
      (Zhash.new CString ℕ) [.insert ⟨[97], by decide⟩ 1, .insert ⟨[98], by decide⟩ 2, .insert ⟨[97], by decide⟩ 3,
        .rename ⟨[98], by decide⟩ ⟨[99], by decide⟩, .lookup ⟨[99], by decide⟩, .delete ⟨[97], by decide⟩, .size] =
      .ok ([.status 0, .status 0, .status (-1), .status 0, .value (some 2), .done, .size 1], s) ∧
    Sound s ((singleton ⟨[99], by decide⟩ 2)) chains ∧
    VisitsOnce zhashPrimes s (singleton ⟨[99], by decide⟩ 2) :=
  zhash_refines_map [.insert ⟨[97], by decide⟩ 1, .insert ⟨[98], by decide⟩ 2, .insert ⟨[97], by decide⟩ 3,
    .rename ⟨[98], by decide⟩ ⟨[99], by decide⟩, .lookup ⟨[99], by decide⟩, .delete ⟨[97], by decide⟩, .size]
    (by decide +kernel)

/-! ### A table that is too large -/

/-- The sizes in the list for which an array can be allocated. -/
def allocatablePrimes : List ℕ := zhashPrimes.filter (8 * · < 2 ^ 64)

lemma allocatablePrimes_allocatable : Allocatable allocatablePrimes := by
  have hall : ∀ l ∈ allocatablePrimes, 0 < l ∧ 8 * l < 2 ^ 64 := by decide +kernel
  exact hall

lemma allocatablePrimes_begin : allocatablePrimes <+: zhashPrimes := by decide +kernel

/-- The table has three items, all with the same hash, which is that of a key that is not in it. -/
structure Colliding (s : Zhash CString β) (m : Finmap fun _ : CString => β) (key : CString)
    (primeIndex : ℕ) : Prop where
  stores : Stores allocatablePrimes bernsteinHash s m
  three : m.keys.card = 3
  same : ∀ key' ∈ m, bernsteinHash key' = bernsteinHash key
  new : key ∉ m
  limit : s.chainLimit = 2
  index : s.primeIndex = primeIndex

lemma Colliding.lookup {key : CString} {primeIndex : ℕ}
    (h : Colliding s m key primeIndex) (hindex : primeIndex + growthFactor < allocatablePrimes.length) :
    ∃ s', s.step zhashPrimes bernsteinHash (.lookup key) = .ok (.value none, s') ∧
      Colliding s' m key (primeIndex + growthFactor) := by
  obtain ⟨⟨chains, hshape⟩, hthree, hsame, hnew, hlimit, rfl⟩ := h
  -- All items are in the chain that is searched.
  have hlong : m.keys.card ≤ (chains (s.bucket allocatablePrimes bernsteinHash key)).length := by
    have hsubset : m.keys ⊆ ((chains (s.bucket allocatablePrimes bernsteinHash key)).filterMap fun p =>
        (s.entryAt p).map Prod.fst).toFinset := fun key' hkey' => by
      have hmem := mem_keys.mp hkey'
      obtain ⟨value, hvalue⟩ := mem_iff.mp hmem
      obtain ⟨p, hp⟩ := (hshape.holds.content key' value).mp hvalue
      obtain ⟨x, hx, rfl, -⟩ := entryAt_some hp
      have hstored := hshape.stored p x hx fun h => (by cases h)
      rw [bucket, hsame _ hmem] at hstored
      exact mem_toFinset.mpr (mem_filterMap.mpr ⟨p, hstored, by rw [hp]; rfl⟩)
    calc m.keys.card ≤ _ := Finset.card_le_card hsubset
      _ ≤ _ := toFinset_card_le _
      _ ≤ _ := length_filterMap_le _ _
  have hlookup := itemLookup_grows allocatablePrimes_allocatable hshape key
  have hagrees : Agrees (s.itemLookup allocatablePrimes bernsteinHash key)
      (s.itemLookup zhashPrimes bernsteinHash key) :=
    (related_of_begin allocatablePrimes_begin hshape.prime bernsteinHash β).itemLookup hshape.prime key
  cases hr : s.itemLookup allocatablePrimes bernsteinHash key with
  | error e =>
    rw [hr] at hlookup
    exact absurd hlookup.2 (not_le_of_gt hindex)
  | ok r =>
    obtain ⟨item, s'⟩ := r
    rw [hr] at hlookup hagrees
    have hok := hagrees.resolve_left fun h => (by cases h)
    obtain ⟨hfound, -, -, hstores, hgrown⟩ := hlookup
    obtain ⟨hprime, hlimit'⟩ := hgrown hnew (by omega)
    cases item with
    | some p =>
      obtain ⟨value, hp⟩ := hfound
      obtain ⟨chains', hshape'⟩ := hstores
      exact absurd (mem_iff.mpr ⟨value, hshape'.holds.lookup hp⟩) hnew
    | none =>
      refine ⟨s', ?_, hstores, hthree, hsame, hnew, hlimit'.trans hlimit, hprime⟩
      simp only [step, Zhash.lookup, hok, bind, Except.bind, Except.map]

lemma Colliding.lookups {key : CString} (n : ℕ)
    {primeIndex : ℕ} (h : Colliding s m key primeIndex)
    (hindex : primeIndex + n * growthFactor < allocatablePrimes.length) :
    ∃ s', runMachine (Zhash.step zhashPrimes bernsteinHash) s (replicate n (.lookup key)) =
        .ok (replicate n (.value none), s') ∧ Colliding s' m key (primeIndex + n * growthFactor) := by
  induction n generalizing s primeIndex with
  | zero => exact ⟨s, rfl, by rw [Nat.zero_mul]; exact h⟩
  | succ n ih =>
    have hmul : (n + 1) * growthFactor = n * growthFactor + growthFactor := Nat.succ_mul _ _
    obtain ⟨s1, hok, h1⟩ := h.lookup (by omega)
    obtain ⟨s', hrun, h'⟩ := ih h1 (by omega)
    refine ⟨s', ?_, ?_⟩
    · simp only [replicate_succ, runMachine, hok, hrun]
    · have hsum : primeIndex + growthFactor + n * growthFactor = primeIndex + (n + 1) * growthFactor := by omega
      rw [← hsum]
      exact h'

/-- The keys of a run that makes the table too large; they have the same hash. -/
def collidingKey : Fin 4 → CString
  | 0 => ⟨[97, 97, 98, 98, 97, 97, 97, 97, 97], by decide⟩
  | 1 => ⟨[97, 97, 99, 67, 97, 97, 97, 97, 97], by decide⟩
  | 2 => ⟨[98, 66, 98, 98, 97, 97, 97, 97, 97], by decide⟩
  | 3 => ⟨[98, 66, 99, 67, 97, 97, 97, 97, 97], by decide⟩

lemma collidingKey_hash (i : Fin 4) : bernsteinHash (collidingKey i) = 140347695217921 := by
  revert i
  decide

/-- Three items are inserted. -/
def collidingInserts : List (ZhashOp CString ℕ) :=
  [.insert (collidingKey 0) 0, .insert (collidingKey 1) 1, .insert (collidingKey 2) 2]

/-- The map of these items. -/
def collidingMap : Finmap fun _ : CString => ℕ :=
  ((Finmap.insert (collidingKey 0) 0 ∅).insert (collidingKey 1) 1).insert (collidingKey 2) 2

lemma colliding_inserts : ∃ s, runMachine (Zhash.step zhashPrimes bernsteinHash) (Zhash.new CString ℕ)
      collidingInserts = .ok ([.status 0, .status 0, .status 0], s) ∧ Colliding s collidingMap (collidingKey 3) 5 := by
  obtain ⟨s, hrun, chains, hshape⟩ := run_narrow collidingInserts (by decide +kernel)
  have hwhere : okAnd (runMachine (Zhash.step zhashPrimes bernsteinHash) (Zhash.new CString ℕ) collidingInserts)
      fun r => r.2.chainLimit = 2 ∧ r.2.primeIndex = 5 := by decide +kernel
  rw [hrun] at hwhere
  have hbegin : narrowPrimes <+: allocatablePrimes := by decide +kernel
  have hmem : ∀ key ∈ collidingMap, ∃ i, key = collidingKey i := fun key hkey => by
    simp only [collidingMap, mem_insert] at hkey
    rcases hkey with hkey | hkey | hkey | hkey
    · exact ⟨2, hkey⟩
    · exact ⟨1, hkey⟩
    · exact ⟨0, hkey⟩
    · exact absurd hkey notMem_empty
  refine ⟨s, hrun, ⟨chains, hshape.of_begin hbegin⟩, by decide +kernel, fun key hkey => ?_, ?_, hwhere.1, hwhere.2⟩
  · obtain ⟨i, rfl⟩ := hmem key hkey
    rw [collidingKey_hash, collidingKey_hash]
  · simp only [collidingMap, mem_insert, not_or]
    exact ⟨by decide, by decide, by decide, notMem_empty⟩

/-- After the fourth key has been looked up 28 times the table has 8589934581 chains, and the index of an item is
not that of its chain. -/
theorem zhash_index_truncated : ∃ replies s, runMachine (Zhash.step zhashPrimes bernsteinHash)
      (Zhash.new CString ℕ) (collidingInserts ++ replicate 28 (.lookup (collidingKey 3))) = .ok (replies, s) ∧
    ∃ p x, s.heap p = some x ∧ x.index.toNat ≠ s.bucket zhashPrimes bernsteinHash x.key := by
  obtain ⟨s, hinserts, hcolliding⟩ := colliding_inserts
  obtain ⟨s', hlookups, ⟨chains, hshape⟩, -, -, -, -, hindex⟩ := hcolliding.lookups 28 (by decide +kernel)
  refine ⟨_, s', runMachine_append hinserts hlookups, ?_⟩
  obtain ⟨p, hp⟩ := (hshape.holds.content (collidingKey 0) 0).mp (by decide +kernel)
  obtain ⟨x, hx, hkey, -⟩ := entryAt_some hp
  obtain ⟨y, hy, -, htruncated⟩ := hshape.placed _ p (hshape.stored p x hx nofun)
  obtain rfl := Option.some.inj (hx.symm.trans hy)
  have hlimit : s'.limit allocatablePrimes = 8589934581 := by
    rw [limit, hindex]
    decide +kernel
  have hbucket : s'.bucket allocatablePrimes bernsteinHash x.key = 5344033543 := by
    rw [bucket, hlimit, hkey, collidingKey_hash]
    rfl
  have hsame : s'.bucket zhashPrimes bernsteinHash x.key = 5344033543 := by
    rw [← hbucket, bucket, bucket, limit_of_begin allocatablePrimes_begin hshape.prime]
  refine ⟨p, x, hx, ?_⟩
  rw [htruncated, hbucket, hsame]
  decide

end Runs

end Zhash

end Czmq
