import ZeroMQ.Czmq.ZhashRun

/-!
# How far a hash table grows

A table grows by five places in the list of primes at a time. At the places it gets to in this way the sizes go up
to the last one for which an array can be allocated, and the next one is still in the list: there the number of bytes
for the array does not fit into a `size_t`, and the allocation fails. So no call reads beyond the list, whatever
`s_zhash_rehash` asserts of the index.

A search passes no more items than there are in the table, so a table with few items does not grow by searches, and
one that does grow does so until the array cannot be allocated.
-/

namespace Czmq

open Foundation Nat List

variable {κ β : Type} [DecidableEq κ]

namespace Zhash

/-! ### The places in the list -/

/-- The places a table gets to. -/
def Placed (i : ℕ) : Prop := growthFactor ∣ i ∧ i < allocatablePrimes.length

lemma allocatablePrimes_length : allocatablePrimes.length = 290 := by decide +kernel

lemma Placed.next {i : ℕ} (h : Placed i) : Placed (i + growthFactor) ∨ i + growthFactor = 290 := by
  obtain ⟨hfactor, hlt⟩ := h
  by_cases hnext : i + growthFactor < allocatablePrimes.length
  · exact .inl ⟨(Nat.dvd_add_right hfactor).mpr (Nat.dvd_refl _), hnext⟩
  right
  rw [allocatablePrimes_length] at hlt hnext
  obtain ⟨k, hk⟩ := hfactor
  rw [growthFactor] at hk hnext ⊢
  omega

omit [DecidableEq κ] in
lemma rehash_behind (hasher : κ → UInt64) (s : Zhash κ β) : s.rehash zhashPrimes hasher 290 = .error .overflow := by
  have hsize : zhashPrimes[290]? = some 4611686018427387895 := by decide +kernel
  rw [rehash, hsize]
  exact if_pos (by decide)

omit [DecidableEq κ] in
lemma moveChain_inner (hasher : κ → UInt64) (newLimit fuel : ℕ) (item : Option ℕ) (items : ℕ → Option ℕ)
    (heap : ℕ → Option (Item κ β)) :
    Yields (moveChain hasher newLimit fuel item items heap) (fun _ => True) (· ≠ .exhausted) := by
  induction fuel generalizing item items heap with
  | zero =>
    cases item with
    | none => trivial
    | some p => exact fun he => by cases he
  | succ fuel ih =>
    cases item with
    | none => trivial
    | some p =>
      rw [moveChain]
      cases heap p with
      | none => exact fun he => by cases he
      | some x => exact ih _ _ _

omit [DecidableEq κ] in
lemma moveChains_inner (hasher : κ → UInt64) (s : Zhash κ β) (newLimit n index : ℕ) (items : ℕ → Option ℕ)
    (heap : ℕ → Option (Item κ β)) :
    Yields (s.moveChains hasher newLimit n index items heap) (fun _ => True) (· ≠ .exhausted) := by
  induction n generalizing index items heap with
  | zero => trivial
  | succ n ih => exact (moveChain_inner _ _ _ _ _ _).bind fun r _ => ih (index + 1) r.1 r.2

omit [DecidableEq κ] in
lemma grows_placed (hasher : κ → UInt64) (β : Type) : Grows zhashPrimes hasher β Placed (· ≠ .exhausted) where
  grown s hs := by
    rcases hs.next with hnext | hlast
    · rw [rehash]
      have hlt : s.primeIndex + growthFactor < zhashPrimes.length :=
        hnext.2.trans_le allocatablePrimes_begin.length_le
      rw [getElem?_eq_getElem hlt]
      dsimp only
      split
      · exact fun he => by cases he
      · exact (moveChains_inner hasher s _ _ _ _ _).bind fun _ _ => hnext
    · rw [hlast, rehash_behind]
      exact fun he => by cases he
  start := ⟨Nat.dvd_zero _, by rw [allocatablePrimes_length]; decide⟩
  inner _ he := he

/-- The sizes for which an array can be allocated, where they are exhausted, or the list of the source, where the
allocation fails. -/
def Capped {α : Type} (r r' : Except CzmqFault α) : Prop := (r = .error .exhausted ∧ r' = .error .overflow) ∨ r' = r

lemma Capped.bind {α γ : Type} {r r' : Except CzmqFault α} {f f' : α → Except CzmqFault γ} (h : Capped r r')
    (hf : ∀ a, r = .ok a → Capped (f a) (f' a)) : Capped (r >>= f) (r' >>= f') := by
  obtain ⟨rfl, rfl⟩ | rfl := h
  · exact .inl ⟨rfl, rfl⟩
  · cases hr : r' with
    | error e => exact .inr rfl
    | ok a => exact hf a hr

lemma Capped.yields {α : Type} {r r' : Except CzmqFault α} (h : Capped r r') {Q : α → Prop} {E : CzmqFault → Prop}
    (hr : Yields r Q E) : Yields r' Q fun e => e = .overflow ∨ E e := by
  obtain ⟨-, rfl⟩ | rfl := h
  · exact .inl rfl
  · exact hr.mono_error fun _ => .inr

omit [DecidableEq κ] in
lemma related_capped (hasher : κ → UInt64) (β : Type) :
    Related (fun _ => Capped) allocatablePrimes zhashPrimes hasher β Placed where
  refl _ := .inr rfl
  bind := .bind
  limit i hi := by
    obtain ⟨rest, hrest⟩ := allocatablePrimes_begin
    rw [← hrest]
    exact getD_append _ _ _ _ hi.2
  grow s hs := by
    rcases hs.next with hnext | hlast
    · right
      obtain ⟨rest, hrest⟩ := allocatablePrimes_begin
      rw [rehash, rehash, limit_of_begin allocatablePrimes_begin hs.2, ← hrest, getElem?_append_left hnext.2]
    · left
      rw [hlast, rehash_behind, rehash, getElem?_eq_none (by rw [allocatablePrimes_length])]
      exact ⟨rfl, rfl⟩
  grows := by
    refine ⟨fun s hs => ?_, (grows_placed hasher β).start, fun _ _ => trivial⟩
    rcases hs.next with hnext | hlast
    · exact Yields.mono_error (E := fun _ => True) (by
        rw [rehash, getElem?_eq_getElem hnext.2]
        dsimp only
        split
        · trivial
        · exact Yields.bind (Q := fun _ => True) (yields_true _) fun _ _ => hnext) fun _ _ => trivial
    · rw [hlast, rehash, getElem?_eq_none (by rw [allocatablePrimes_length])]
      trivial

variable {hasher : κ → UInt64} {s s' : Zhash κ β} {m : Finmap fun _ : κ => β}

/-- A table that has got to where it is by calls: it has the right shape for its entries. -/
structure Grown (hasher : κ → UInt64) (s : Zhash κ β) (m : Finmap fun _ : κ => β) : Prop where
  stores : Stores allocatablePrimes hasher s m
  placed : Placed s.primeIndex

omit [DecidableEq κ] in
lemma narrow_of_limit (hs : s.primeIndex < allocatablePrimes.length) (hlimit : s.limit allocatablePrimes < 2 ^ 32) :
    s.primeIndex < narrowPrimes.length := by
  have hall : ∀ i : Fin 290, allocatablePrimes.getD i 0 < 2 ^ 32 → (i : ℕ) < narrowPrimes.length := by
    decide +kernel
  rw [allocatablePrimes_length] at hs
  exact hall ⟨s.primeIndex, hs⟩ hlimit

lemma purge_wide (h : Stores allocatablePrimes hasher s m) :
    Yields (s.purge allocatablePrimes) (fun s' => Stores allocatablePrimes hasher s' ∅) (· = .endless) := by
  obtain ⟨chains, h⟩ := h
  have hbegin : narrowPrimes <+: allocatablePrimes := by decide +kernel
  by_cases hwide : 2 ^ 32 ≤ s.limit allocatablePrimes
  · simp only [purge, purgeItems, if_pos hwide, bind, Except.bind]
    rfl
  have hprime := narrow_of_limit h.prime (not_le.mp hwide)
  have hlimit : s.limit allocatablePrimes = s.limit narrowPrimes := limit_of_begin hbegin hprime
  obtain ⟨s', chains', hok, hshape⟩ := purge_spec narrowPrimes_narrow (h.of_limit hprime hlimit.symm)
  have hpurge : s.purge allocatablePrimes = s.purge narrowPrimes := by
    rw [purge, purge, purgeItems, purgeItems, hlimit]
  rw [hpurge, hok]
  exact ⟨chains', hshape.of_begin hbegin⟩

lemma Grown.step (h : Grown hasher s m) (op : ZhashOp κ β) :
    Yields (s.step zhashPrimes hasher op) (fun r => r.1 = (spec m op).1 ∧ Grown hasher r.2 (spec m op).2)
      (· ≠ .exhausted) := by
  have hstep : Yields (s.step allocatablePrimes hasher op)
      (fun r => r.1 = (spec m op).1 ∧ Stores allocatablePrimes hasher r.2 (spec m op).2) fun _ => True := by
    by_cases hop : op = .purge
    · subst hop
      exact Yields.map (((purge_wide h.stores).mono fun _ hs => ⟨rfl, hs⟩).mono_error fun _ _ => trivial)
    · exact (step_yields allocatablePrimes_allocatable h.stores hop).mono_error fun _ _ => trivial
  have hcapped := Capped.yields ((related_capped hasher β).step h.placed op) hstep
  have hplaced := (grows_placed hasher β).step h.placed op
  cases hr : s.step zhashPrimes hasher op with
  | error e =>
    rw [hr] at hplaced
    exact hplaced
  | ok r =>
    rw [hr] at hcapped hplaced
    exact ⟨hcapped.1, hcapped.2, hplaced⟩

/-! ### Searching -/

omit [DecidableEq κ] in
lemma rehash_fields (primes : List ℕ) (newPrimeIndex : ℕ) :
    Ensures (s.rehash primes hasher newPrimeIndex) fun s' =>
      s'.primeIndex = newPrimeIndex ∧ s'.chainLimit = s.chainLimit := by
  rw [rehash]
  cases primes[newPrimeIndex]? with
  | none => exact .error _
  | some newLimit =>
    dsimp only
    split
    · exact .error _
    · exact Ensures.bind (Q := fun _ => True) (fun _ _ => trivial) fun _ _ => .ok ⟨rfl, rfl⟩

/-- A search makes the table grow once or not at all, and only if there are more items than the limit on chains. -/
structure Searched (s s' : Zhash κ β) : Prop where
  kept : Kept s s'
  limit : s'.chainLimit = s.chainLimit
  index : s'.primeIndex = s.primeIndex ∨ (s'.primeIndex = s.primeIndex + growthFactor ∧ s.chainLimit < s.size)

lemma itemLookup_index (primes : List ℕ) (key : κ) :
    Ensures (s.itemLookup primes hasher key) fun r => r.2.chainLimit = s.chainLimit ∧
      (r.2.primeIndex = s.primeIndex ∨ (r.2.primeIndex = s.primeIndex + growthFactor ∧ s.chainLimit < s.size)) := by
  simp only [itemLookup]
  refine (walk_inner _ key _ _ 0).ensures.bind fun r hr => ?_
  have hlen : r.2 ≤ s.size := (zero_add s.size) ▸ hr
  split
  · rename_i hlong
    refine (rehash_fields primes _).bind fun s1 hs1 => .ok ⟨hs1.2, .inr ⟨hs1.1, ?_⟩⟩
    exact lt_of_lt_of_le hlong hlen
  · exact .ok ⟨rfl, .inl rfl⟩

lemma Grown.lookup (h : Grown hasher s m) (key : κ) :
    Yields (s.lookup zhashPrimes hasher key)
      (fun r => r.1 = m.lookup key ∧ Searched s r.2 ∧ Grown hasher r.2 m) (· = .overflow) := by
  obtain ⟨chains, hshape⟩ := h.stores
  have hlookup := lookup_spec allocatablePrimes_allocatable hshape key
  have hcapped := Capped.yields ((related_capped hasher β).lookup h.placed key) hlookup
  have hplaced := (grows_placed hasher β).lookup h.placed key
  have hindex : Ensures (s.lookup zhashPrimes hasher key) fun r => r.2.chainLimit = s.chainLimit ∧
      (r.2.primeIndex = s.primeIndex ∨ (r.2.primeIndex = s.primeIndex + growthFactor ∧ s.chainLimit < s.size)) := by
    refine (itemLookup_index zhashPrimes key).bind fun ⟨item, s1⟩ hs1 => ?_
    cases item with
    | none => exact .ok hs1
    | some p => exact Ensures.bind (Q := fun _ => True) (fun _ _ => trivial) fun _ _ => .ok hs1
  cases hr : s.lookup zhashPrimes hasher key with
  | error e =>
    rw [hr] at hcapped hplaced
    exact hcapped.resolve_right hplaced
  | ok r =>
    rw [hr] at hcapped hplaced hindex
    obtain ⟨hvalue, hkept, hstores⟩ := hcapped
    obtain ⟨hlimit, hprime⟩ := hindex r rfl
    exact ⟨hvalue, ⟨hkept, hlimit, hprime⟩, hstores, hplaced⟩

/-- How many searches of a sequence make the table grow. -/
def enlargements (primes : List ℕ) (hasher : κ → UInt64) : Zhash κ β → List κ → ℕ
  | _, [] => 0
  | s, key :: keys =>
    match s.lookup primes hasher key with
    | .ok (_, s') => (if s.primeIndex < s'.primeIndex then 1 else 0) + enlargements primes hasher s' keys
    | .error _ => 0

/-- How many searches make a table grow at most: none if it has no more items than the limit on chains, and else as
many as there are places left in the list of primes for which an array can be allocated. -/
def enlargementBound (s : Zhash κ β) : ℕ :=
  if s.size ≤ s.chainLimit then 0 else (allocatablePrimes.length - 1 - s.primeIndex) / growthFactor

omit [DecidableEq κ] in
lemma Searched.bound (h : Searched s s') (hplaced : Placed s'.primeIndex) :
    (if s.primeIndex < s'.primeIndex then 1 else 0) + enlargementBound s' ≤ enlargementBound s := by
  obtain ⟨hkept, hlimit, hindex⟩ := h
  rw [enlargementBound, enlargementBound, hkept.size, hlimit]
  have hlt := hplaced.2
  rcases hindex with hsame | ⟨hnext, hlong⟩
  · rw [hsame, if_neg (lt_irrefl _), zero_add]
  rw [hnext] at hlt
  rw [if_neg (not_le.mpr hlong), if_neg (not_le.mpr hlong), hnext, growthFactor] at *
  rw [if_pos (by omega)]
  omega

lemma Grown.lookups (h : Grown hasher s m) (keys : List κ) :
    enlargements zhashPrimes hasher s keys ≤ enlargementBound s ∧
      Yields (runMachine (Zhash.step zhashPrimes hasher) s (keys.map .lookup))
        (fun r => r.1 = keys.map (fun key => .value (m.lookup key)) ∧ Kept s r.2 ∧
          r.2.primeIndex = s.primeIndex + growthFactor * enlargements zhashPrimes hasher s keys ∧
          Placed r.2.primeIndex) (· = .overflow) := by
  induction keys generalizing s with
  | nil => exact ⟨Nat.zero_le _, rfl, ⟨fun _ => rfl, rfl⟩, rfl, h.placed⟩
  | cons key keys ih =>
    have hlookup := h.lookup key
    rw [map_cons, enlargements, runMachine, Zhash.step]
    cases hr : s.lookup zhashPrimes hasher key with
    | error e =>
      rw [hr] at hlookup
      exact ⟨Nat.zero_le _, hlookup⟩
    | ok r =>
      obtain ⟨value, s1⟩ := r
      rw [hr] at hlookup
      obtain ⟨hvalue, hsearched, hgrown⟩ := hlookup
      obtain ⟨hbound, hrun⟩ := ih hgrown
      refine ⟨(Nat.add_le_add_left hbound _).trans (hsearched.bound hgrown.placed), ?_⟩
      have hindex : s1.primeIndex =
          s.primeIndex + growthFactor * (if s.primeIndex < s1.primeIndex then 1 else 0) := by
        rcases hsearched.index with hsame | ⟨hnext, -⟩
        · rw [hsame, if_neg (lt_irrefl _)]
          rfl
        · rw [if_pos (by rw [hnext, growthFactor]; omega), hnext, Nat.mul_one]
      simp only [Except.map]
      cases hrest : runMachine (Zhash.step zhashPrimes hasher) s1 (keys.map .lookup) with
      | error e =>
        rw [hrest] at hrun
        exact hrun
      | ok r' =>
        rw [hrest] at hrun
        obtain ⟨hvalues, hkept, hprime, hplaced⟩ := hrun
        refine ⟨?_, hsearched.kept.trans hkept, ?_, hplaced⟩
        · rw [map_cons, ← hvalues, ← hvalue]
        · rw [hprime, Nat.mul_add, ← Nat.add_assoc, ← hindex]

variable (κ β) in
lemma grown_new (hasher : κ → UInt64) : Grown hasher (Zhash.new κ β) ∅ :=
  ⟨stores_new (by decide), (grows_placed hasher β).start⟩

/-- **The growth of a table.** No sequence of calls reads beyond the list of primes, and the place of the table is
always one in the list. Of the searches in a table that has been reached, a bounded number makes it grow, which
depends on the number of items; they change no entry, and fail only if an array cannot be allocated. -/
theorem zhash_growth_bounded (hasher : κ → UInt64) (ops : List (ZhashOp κ β)) :
    runMachine (Zhash.step zhashPrimes hasher) (Zhash.new κ β) ops ≠ .error .exhausted ∧
    ∀ replies s, runMachine (Zhash.step zhashPrimes hasher) (Zhash.new κ β) ops = .ok (replies, s) →
      s.primeIndex < zhashPrimes.length ∧
      ∀ keys, enlargements zhashPrimes hasher s keys ≤ enlargementBound s ∧
        Yields (runMachine (Zhash.step zhashPrimes hasher) s (keys.map .lookup))
          (fun r => r.2.entryAt = s.entryAt ∧ r.2.primeIndex < zhashPrimes.length ∧
            r.2.primeIndex = s.primeIndex + growthFactor * enlargements zhashPrimes hasher s keys)
          (· = .overflow) := by
  have hrun : Yields (runMachine (Zhash.step zhashPrimes hasher) (Zhash.new κ β) ops)
      (fun r => ∃ m, Grown hasher r.2 m) (· ≠ .exhausted) := by
    refine Yields.runMachine (I := fun s => ∃ m, Grown hasher s m) (fun s op hs => ?_) ⟨∅, grown_new κ β hasher⟩ ops
    obtain ⟨m, hs⟩ := hs
    exact (hs.step op).mono fun r hr => ⟨_, hr.2⟩
  have hlength : ∀ i, Placed i → i < zhashPrimes.length := fun i hi =>
    hi.2.trans_le allocatablePrimes_begin.length_le
  constructor
  · intro hexhausted
    rw [hexhausted] at hrun
    exact hrun rfl
  · intro replies s hs
    rw [hs] at hrun
    obtain ⟨m, hgrown⟩ := hrun
    refine ⟨hlength _ hgrown.placed, fun keys => ?_⟩
    obtain ⟨hbound, hlookups⟩ := hgrown.lookups keys
    refine ⟨hbound, hlookups.mono fun r hr => ?_⟩
    obtain ⟨-, hkept, hprime, hplaced⟩ := hr
    exact ⟨funext hkept.entry, hlength _ hplaced, hprime⟩

end Zhash

end Czmq
