import Mathlib.Data.Finmap
import Mathlib.Data.List.TakeWhile
import ZeroMQ.Foundation.Machine
import ZeroMQ.Czmq.Links

/-!
# The hash table of CZMQ

A table is an array of chains of items; an item has its key, its value, the index of its chain and a pointer to
the next item. When the table is loaded, or when a search passes more items than the limit on chains, the
items are moved to a larger table. The sizes of tables are in a list of primes, which the functions take as a
parameter; `zhashPrimes` is the list of the source. A key is a string of bytes without a zero.

The index of an item is a `qbyte`, of 32 bits, while the array may have more than 2^32 chains.
-/

namespace Czmq

/-! ### Keys -/

/-- A string of C, without the zero at its end. -/
structure CString where
  bytes : List UInt8
  noZero : 0 ∉ bytes
  deriving DecidableEq

lemma zero_notMem_takeWhile (l : List UInt8) : 0 ∉ l.takeWhile (· ≠ 0) := by
  intro h
  simpa using List.mem_takeWhile_imp h

/-- The string in a buffer, up to the first zero. -/
def CString.ofBytes (l : List UInt8) : CString := ⟨l.takeWhile (· ≠ 0), zero_notMem_takeWhile l⟩

/-- A `char` as it takes part in an expression with a `size_t`: it is signed. -/
def charValue (c : UInt8) : UInt64 := if c < 128 then c.toUInt64 else c.toUInt64 - 256

/-- `s_bernstein_hash`. -/
def bernsteinHash (key : CString) : UInt64 := key.bytes.foldl (fun keyHash c => (33 * keyHash) ^^^ charValue c) 0

/-! ### Parameters -/

def initialPrime : ℕ := 0
def growthFactor : ℕ := 5
def loadFactor : ℕ := 75
def initialChain : ℕ := 1
def chainGrows : ℕ := 1

/-- `primes`. -/
def zhashPrimes : List ℕ :=
  [3, 5, 7, 11, 13, 17, 19, 23, 29, 31, 43, 47, 53, 59, 61, 103, 107, 109, 113, 127, 229, 233, 239, 241, 251,
    487, 491, 499, 503, 509, 997, 1009, 1013, 1019, 1021, 2011, 2017, 2027, 2029, 2039, 4057, 4073, 4079, 4091,
    4093, 8161, 8167, 8171, 8179, 8191, 16349, 16361, 16363, 16369, 16381, 32707, 32713, 32717, 32719, 32749,
    65449, 65479, 65497, 65519, 65521, 131023, 131041, 131059, 131063, 131071, 262111, 262121, 262127, 262133,
    262139, 524243, 524257, 524261, 524269, 524287, 1048517, 1048549, 1048559, 1048571, 1048573, 2097091,
    2097097, 2097131, 2097133, 2097143, 4194247, 4194271, 4194277, 4194287, 4194301, 8388547, 8388571, 8388581,
    8388587, 8388593, 16777141, 16777153, 16777183, 16777199, 16777213, 33554341, 33554347, 33554371, 33554383,
    33554393, 67108763, 67108777, 67108819, 67108837, 67108859, 134217593, 134217613, 134217617, 134217649,
    134217689, 268435331, 268435337, 268435361, 268435367, 268435399, 536870839, 536870849, 536870869,
    536870879, 536870909, 1073741719, 1073741723, 1073741741, 1073741783, 1073741789, 2147483563, 2147483579,
    2147483587, 2147483629, 2147483647, 4294967197, 4294967231, 4294967279, 4294967291, 4294967295, 8589934581,
    8589934585, 8589934587, 8589934589, 8589934591, 17179869175, 17179869177, 17179869179, 17179869181,
    17179869183, 34359738359, 34359738361, 34359738363, 34359738365, 34359738367, 68719476725, 68719476727,
    68719476729, 68719476733, 68719476735, 137438953463, 137438953465, 137438953467, 137438953469,
    137438953471, 274877906935, 274877906937, 274877906939, 274877906941, 274877906943, 549755813877,
    549755813879, 549755813883, 549755813885, 549755813887, 1099511627767, 1099511627769, 1099511627771,
    1099511627773, 1099511627775, 2199023255543, 2199023255545, 2199023255547, 2199023255549, 2199023255551,
    4398046511095, 4398046511097, 4398046511099, 4398046511101, 4398046511103, 8796093022199, 8796093022201,
    8796093022203, 8796093022205, 8796093022207, 17592186044407, 17592186044409, 17592186044411,
    17592186044413, 17592186044415, 35184372088823, 35184372088825, 35184372088827, 35184372088829,
    35184372088831, 70368744177655, 70368744177657, 70368744177659, 70368744177661, 70368744177663,
    140737488355319, 140737488355321, 140737488355323, 140737488355325, 140737488355327, 281474976710647,
    281474976710649, 281474976710651, 281474976710653, 281474976710655, 562949953421303, 562949953421305,
    562949953421307, 562949953421309, 562949953421311, 1125899906842615, 1125899906842617, 1125899906842619,
    1125899906842621, 1125899906842623, 2251799813685239, 2251799813685241, 2251799813685243, 2251799813685245,
    2251799813685247, 4503599627370487, 4503599627370489, 4503599627370491, 4503599627370493, 4503599627370495,
    9007199254740983, 9007199254740985, 9007199254740987, 9007199254740989, 9007199254740991,
    18014398509481975, 18014398509481977, 18014398509481979, 18014398509481981, 18014398509481983,
    36028797018963959, 36028797018963961, 36028797018963963, 36028797018963965, 36028797018963967,
    72057594037927925, 72057594037927927, 72057594037927929, 72057594037927933, 72057594037927935,
    144115188075855863, 144115188075855865, 144115188075855867, 144115188075855869, 144115188075855871,
    288230376151711735, 288230376151711737, 288230376151711739, 288230376151711741, 288230376151711743,
    576460752303423479, 576460752303423481, 576460752303423483, 576460752303423485, 576460752303423487,
    1152921504606846967, 1152921504606846969, 1152921504606846971, 1152921504606846973, 1152921504606846975,
    2305843009213693941, 2305843009213693943, 2305843009213693945, 2305843009213693947, 2305843009213693949,
    4611686018427387895, 4611686018427387897, 4611686018427387899, 4611686018427387901, 4611686018427387903,
    9223372036854775799, 9223372036854775801, 9223372036854775803, 9223372036854775805, 9223372036854775807]

/-! ### State -/

/-- `item_t`. -/
structure Item (κ β : Type) where
  value : β
  next : Option ℕ
  index : UInt32
  key : κ

/-- What goes wrong. -/
inductive CzmqFault
  /-- The table grows beyond the list of primes. -/
  | exhausted
  /-- The number of bytes for the array does not fit in a `size_t`. -/
  | overflow
  /-- An assertion fails. -/
  | assertion
  /-- A pointer that leads to no item is followed. -/
  | dangling
  /-- A loop does not end. -/
  | endless
  deriving DecidableEq, Repr

/-- `zhash_t`. -/
structure Zhash (κ β : Type) where
  size : ℕ
  primeIndex : ℕ
  chainLimit : ℕ
  items : ℕ → Option ℕ
  cachedIndex : ℕ
  cursorIndex : ℕ
  cursorItem : Option ℕ
  cursorKey : Option κ
  /-- The items on the heap. -/
  heap : ℕ → Option (Item κ β)
  /-- The pointer the next item gets. -/
  fresh : ℕ

/-- `zhash_new`. -/
def Zhash.new (κ β : Type) : Zhash κ β :=
  ⟨0, initialPrime, initialChain, fun _ => none, 0, 0, none, none, fun _ => none, 0⟩

namespace Zhash

variable {κ β : Type} [DecidableEq κ] (primes : List ℕ) (hasher : κ → UInt64)

/-- `primes [self->prime_index]`. -/
def limit (s : Zhash κ β) : ℕ := primes.getD s.primeIndex 0

/-- An item through a pointer. -/
def deref (s : Zhash κ β) (p : ℕ) : Except CzmqFault (Item κ β) :=
  match s.heap p with
  | some item => .ok item
  | none => .error .dangling

/-- The inner loop of `s_zhash_rehash`: the items of a chain are moved to the front of their new chains. -/
def moveChain (newLimit : ℕ) : ℕ → Option ℕ → (ℕ → Option ℕ) → (ℕ → Option (Item κ β)) →
    Except CzmqFault ((ℕ → Option ℕ) × (ℕ → Option (Item κ β)))
  | _, none, items, heap => .ok (items, heap)
  | 0, some _, _, _ => .error .endless
  | fuel + 1, some p, items, heap =>
    match heap p with
    | none => .error .dangling
    | some item =>
      let newIndex := (hasher item.key).toNat % newLimit
      moveChain newLimit fuel item.next (Function.update items newIndex (some p))
        (Function.update heap p (some { item with index := UInt32.ofNat newIndex, next := items newIndex }))

/-- The loop over the chains of the old array from an index on. -/
def moveChains (s : Zhash κ β) (newLimit : ℕ) : ℕ → ℕ → (ℕ → Option ℕ) → (ℕ → Option (Item κ β)) →
    Except CzmqFault ((ℕ → Option ℕ) × (ℕ → Option (Item κ β)))
  | 0, _, items, heap => .ok (items, heap)
  | n + 1, index, items, heap => do
    let (items, heap) ← moveChain hasher newLimit s.size (s.items index) items heap
    s.moveChains newLimit n (index + 1) items heap

/-- `s_zhash_rehash`. -/
def rehash (s : Zhash κ β) (newPrimeIndex : ℕ) : Except CzmqFault (Zhash κ β) :=
  match primes[newPrimeIndex]? with
  | none => .error .exhausted
  | some newLimit =>
    if 2 ^ 64 ≤ 8 * newLimit then .error .overflow
    else do
      let (items, heap) ← s.moveChains hasher newLimit (s.limit primes) 0 (fun _ => none) s.heap
      .ok { s with items, heap, primeIndex := newPrimeIndex }

/-! ### Items -/

/-- The loop of `s_item_lookup`: the item that has been found, and how many have been passed. -/
def walk (heap : ℕ → Option (Item κ β)) (key : κ) : ℕ → Option ℕ → ℕ → Except CzmqFault (Option ℕ × ℕ)
  | _, none, len => .ok (none, len)
  | 0, some _, _ => .error .endless
  | fuel + 1, some p, len =>
    match heap p with
    | none => .error .dangling
    | some item => if item.key = key then .ok (some p, len) else walk heap key fuel item.next (len + 1)

/-- `self->cached_index = self->hasher (key) % limit`. -/
def cache (s : Zhash κ β) (key : κ) : Zhash κ β := { s with cachedIndex := (hasher key).toNat % s.limit primes }

/-- `s_item_lookup`. -/
def itemLookup (s : Zhash κ β) (key : κ) : Except CzmqFault (Option ℕ × Zhash κ β) := do
  let s := s.cache primes hasher key
  let (item, len) ← walk s.heap key s.size (s.items s.cachedIndex) 0
  if len > s.chainLimit then do
    let s ← s.rehash primes hasher (s.primeIndex + growthFactor)
    .ok (item, s.cache primes hasher key)
  else .ok (item, s)

/-- A new item is put in front of the chain with the cached index. -/
def addItem (s : Zhash κ β) (key : κ) (value : β) : Zhash κ β :=
  { s with
    heap := Function.update s.heap s.fresh (some ⟨value, s.items s.cachedIndex, UInt32.ofNat s.cachedIndex, key⟩)
    items := Function.update s.items s.cachedIndex (some s.fresh)
    fresh := s.fresh + 1
    size := s.size + 1
    cursorItem := some s.fresh
    cursorKey := some key }

/-- `s_item_insert`, with whether an item has been inserted. -/
def itemInsert (s : Zhash κ β) (key : κ) (value : β) : Except CzmqFault (Bool × Zhash κ β) := do
  let (item, s) ← s.itemLookup primes hasher key
  match item with
  | none => .ok (true, s.addItem key value)
  | some _ => .ok (false, s)

/-- The loop of `s_item_destroy`: the item before an item, with nothing for the start of the chain. -/
def findPrev (heap : ℕ → Option (Item κ β)) (item : ℕ) : ℕ → Option ℕ → Option ℕ → Except CzmqFault (Option ℕ)
  | _, _, none => .error .assertion
  | 0, _, some _ => .error .endless
  | fuel + 1, prev, some cur =>
    if cur = item then .ok prev
    else
      match heap cur with
      | none => .error .dangling
      | some x => findPrev heap item fuel (some cur) x.next

/-- `s_item_destroy` of an item that is kept: it is taken out of its chain. -/
def unlink (s : Zhash κ β) (p : ℕ) : Except CzmqFault (Zhash κ β) := do
  let item ← s.deref p
  let prev ← findPrev s.heap p s.size none (s.items item.index.toNat)
  match prev with
  | none => .ok { s with items := Function.update s.items item.index.toNat item.next, size := s.size - 1 }
  | some q => do
    let x ← s.deref q
    .ok { s with heap := Function.update s.heap q (some { x with next := item.next }), size := s.size - 1 }

/-- `s_item_destroy`. -/
def itemDestroy (s : Zhash κ β) (p : ℕ) : Except CzmqFault (Zhash κ β) := do
  let s ← s.unlink p
  .ok { s with cursorItem := none, cursorKey := none, heap := Function.update s.heap p none }

/-! ### Operations -/

/-- `zhash_insert`: if the table is loaded it grows first. -/
def growLoaded (s : Zhash κ β) : Except CzmqFault (Zhash κ β) :=
  if s.size ≥ s.limit primes * loadFactor % 2 ^ 64 / 100 then do
    let s ← s.rehash primes hasher (s.primeIndex + growthFactor)
    .ok { s with chainLimit := s.chainLimit + chainGrows }
  else .ok s

/-- `zhash_insert`, with what is returned. -/
def insert (s : Zhash κ β) (key : κ) (value : β) : Except CzmqFault (ℤ × Zhash κ β) := do
  let s ← s.growLoaded primes hasher
  let (inserted, s) ← s.itemInsert primes hasher key value
  .ok (if inserted then 0 else -1, s)

/-- `zhash_update`. -/
def update (s : Zhash κ β) (key : κ) (value : β) : Except CzmqFault (Zhash κ β) := do
  let (item, s) ← s.itemLookup primes hasher key
  match item with
  | some p => do
    let x ← s.deref p
    .ok { s with heap := Function.update s.heap p (some { x with value }) }
  | none => do
    let (_, s) ← s.insert primes hasher key value
    .ok s

/-- `zhash_delete`. -/
def delete (s : Zhash κ β) (key : κ) : Except CzmqFault (Zhash κ β) := do
  let (item, s) ← s.itemLookup primes hasher key
  match item with
  | some p => s.itemDestroy p
  | none => .ok s

/-- The inner loop of `s_purge`: the items of a chain are destroyed. -/
def purgeChain : ℕ → Option ℕ → Zhash κ β → Except CzmqFault (Zhash κ β)
  | _, none, s => .ok s
  | 0, some _, _ => .error .endless
  | fuel + 1, some p, s => do
    let item ← s.deref p
    let s ← s.itemDestroy p
    purgeChain fuel item.next s

/-- The loop of `s_purge` over the chains from an index on. -/
def purgeChains : ℕ → ℕ → Zhash κ β → Except CzmqFault (Zhash κ β)
  | 0, _, s => .ok s
  | n + 1, index, s => do
    let s ← purgeChain s.size (s.items index) s
    purgeChains n (index + 1) { s with items := Function.update s.items index none }

/-- `s_purge`; its index is an `uint`, which never gets to a limit that is larger. -/
def purgeItems (s : Zhash κ β) : Except CzmqFault (Zhash κ β) :=
  if 2 ^ 32 ≤ s.limit primes then .error .endless
  else purgeChains (s.limit primes) 0 s

/-- `zhash_purge`. -/
def purge (s : Zhash κ β) : Except CzmqFault (Zhash κ β) := do
  let s ← s.purgeItems primes
  if s.primeIndex > initialPrime then
    .ok { s with primeIndex := initialPrime, chainLimit := initialChain, items := fun _ => none }
  else .ok s

/-- `zhash_lookup`. -/
def lookup (s : Zhash κ β) (key : κ) : Except CzmqFault (Option β × Zhash κ β) := do
  let (item, s) ← s.itemLookup primes hasher key
  match item with
  | some p => do
    let x ← s.deref p
    .ok (some x.value, { s with cursorItem := some p, cursorKey := some x.key })
  | none => .ok (none, s)

/-- An item that has been taken out of its chain gets a new key and is put in front of the chain with the cached
index. -/
def rekey (s : Zhash κ β) (p : ℕ) (x : Item κ β) (key : κ) : Zhash κ β :=
  { s with
    heap := Function.update s.heap p
      (some { x with key, index := UInt32.ofNat s.cachedIndex, next := s.items s.cachedIndex })
    items := Function.update s.items s.cachedIndex (some p)
    size := s.size + 1
    cursorItem := some p
    cursorKey := some key }

/-- `zhash_rename`. -/
def rename (s : Zhash κ β) (oldKey newKey : κ) : Except CzmqFault (ℤ × Zhash κ β) := do
  let (oldItem, s) ← s.itemLookup primes hasher oldKey
  let (newItem, s) ← s.itemLookup primes hasher newKey
  match oldItem, newItem with
  | some p, none => do
    let s ← s.unlink p
    let x ← s.deref p
    .ok (0, s.rekey p x newKey)
  | _, _ => .ok (-1, s)

/-- The loop of `zhash_next`: the cursor moves forward until there is an item. -/
def skip (s : Zhash κ β) : ℕ → Zhash κ β
  | 0 => s
  | n + 1 =>
    if s.cursorItem = none ∧ s.cursorIndex < s.limit primes - 1 then
      { s with cursorIndex := s.cursorIndex + 1, cursorItem := s.items (s.cursorIndex + 1) }.skip n
    else s

/-- `zhash_next`: every turn of the loop takes the cursor nearer to the end of the array. With the value there
is the key, which is what `zhash_cursor` returns. -/
def next (s : Zhash κ β) : Except CzmqFault (Option (κ × β) × Zhash κ β) :=
  let s := s.skip primes (s.limit primes)
  match s.cursorItem with
  | none => .ok (none, s)
  | some p => do
    let x ← s.deref p
    .ok (some (x.key, x.value), { s with cursorKey := some x.key, cursorItem := x.next })

/-- `zhash_first`. -/
def first (s : Zhash κ β) : Except CzmqFault (Option (κ × β) × Zhash κ β) :=
  { s with cursorIndex := 0, cursorItem := s.items 0 }.next primes

end Zhash

/-- A call of a function of the table. -/
inductive ZhashOp (κ β : Type)
  | insert (key : κ) (value : β)
  | update (key : κ) (value : β)
  | delete (key : κ)
  | lookup (key : κ)
  | rename (oldKey newKey : κ)
  | purge
  | size

/-- What a function returns. -/
inductive ZhashReply (β : Type)
  | done
  | status (code : ℤ)
  | value (value : Option β)
  | size (n : ℕ)
  deriving DecidableEq, Repr

/-- One call. -/
def Zhash.step {κ β : Type} [DecidableEq κ] (primes : List ℕ) (hasher : κ → UInt64) (s : Zhash κ β) :
    ZhashOp κ β → Except CzmqFault (ZhashReply β × Zhash κ β)
  | .insert key value => (s.insert primes hasher key value).map fun r => (.status r.1, r.2)
  | .update key value => (s.update primes hasher key value).map fun s => (.done, s)
  | .delete key => (s.delete primes hasher key).map fun s => (.done, s)
  | .lookup key => (s.lookup primes hasher key).map fun r => (.value r.1, r.2)
  | .rename oldKey newKey => (s.rename primes hasher oldKey newKey).map fun r => (.status r.1, r.2)
  | .purge => (s.purge primes).map fun s => (.done, s)
  | .size => .ok (.size s.size, s)

end Czmq
