import ZeroMQ.Czmq.Zhash

/-!
# Patches and subscriptions of the FileMQ server

A patch says that a file was created or deleted. When the server has compared two versions of a published
directory, it adds the patches to the list of every client that has a subscription for the directory. A
subscription has a table of the digests of the files its client is known to have, so that a file the client has
is not sent to it.

The names in the table that do not begin with a slash are renamed when the subscription is made, and the table
is renamed while it is iterated over. Virtual paths and digests are strings of C; what is read behind the end
of a string is a fault.
-/

namespace Filemq

open Czmq

/-! ### Strings -/

/-- The character `/`. -/
def slash : UInt8 := 47

/-- `*string == '/'`. -/
def isAbsolute (string : CString) : Bool := string.bytes.head? = some slash

/-- What `"%s/%s"` prints. -/
def joinPath (path key : CString) : CString where
  bytes := path.bytes ++ slash :: key.bytes
  noZero := by
    rw [List.mem_append, List.mem_cons, not_or, not_or]
    exact ⟨path.noZero, by decide, key.noZero⟩

/-- A string without its first characters. -/
def dropString (n : ℕ) (string : CString) : CString where
  bytes := string.bytes.drop n
  noZero h := string.noZero (List.mem_of_mem_drop h)

/-- `string + n`, to be read as a string: it must not be behind the end of the string. -/
def offsetString (string : CString) (n : ℕ) : Except CzmqFault CString :=
  if n ≤ string.bytes.length then .ok (dropString n string) else .error .dangling

/-- `strncmp (string, start, strlen (start)) == 0`. -/
def startsWith (string start : CString) : Bool := start.bytes.isPrefixOf string.bytes

/-- `zdir_patch_op_t`. -/
inductive PatchOp
  | create
  | delete
  deriving DecidableEq, Repr

/-- `zdir_patch_t`. -/
structure ZdirPatch where
  /-- `path`: the directory. -/
  path : CString
  /-- `file`: the name of the file. -/
  file : CString
  op : PatchOp
  /-- `vpath`: the path of the file as clients see it. -/
  vpath : CString
  digest : Option CString
  /-- Only the file of a create patch has a digest. -/
  digestCreated : op = .delete → digest = none
  deriving DecidableEq

/-- `zdir_patch_digest_set`; `zfileDigest` is the digest of the file, which is nothing if the file cannot be
read. It is then copied all the same. -/
def ZdirPatch.digestSet (patch : ZdirPatch) (zfileDigest : Option CString) : Except CzmqFault ZdirPatch :=
  if hop : patch.op = .create ∧ patch.digest = none then
    match zfileDigest with
    | some digest =>
      .ok { patch with digest := some digest, digestCreated := fun h => by rw [hop.1] at h; cases h }
    | none => .error .dangling
  else .ok patch

/-- `zdir_patch_dup`: a copy without a digest is destroyed. -/
def ZdirPatch.dup (patch : ZdirPatch) : Option ZdirPatch :=
  if patch.digest = none then none else some patch

/-! ### Tables of digests -/

/-- A table of digests. -/
abbrev Cache := Zhash CString CString

section Cache

variable (primes : List ℕ) (hasher : CString → UInt64)

/-- The loop of `zhash_dup` over a chain. -/
def dupChain (cache : Cache) : ℕ → Option ℕ → Cache → Except CzmqFault Cache
  | _, none, copy => .ok copy
  | 0, some _, _ => .error .endless
  | fuel + 1, some p, copy => do
    let item ← cache.deref p
    let (rc, copy) ← copy.insert primes hasher item.key item.value
    if rc = 0 then dupChain cache fuel item.next copy else .error .assertion

/-- The loop of `zhash_dup` over the chains from an index on. -/
def dupChains (cache : Cache) : ℕ → ℕ → Cache → Except CzmqFault Cache
  | 0, _, copy => .ok copy
  | n + 1, index, copy => do
    let copy ← dupChain primes hasher cache cache.size (cache.items index) copy
    dupChains cache n (index + 1) copy

/-- `zhash_dup`. -/
def zhashDup (cache : Cache) : Except CzmqFault Cache :=
  dupChains primes hasher cache (cache.limit primes) 0 (Zhash.new CString CString)

/-- The loop of `sub_new`: `cached` is the item the cursor returned, and `fuel` bounds the number of items. -/
def renameLocal (path : CString) : ℕ → Option (CString × CString) → Cache → Except CzmqFault Cache
  | _, none, cache => .ok cache
  | 0, some _, _ => .error .endless
  | fuel + 1, some (key, _), cache => do
    let cache ←
      if isAbsolute key then .ok cache
      else (cache.rename primes hasher key (joinPath path key)).map Prod.snd
    let (cached, cache) ← cache.next primes
    renameLocal path fuel cached cache

end Cache

/-! ### Subscriptions -/

/-- `sub_t`. -/
structure Sub where
  path : CString
  cache : Cache

/-- `sub_new`. -/
def subNew (fuel : ℕ) (path : CString) (cache : Cache) : Except CzmqFault Sub := do
  let cache ← zhashDup zhashPrimes bernsteinHash cache
  let (cached, cache) ← cache.first zhashPrimes
  let cache ← renameLocal zhashPrimes bernsteinHash path fuel cached cache
  .ok ⟨path, cache⟩

/-- `zhash_lookup (self->cache, zdir_patch_vpath (patch) + strlen (self->path) + 1)`. -/
def Sub.lookup (self : Sub) (vpath : CString) : Except CzmqFault (Option CString × Cache) := do
  let key ← offsetString vpath (self.path.bytes.length + 1)
  self.cache.lookup zhashPrimes bernsteinHash key

/-- The digest of a created file goes into the table as a key, with the path of the file as its value. -/
def Sub.track (self : Sub) (patch : ZdirPatch) : Except CzmqFault Sub :=
  match patch.op, patch.digest with
  | .create, some digest => do
    let (_, cache) ← self.cache.insert zhashPrimes bernsteinHash digest patch.vpath
    .ok { self with cache }
  | .create, none => .error .assertion
  | .delete, _ => .ok self

/-- The loop that removes the previous patch for the same file. -/
def removePrevious (patches : List ZdirPatch) (patch : ZdirPatch) : List ZdirPatch :=
  patches.eraseP fun existing => existing.vpath = patch.vpath

/-- The patch is queued: what was queued for the same file is removed, and if the patch cannot be copied nothing
takes its place. -/
def subQueue (self : Sub) (patches : List ZdirPatch) (patch : ZdirPatch) :
    Except CzmqFault (Sub × List ZdirPatch) := do
  let patches := removePrevious patches patch
  let self ← self.track patch
  match patch.dup with
  | some patchAdd => .ok (self, patches ++ [patchAdd])
  | none => .ok (self, patches)

/-- `sub_patch_add`, with the list of patches of the client. -/
def subPatchAdd (self : Sub) (patches : List ZdirPatch) (patch : ZdirPatch) (zfileDigest : Option CString) :
    Except CzmqFault (Sub × List ZdirPatch) := do
  let patch ← patch.digestSet zfileDigest
  match patch.op with
  | .create => do
    let (digest, cache) ← self.lookup patch.vpath
    let self := { self with cache }
    if digest.isSome ∧ digest = patch.digest then .ok (self, patches)
    else subQueue self patches patch
  | .delete => subQueue self patches patch

end Filemq
