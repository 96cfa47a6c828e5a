import ZeroMQ.Filemq.Patch
import ZeroMQ.Foundation.Changes

/-!
# The queue of patches of a client

A client is subscribed with the digests of the files it has. Its queue should tell it what has become of the
files under its subscription: at most one patch for a file, the latest that is not for a file the client is
known to have, such that the client has the published files when it has applied the queue.

Delete patches have no digest and cannot be copied, so that none is ever queued. What the client is known to
have is looked up under the name of the file behind the subscription's path, while the names in the table have
been completed with that path, and the table gets new digests as keys. Patches are queued whichever path the
client is subscribed to.
-/

namespace Filemq

open Czmq Foundation Function Option Except List

/-! ### What the client is known to have -/

/-- A set of files: paths with digests. -/
abbrev FileSet := CString → Option CString

/-- The files under a path. -/
def FileSet.under (files : FileSet) (path : CString) : FileSet := fun vpath =>
  if startsWith vpath path then files vpath else none

/-- What a table has under a name. -/
def cachedDigest (cache : Cache) (name : CString) : Option CString :=
  match cache.lookup zhashPrimes bernsteinHash name with
  | .ok (digest, _) => digest
  | .error _ => none

/-- The digest that the table of a subscription for `path` gives for a file: the name in the table is the virtual
path of the file or what is behind `path/` in it. -/
def knownDigest (path : CString) (cache : Cache) : FileSet := fun vpath =>
  if isAbsolute vpath then
    match cachedDigest cache vpath with
    | some digest => some digest
    | none =>
      let name := dropString (path.bytes.length + 1) vpath
      if joinPath path name = vpath ∧ ¬isAbsolute name then cachedDigest cache name else none
  else none

/-- The digest that `sub_patch_add` finds in the table. -/
def Sub.found (self : Sub) (vpath : CString) : Option CString :=
  match self.lookup vpath with
  | .ok (digest, _) => digest
  | .error _ => none

/-! ### Runs -/

/-- What a patch does to a set of files. -/
def ZdirPatch.change (patch : ZdirPatch) : Change CString CString where
  key := patch.vpath
  value :=
    match patch.op with
    | .create => patch.digest
    | .delete => none

/-- A client's subscription and queue, with what they are for. -/
structure Feed where
  sub : Sub
  patches : List ZdirPatch
  /-- The files the client has. -/
  files : FileSet
  /-- The files the client is known to have when it has applied its queue. -/
  known : FileSet
  /-- The files that are published. -/
  published : FileSet
  /-- For every path the latest patch that was not for a file the client was known to have, until it is sent. -/
  wanted : CString → Option ZdirPatch

namespace Feed

/-- The client is known to have the file of a create patch. -/
def Has (s : Feed) (patch : ZdirPatch) : Prop := patch.op = .create ∧ s.known patch.vpath = patch.digest

instance (s : Feed) (patch : ZdirPatch) : Decidable (s.Has patch) := inferInstanceAs (Decidable (_ ∧ _))

/-- A patch of a refresh is added. -/
def add (s : Feed) (patch : ZdirPatch) (zfileDigest : Option CString) : Except CzmqFault Feed := do
  let (sub, patches) ← subPatchAdd s.sub s.patches patch zfileDigest
  let patch ← patch.digestSet zfileDigest
  .ok { s with
    sub
    patches
    known := patch.change.apply s.known
    published := patch.change.apply s.published
    wanted := if s.Has patch then s.wanted else update s.wanted patch.vpath (some patch) }

/-- The first patch of the queue is sent, and the client applies it. -/
def send (s : Feed) : Feed :=
  match s.patches with
  | [] => s
  | patch :: patches =>
    { s with
      patches
      files := patch.change.apply s.files
      wanted := update s.wanted patch.vpath none }

end Feed

/-- What happens to a queue. -/
inductive FeedAct
  | add (patch : ZdirPatch) (zfileDigest : Option CString)
  | send

/-- One step. -/
def Feed.step (s : Feed) : FeedAct → Except CzmqFault Feed
  | .add patch zfileDigest => s.add patch zfileDigest
  | .send => .ok s.send

/-! ### What the queue should be -/

/-- The queue is what it should be. -/
structure Feed.Queued (s : Feed) : Prop where
  once : (s.patches.map ZdirPatch.vpath).Nodup
  /-- The patch for a path is the latest that was not for a file the client was known to have. -/
  latest : ∀ patch, patch ∈ s.patches ↔ s.wanted patch.vpath = some patch
  /-- A client that applies the queue has the published files under its subscription. -/
  synced : Change.applyAll s.files (s.patches.map ZdirPatch.change) = s.published.under s.sub.path

/-- A client has subscribed: it has the files of its table, and they are the published ones. -/
structure Feed.Subscribed (s : Feed) : Prop where
  made : ∃ fuel cache, subNew fuel s.sub.path cache = .ok s.sub ∧ s.known = knownDigest s.sub.path cache
  empty : s.patches = []
  nothing : s.wanted = fun _ => none
  files : s.files = s.known
  synced : s.files = s.published.under s.sub.path

/-- The file is created, it is under the subscription, and its digest is found in the table if and only if the
client is known to have the file. -/
def Feed.Meets (s : Feed) : FeedAct → Prop
  | .add patch zfileDigest =>
    patch.op = .create ∧ startsWith patch.vpath s.sub.path ∧
      (s.sub.found patch.vpath = patch.digest.or zfileDigest ↔ s.known patch.vpath = patch.digest.or zfileDigest)
  | .send => True

instance (s : Feed) (a : FeedAct) : Decidable (s.Meets a) := by
  cases a <;> unfold Feed.Meets <;> infer_instance

section Add

variable {sub : Sub} {patches : List ZdirPatch} {patch : ZdirPatch} {zfileDigest : Option CString}

lemma ZdirPatch.digestSet_spec (hop : patch.op = .create) :
    Ensures (patch.digestSet zfileDigest) fun patch' => patch'.op = .create ∧ patch'.vpath = patch.vpath ∧
      patch'.digest = patch.digest.or zfileDigest ∧ patch'.digest ≠ none := by
  rw [digestSet]
  split
  · next h =>
    cases zfileDigest with
    | none => exact .error _
    | some digest => exact .ok ⟨hop, rfl, by rw [h.2, none_or], some_ne_none _⟩
  · next h =>
    have hsome : patch.digest ≠ none := fun hnone => h ⟨hop, hnone⟩
    obtain ⟨digest, hdigest⟩ := ne_none_iff_exists'.mp hsome
    exact .ok ⟨hop, rfl, by rw [hdigest, some_or], hsome⟩

lemma subQueue_spec (hdigest : patch.digest ≠ none) :
    Ensures (subQueue sub patches patch) fun r =>
      r.1.path = sub.path ∧ r.2 = coalesce ZdirPatch.change patches patch := by
  have htrack : Ensures (sub.track patch) fun sub' => sub'.path = sub.path := by
    rw [Sub.track]
    split
    · exact Ensures.bind (fun _ _ => trivial) fun _ _ => .ok rfl
    · exact .error _
    · exact .ok rfl
  refine htrack.bind fun sub' hpath => ?_
  rw [ZdirPatch.dup, if_neg hdigest]
  exact .ok ⟨hpath, rfl⟩

/-- What a create patch does: nothing if its digest is found, and otherwise it replaces the patch for its file. -/
lemma subPatchAdd_create (hop : patch.op = .create) :
    Ensures (subPatchAdd sub patches patch zfileDigest) fun r => r.1.path = sub.path ∧
      ∃ patch', patch.digestSet zfileDigest = .ok patch' ∧
        r.2 = if sub.found patch.vpath = patch'.digest then patches
          else coalesce ZdirPatch.change patches patch' := by
  intro r hr
  obtain ⟨patch', hset, hr⟩ := exists_of_bind_ok hr
  obtain ⟨hop', hvpath, -, hdigest⟩ := ZdirPatch.digestSet_spec hop patch' hset
  rw [hop'] at hr
  obtain ⟨⟨digest, cache⟩, hlookup, hr⟩ := exists_of_bind_ok hr
  rw [hvpath] at hlookup
  have hfound : sub.found patch.vpath = digest := by rw [Sub.found, hlookup]
  rw [hfound]
  change (if digest.isSome ∧ digest = patch'.digest then Except.ok ({ sub with cache }, patches)
    else subQueue { sub with cache } patches patch') = .ok r at hr
  by_cases hsame : digest = patch'.digest
  · rw [if_pos ⟨hsame ▸ isSome_iff_ne_none.mpr hdigest, hsame⟩] at hr
    rw [← ok.inj hr]
    exact ⟨rfl, patch', hset, (if_pos hsame).symm⟩
  · rw [if_neg fun h => hsame h.2] at hr
    obtain ⟨hpath, hqueue⟩ := subQueue_spec hdigest r hr
    exact ⟨hpath, patch', hset, hqueue.trans (if_neg hsame).symm⟩

end Add

/-! ### Every run -/

lemma FileSet.under_update {files : FileSet} {path vpath : CString} {digest : Option CString}
    (h : startsWith vpath path) :
    FileSet.under (update files vpath digest) path = update (files.under path) vpath digest := by
  funext v
  by_cases hv : v = vpath
  · rw [hv, update_self, FileSet.under, if_pos h, update_self]
  · rw [update_of_ne hv, FileSet.under, FileSet.under, update_of_ne hv]

lemma mem_coalesce_iff {wanted : CString → Option ZdirPatch}
    (h : Coalesced ZdirPatch.change patches) (hlatest : ∀ p, p ∈ patches ↔ wanted p.vpath = some p)
    (patch p : ZdirPatch) : p ∈ coalesce ZdirPatch.change patches patch ↔
      update wanted patch.vpath (some patch) p.vpath = some p := by
  rw [h.mem_coalesce]
  by_cases hp : p.vpath = patch.vpath
  · have hnot : ¬(p ∈ patches ∧ p.change.key ≠ patch.change.key) := fun h => h.2 hp
    rw [or_iff_left hnot, hp, update_self, some.injEq]
    exact eq_comm
  · have hne : p ≠ patch := fun heq => hp (heq ▸ rfl)
    have hkey : p.change.key ≠ patch.change.key := hp
    rw [or_iff_right hne, and_iff_left hkey, update_of_ne hp]
    exact hlatest p

/-- The queue is what it should be, and what the client is known to have is what it has after the queue. -/
structure Feed.Inv (s : Feed) : Prop where
  queued : s.Queued
  known : s.known = Change.applyAll s.files (s.patches.map ZdirPatch.change)

namespace Feed

variable {s s' : Feed} {patch patch' : ZdirPatch} {zfileDigest : Option CString}

lemma Subscribed.inv (h : s.Subscribed) : s.Inv := by
  obtain ⟨-, hempty, hnothing, hfiles, hsynced⟩ := h
  refine ⟨⟨by simp [hempty], fun patch => by simp [hempty, hnothing], ?_⟩, ?_⟩
  · rw [hempty]
    exact hsynced
  · rw [hempty]
    exact hfiles.symm

/-- What a create patch under the subscription does: nothing to the queue if the client is known to have the
file, and otherwise it takes the place of the patch for its file. -/
lemma add_spec (h : s.Meets (.add patch zfileDigest)) (hadd : s.add patch zfileDigest = .ok s') :
    ∃ sub patch', sub.path = s.sub.path ∧ patch.digestSet zfileDigest = .ok patch' ∧ patch'.op = .create ∧
      startsWith patch'.vpath s.sub.path ∧
      s' = { s with
        sub
        patches := if s.Has patch' then s.patches else coalesce ZdirPatch.change s.patches patch'
        known := patch'.change.apply s.known
        published := patch'.change.apply s.published
        wanted := if s.Has patch' then s.wanted
          else update s.wanted patch'.vpath (some patch') } := by
  obtain ⟨hop, hstarts, hagrees⟩ := h
  obtain ⟨⟨sub, patches⟩, hadd, hrest⟩ := exists_of_bind_ok hadd
  obtain ⟨patch', hset, hrest⟩ := exists_of_bind_ok hrest
  obtain ⟨hpath, patch2, hset2, hpatches⟩ := subPatchAdd_create hop _ hadd
  obtain rfl : patch' = patch2 := ok.inj (hset.symm.trans hset2)
  obtain ⟨hop', hvpath, hdigest, -⟩ := ZdirPatch.digestSet_spec hop patch' hset
  rw [← hdigest, ← hvpath] at hagrees
  have hhas : s.Has patch' ↔ s.sub.found patch.vpath = patch'.digest := by
    rw [Has, hagrees.symm, hvpath]
    exact and_iff_right hop'
  refine ⟨sub, patch', hpath, hset, hop', hvpath ▸ hstarts, ?_⟩
  rw [← ok.inj hrest]
  simp only [hhas]
  rw [← hpatches]

lemma Inv.add (hinv : s.Inv) (h : s.Meets (.add patch zfileDigest))
    (hadd : s.add patch zfileDigest = .ok s') : s'.Inv := by
  obtain ⟨sub, patch', hpath, -, hop, hstarts, rfl⟩ := add_spec h hadd
  obtain ⟨⟨honce, hlatest, hsynced⟩, hknown⟩ := hinv
  have hchange : patch'.change = ⟨patch'.vpath, patch'.digest⟩ := by rw [ZdirPatch.change, hop]
  have hpublished : FileSet.under (patch'.change.apply s.published) sub.path =
      patch'.change.apply (s.published.under s.sub.path) := by
    rw [hpath]
    exact FileSet.under_update hstarts
  by_cases hhas : s.Has patch'
  · have hsame : patch'.change.apply s.known = s.known := by
      rw [hchange, Change.apply, ← hhas.2, update_eq_self]
    simp only [if_pos hhas]
    refine ⟨⟨honce, hlatest, ?_⟩, hsame.trans hknown⟩
    rw [hpublished, ← hsynced, ← hknown, hsame]
  · have hcoalesced : Coalesced ZdirPatch.change s.patches := honce
    have happly := applyAll_coalesce hcoalesced s.files patch'
    simp only [if_neg hhas]
    refine ⟨⟨hcoalesced.coalesce patch', mem_coalesce_iff hcoalesced hlatest patch', ?_⟩, ?_⟩
    · rw [happly, hsynced]
      exact hpublished.symm
    · rw [happly, ← hknown]

lemma Inv.send (hinv : s.Inv) : s.send.Inv := by
  obtain ⟨⟨honce, hlatest, hsynced⟩, hknown⟩ := hinv
  rw [Feed.send]
  split
  · exact ⟨⟨honce, hlatest, hsynced⟩, hknown⟩
  next patch patches hpatches =>
  rw [hpatches, map_cons] at honce hsynced hknown
  obtain ⟨hnew, honce⟩ := nodup_cons.mp honce
  refine ⟨⟨honce, fun p => ?_, hsynced⟩, hknown⟩
  have hmem := hlatest p
  rw [hpatches, mem_cons] at hmem
  by_cases hp : p.vpath = patch.vpath
  · have hgone : p ∉ patches := fun h => hnew (hp ▸ mem_map_of_mem h)
    simp only [hp, update_self, hgone, reduceCtorEq]
  have hne : p ≠ patch := fun heq => hp (heq ▸ rfl)
  rw [or_iff_right hne] at hmem
  rw [hmem]
  simp only [update_of_ne hp]

/-- **The queue of patches.** In every run of refreshes that only create files under the subscription, whose
digests are found in the table if and only if the client is known to have them, the queue is what it should be,
and the next patch for a file the client is known to have is skipped. -/
theorem patch_queue {s0 : Feed} (acts : List FeedAct) (h0 : s0.Subscribed)
    (hmeets : StepsMeet Feed.step Feed.Meets s0 acts) (hrun : runSteps Feed.step s0 acts = .ok s) :
    s.Queued ∧ ∀ patch zfileDigest patch' s', s.Meets (.add patch zfileDigest) →
      patch.digestSet zfileDigest = .ok patch' → s.Has patch' → s.add patch zfileDigest = .ok s' →
      s'.patches = s.patches := by
  have hinv : s.Inv := runSteps_preserves (fun s a s' hinv hgood hstep => by
    cases a with
    | add patch zfileDigest => exact hinv.add hgood hstep
    | send =>
      rw [← ok.inj hstep]
      exact hinv.send) h0.inv hmeets hrun
  refine ⟨hinv.queued, fun patch zfileDigest patch' s' h hset hhas hadd => ?_⟩
  obtain ⟨sub, patch2, -, hset2, -, -, rfl⟩ := add_spec h hadd
  obtain rfl : patch' = patch2 := ok.inj (hset.symm.trans hset2)
  exact if_pos hhas

/-! ### Runs on a directory that is empty at first -/

/-- A client without files has subscribed for `path`, where nothing is published. -/
def start (path : CString) : Feed where
  sub := ⟨path, { Zhash.new CString CString with cursorIndex := 2 }⟩
  patches := []
  files := fun _ => none
  known := fun _ => none
  published := fun _ => none
  wanted := fun _ => none

lemma start_subscribed (path : CString) : (start path).Subscribed := by
  have hnone : knownDigest path (Zhash.new CString CString) = fun _ => none := by
    funext vpath
    have hcached : ∀ name, cachedDigest (Zhash.new CString CString) name = none := fun name => rfl
    simp [knownDigest, hcached]
  have hunder : FileSet.under (fun _ => none) path = fun _ => none := by
    funext vpath
    rw [FileSet.under, ite_self]
  exact ⟨⟨0, Zhash.new CString CString, rfl, hnone.symm⟩, rfl, rfl, rfl, hunder.symm⟩

/-- The path `/p`. -/
def demoPath : CString := ⟨[47, 112], by decide⟩

/-- A patch for the file `/p/a`. -/
def demoPatch (op : PatchOp) : ZdirPatch :=
  ⟨⟨[112], by decide⟩, ⟨[112, 47, 97], by decide⟩, op, ⟨[47, 112, 47, 97], by decide⟩, none, fun _ => rfl⟩

/-- A digest. -/
def demoDigest (c : Fin 5) : CString := ⟨[48 + UInt8.ofNat c], by revert c; decide⟩

/-- A file is created and modified twice, once after its first version was sent. -/
def demoActs : List FeedAct :=
  [.add (demoPatch .create) (some (demoDigest 0)), .send, .add (demoPatch .create) (some (demoDigest 1)),
    .add (demoPatch .create) (some (demoDigest 2))]

theorem patch_queue_modified : ∃ s, runSteps Feed.step (start demoPath) demoActs = .ok s ∧
    s.patches.map ZdirPatch.digest = [some (demoDigest 2)] ∧ s.Queued := by
  refine okAnd.exists_and (by decide +kernel) fun s hs => ?_
  exact (patch_queue demoActs (start_subscribed demoPath) (by decide +kernel) hs).1

/-- A client has a file that is deleted, and its queue stays empty. -/
theorem delete_lost : (start demoPath).Subscribed ∧
    ∃ s, runSteps Feed.step (start demoPath) [.add (demoPatch .create) (some (demoDigest 0)), .send,
      .add (demoPatch .delete) none] = .ok s ∧ ¬s.Queued := by
  refine ⟨start_subscribed demoPath, okAnd.exists_imp (P := fun s => s.patches = [] ∧
    s.wanted (demoPatch .delete).vpath = some (demoPatch .delete)) (by decide +kernel) ?_⟩
  rintro s - ⟨hempty, hwanted⟩ hqueued
  have hmem := (hqueued.latest _).mpr hwanted
  rw [hempty] at hmem
  exact not_mem_nil hmem

end Feed

end Filemq
