import ZeroMQ.Filemq.PatchQueue

/-!
# The mounts of the FileMQ server

A published directory is mounted under an alias. A subscription is stored at one mount: the server looks for the
mount with the longest alias that the path begins with, and starts from the first mount without looking at its
alias. When the directory has changed, every patch goes to the clients of all subscriptions of the mount, whatever
their paths are.

The directory itself is left out; what has changed in it is a list of patches.
-/

namespace Filemq

open Czmq Foundation Function Option Except List Ensures
open scoped List

variable {C : Type}

/-! ### Mounts -/

/-- `sub_t` with its client. -/
structure MountSub (C : Type) extends Sub where
  client : C

/-- `mount_t`. -/
structure Mount (C : Type) where
  /-- `alias`, of which `mount_new` asserts that it begins with a slash. -/
  aliasPath : CString
  absolute : isAbsolute aliasPath = true
  subs : List (MountSub C)

/-! ### The mount of a subscription -/

/-- The loop of `store_client_subscription`: `mount` is the candidate and `index` the next place. -/
def findLoop (path : CString) : ℕ × CString → ℕ → List (Mount C) → ℕ × CString
  | mount, _, [] => mount
  | mount, index, check :: rest =>
    if startsWith path check.aliasPath ∧ mount.2.bytes.length < check.aliasPath.bytes.length then
      findLoop path (index, check.aliasPath) (index + 1) rest
    else findLoop path mount (index + 1) rest

/-- The place of the mount that `store_client_subscription` stores a subscription at. -/
def findMount (path : CString) : List (Mount C) → Option ℕ
  | [] => none
  | check :: rest => some (findLoop path (0, check.aliasPath) 0 (check :: rest)).1

/-- What should be found: a longest alias that the path begins with, or none if there is none. -/
def Routed (mounts : List (Mount C)) (path : CString) : Option ℕ → Prop
  | none => ∀ mount ∈ mounts, ¬startsWith path mount.aliasPath
  | some i => ∃ mount, mounts[i]? = some mount ∧ startsWith path mount.aliasPath ∧
      ∀ check ∈ mounts, startsWith path check.aliasPath →
        check.aliasPath.bytes.length ≤ mount.aliasPath.bytes.length

/-- The candidate of the loop after some mounts: it is the first one, no mount that was looked at has a longer
alias that fits, and if it has changed it fits. -/
structure Candidate (path : CString) (first : CString) (mounts seen : List (Mount C)) (mount : ℕ × CString) :
    Prop where
  place : ∃ m, mounts[mount.1]? = some m ∧ m.aliasPath = mount.2
  fits : mount.2 = first ∨ startsWith path mount.2 ∧ first.bytes.length < mount.2.bytes.length
  longest : ∀ check ∈ seen, startsWith path check.aliasPath →
    check.aliasPath.bytes.length ≤ mount.2.bytes.length

lemma findLoop_spec {path first : CString} {mounts : List (Mount C)} (rest seen : List (Mount C))
    {mount : ℕ × CString} (hmounts : mounts = seen ++ rest) (h : Candidate path first mounts seen mount) :
    Candidate path first mounts mounts (findLoop path mount seen.length rest) := by
  induction rest generalizing seen mount with
  | nil =>
    rw [append_nil] at hmounts
    rw [← hmounts] at h
    exact h
  | cons check rest ih =>
    have hsplit : mounts = (seen ++ [check]) ++ rest := by rw [hmounts, append_assoc, singleton_append]
    have hplace : mounts[seen.length]? = some check := by rw [hmounts]; simp
    have hlength : (seen ++ [check]).length = seen.length + 1 := by simp
    rw [findLoop]
    by_cases hbetter : startsWith path check.aliasPath ∧ mount.2.bytes.length < check.aliasPath.bytes.length
    · rw [if_pos hbetter, ← hlength]
      have hlonger : first.bytes.length < check.aliasPath.bytes.length := by
        rcases h.fits with hsame | ⟨-, hlt⟩
        · exact hsame ▸ hbetter.2
        · exact hlt.trans hbetter.2
      refine ih _ hsplit ⟨⟨check, hplace, rfl⟩, .inr ⟨hbetter.1, hlonger⟩, fun m hm hfits => ?_⟩
      rcases mem_append.mp hm with hm | hm
      · exact (h.longest m hm hfits).trans hbetter.2.le
      · rw [mem_singleton.mp hm]
    · rw [if_neg hbetter, ← hlength]
      refine ih _ hsplit { h with longest := fun m hm hfits => ?_ }
      rcases mem_append.mp hm with hm | hm
      · exact h.longest m hm hfits
      · rw [mem_singleton.mp hm] at hfits ⊢
        exact not_lt.mp fun hlt => hbetter ⟨hfits, hlt⟩

lemma findMount_routed_iff (mounts : List (Mount C)) (path : CString) :
    Routed mounts path (findMount path mounts) ↔ ∀ first ∈ mounts.head?, startsWith path first.aliasPath ∨
      ∃ mount ∈ mounts, startsWith path mount.aliasPath ∧
        first.aliasPath.bytes.length < mount.aliasPath.bytes.length := by
  cases mounts with
  | nil => simp [findMount, Routed]
  | cons first rest =>
    have hstart : Candidate path first.aliasPath (first :: rest) [] (0, first.aliasPath) :=
      ⟨⟨first, rfl, rfl⟩, .inl rfl, by simp⟩
    obtain ⟨⟨m, hm, halias⟩, hfits, hlongest⟩ := findLoop_spec (first :: rest) [] rfl hstart
    rw [findMount, Routed, head?_cons]
    rw [← halias] at hfits hlongest
    constructor
    · rintro ⟨m', hm', hfits', -⟩ f hf
      obtain rfl : first = f := some.inj hf
      obtain rfl : m = m' := some.inj (hm.symm.trans hm')
      rcases hfits with hsame | ⟨-, hlt⟩
      · rw [hsame] at hfits'
        exact .inl hfits'
      · exact .inr ⟨m, mem_of_getElem? hm, hfits', hlt⟩
    · intro h
      refine ⟨m, hm, ?_, hlongest⟩
      rcases hfits with hsame | ⟨hfits, -⟩
      · rcases h first rfl with hfirst | ⟨m', hm', hfits', hlt⟩
        · rw [hsame]
          exact hfirst
        · have hle := hlongest m' hm' hfits'
          rw [hsame] at hle
          exact absurd hlt (not_lt.mpr hle)
      · exact hfits

/-! ### The patches of a refresh -/

/-- The subscriptions of a mount, and the lists of patches of their clients. -/
structure Fanout (C : Type) where
  subs : List (MountSub C)
  patches : C → List ZdirPatch

namespace Fanout

variable (zfileDigest : CString → Option CString)

/-- `sub_patch_add` for the subscription at a place. -/
def add [DecidableEq C] (s : Fanout C) : ℕ × ZdirPatch → Except CzmqFault (Fanout C)
  | (i, patch) =>
    match s.subs[i]? with
    | none => .ok s
    | some sub => do
      let (self, patches) ← subPatchAdd sub.toSub (s.patches sub.client) patch (zfileDigest patch.file)
      .ok ⟨s.subs.set i { sub with toSub := self }, update s.patches sub.client patches⟩

/-- The turns of the loops of `mount_refresh` over the subscriptions and, for each of them, the patches. -/
def calls (s : Fanout C) (patches : List ZdirPatch) : List (ℕ × ZdirPatch) :=
  (List.range s.subs.length).flatMap fun i => patches.map (i, ·)

/-- What `mount_refresh` does with the patches. -/
def refresh [DecidableEq C] (s : Fanout C) (patches : List ZdirPatch) : Except CzmqFault (Fanout C) :=
  runSteps (add zfileDigest) s (s.calls patches)

/-- A client has a subscription whose path a virtual path begins with. -/
def Addressed (s : Fanout C) (client : C) (vpath : CString) : Prop :=
  ∃ sub ∈ s.subs, sub.client = client ∧ startsWith vpath sub.path

/-- A created file that is not under a subscription of the client is one whose digest is found in the table. -/
def Meets (s : Fanout C) (call : ℕ × ZdirPatch) : Prop :=
  ∀ sub, s.subs[call.1]? = some sub → call.2.op = .create → ¬s.Addressed sub.client call.2.vpath →
    sub.found call.2.vpath = call.2.digest.or (zfileDigest call.2.file)

variable {zfileDigest} {s t : Fanout C} {patch : ZdirPatch}

lemma subPatchAdd_delete {sub : Sub} {patches : List ZdirPatch} {digest : Option CString}
    (hop : patch.op = .delete) :
    Ensures (subPatchAdd sub patches patch digest) fun r => r.1.path = sub.path ∧ r.2 ⊆ patches := by
  have hset : patch.digestSet digest = .ok patch := by simp [ZdirPatch.digestSet, hop]
  have htrack : sub.track patch = .ok sub := by simp [Sub.track, hop]
  have hqueue : subQueue sub patches patch = .ok (sub, removePrevious patches patch) := by
    rw [subQueue, htrack, ZdirPatch.dup, if_pos (patch.digestCreated hop)]
    rfl
  intro r hr
  rw [subPatchAdd, hset] at hr
  obtain ⟨patch', hpatch, hr⟩ := exists_of_bind_ok hr
  obtain rfl := ok.inj hpatch
  rw [hop] at hr
  obtain rfl := ok.inj (hqueue.symm.trans hr)
  exact ⟨rfl, eraseP_subset⟩

/-- What a patch for a subscription leaves in the list of its client was there or is addressed to it, or it is a
create patch whose digest is not found. -/
lemma subPatchAdd_mem {sub : Sub} {patches : List ZdirPatch} {digest : Option CString} :
    Ensures (subPatchAdd sub patches patch digest) fun r => r.1.path = sub.path ∧ ∀ p ∈ r.2, p ∈ patches ∨
      p.vpath = patch.vpath ∧ patch.op = .create ∧ sub.found patch.vpath ≠ patch.digest.or digest := by
  intro r hr
  cases hop : patch.op with
  | delete =>
    obtain ⟨hpath, hsubset⟩ := subPatchAdd_delete hop r hr
    exact ⟨hpath, fun p hp => .inl (hsubset hp)⟩
  | create =>
    obtain ⟨hpath, patch', hset, hpatches⟩ := subPatchAdd_create hop r hr
    obtain ⟨-, hvpath, hdigest, -⟩ := ZdirPatch.digestSet_spec hop patch' hset
    refine ⟨hpath, fun p hp => ?_⟩
    rw [hpatches] at hp
    split at hp
    · exact .inl hp
    next hne =>
    rcases mem_append.mp hp with hp | hp
    · exact .inl (mem_of_mem_eraseP hp)
    · rw [mem_singleton.mp hp]
      exact .inr ⟨hvpath, rfl, hdigest ▸ hne⟩

lemma addressed_set {i : ℕ} {sub : MountSub C} {self : Sub} {patches : C → List ZdirPatch}
    (hsub : s.subs[i]? = some sub) (hpath : self.path = sub.path) (client : C) (vpath : CString) :
    Addressed ⟨s.subs.set i { sub with toSub := self }, patches⟩ client vpath ↔ s.Addressed client vpath := by
  have hmap (subs : List (MountSub C)) : Addressed ⟨subs, patches⟩ client vpath ↔
      ∃ x ∈ subs.map fun sub => (sub.client, sub.path), x.1 = client ∧ startsWith vpath x.2 := by
    simp [Addressed]
  have hsame : (s.subs.set i { sub with toSub := self }).map (fun sub => (sub.client, sub.path)) =
      s.subs.map fun sub => (sub.client, sub.path) := by
    obtain ⟨hi, hget⟩ := List.getElem?_eq_some_iff.mp hsub
    refine List.ext_getElem? fun j => ?_
    by_cases hij : i = j
    · simp [← hij, hi, hget, hpath]
    · simp [List.getElem?_set_ne hij]
  rw [hmap, hsame, ← hmap]
  rfl

/-- **A patch for a subscription.** -/
theorem add_addressed [DecidableEq C] {call : ℕ × ZdirPatch} (h : s.Meets zfileDigest call) :
    Ensures (s.add zfileDigest call) fun t => (∀ client vpath, t.Addressed client vpath ↔ s.Addressed client vpath) ∧
      ∀ client, ∀ p ∈ t.patches client, p ∈ s.patches client ∨ s.Addressed client p.vpath := by
  intro t ht
  obtain ⟨i, patch⟩ := call
  rw [add] at ht
  cases hsub : s.subs[i]? with
  | none =>
    rw [hsub] at ht
    rw [← ok.inj ht]
    exact ⟨fun _ _ => Iff.rfl, fun _ _ hp => .inl hp⟩
  | some sub =>
    rw [hsub] at ht
    obtain ⟨⟨self, patches⟩, hadd, ht⟩ := exists_of_bind_ok ht
    obtain ⟨hpath, hpatches⟩ := subPatchAdd_mem _ hadd
    rw [← ok.inj ht]
    refine ⟨addressed_set hsub hpath, fun client p hp => ?_⟩
    dsimp only at hp
    by_cases hclient : client = sub.client
    · rw [hclient, update_self] at hp
      rw [hclient]
      refine (hpatches p hp).imp_right ?_
      rintro ⟨hvpath, hop, hne⟩
      rw [hvpath]
      by_contra hnot
      exact hne (h sub hsub hop hnot)
    · rw [update_of_ne hclient] at hp
      exact .inl hp

/-- **The patches of a refresh.** -/
theorem refresh_addressed [DecidableEq C] {patches : List ZdirPatch}
    (h : StepsMeet (add zfileDigest) (Meets zfileDigest) s (s.calls patches))
    (hrun : s.refresh zfileDigest patches = .ok t) {client : C} {p : ZdirPatch} (hp : p ∈ t.patches client) :
    p ∈ s.patches client ∨ s.Addressed client p.vpath := by
  refine (runSteps_preserves (I := fun t => (∀ client vpath, t.Addressed client vpath ↔ s.Addressed client vpath) ∧
    ∀ client, ∀ p ∈ t.patches client, p ∈ s.patches client ∨ s.Addressed client p.vpath)
    (fun s1 call s2 hI hmeets hstep => ?_) ⟨fun _ _ => Iff.rfl, fun _ _ => .inl⟩ h hrun).2 client p hp
  obtain ⟨hsame, hpatches⟩ := add_addressed hmeets s2 hstep
  refine ⟨fun client vpath => (hsame client vpath).trans (hI.1 client vpath), fun client p hp => ?_⟩
  rcases hpatches client p hp with hp | haddressed
  · exact hI.2 client p hp
  · exact .inr ((hI.1 client p.vpath).mp haddressed)

end Fanout

/-- A mount under `/p`. -/
def demoMount : Mount ℕ := ⟨Feed.demoPath, by decide, []⟩

/-- **Where subscriptions are stored, and who gets patches.** A subscription is stored at the mount with the
longest alias that its path begins with, and at none if there is none, exactly if the first alias is one that the
path begins with or there is a longer one. A refresh in which every created file lies under a subscription of
the client, or has a digest that is found in the table of the subscription, queues patches only for clients with
a subscription whose path their virtual path begins with. -/
theorem subscription_routing (mounts : List (Mount C)) (path : CString) [DecidableEq C] :
    (Routed mounts path (findMount path mounts) ↔ ∀ first ∈ mounts.head?, startsWith path first.aliasPath ∨
      ∃ mount ∈ mounts, startsWith path mount.aliasPath ∧
        first.aliasPath.bytes.length < mount.aliasPath.bytes.length) ∧
    ∀ (zfileDigest : CString → Option CString) (s t : Fanout C) (patches : List ZdirPatch),
      StepsMeet (Fanout.add zfileDigest) (Fanout.Meets zfileDigest) s (s.calls patches) →
      s.refresh zfileDigest patches = .ok t → ∀ client, ∀ p ∈ t.patches client,
        p ∈ s.patches client ∨ s.Addressed client p.vpath :=
  ⟨findMount_routed_iff mounts path, fun _ _ _ _ hmeets hrun _ _ hp => Fanout.refresh_addressed hmeets hrun hp⟩

/-- A client that is subscribed to `/p/b`. -/
def demoFanout : Fanout ℕ := ⟨[⟨⟨⟨[47, 112, 47, 98], by decide⟩, Zhash.new CString CString⟩, 7⟩], fun _ => []⟩

/-- The file in `/p` with the name is created. -/
def demoCreated (name : UInt8) (hname : (0 : UInt8) ∉ [name]) : ZdirPatch :=
  { Feed.demoPatch .create with vpath := joinPath (joinPath Feed.demoPath ⟨[name], hname⟩) ⟨[120], by decide⟩ }

/-- A subscription for `/p` is stored at the mount `/p`, and a client that is subscribed to `/p/b` gets `/p/b/x`. -/
theorem subscription_routed : Routed [demoMount] Feed.demoPath (findMount Feed.demoPath [demoMount]) ∧
    ∃ t, demoFanout.refresh (fun _ => some (Feed.demoDigest 0)) [demoCreated 98 (by decide)] = .ok t ∧
      (t.patches 7).length = 1 ∧
      ∀ client, ∀ p ∈ t.patches client, p ∈ demoFanout.patches client ∨ demoFanout.Addressed client p.vpath := by
  obtain ⟨hrouted, hrefresh⟩ := subscription_routing [demoMount] Feed.demoPath
  refine ⟨hrouted.mpr fun first hfirst => .inl ?_, okAnd.exists_and (by decide +kernel) fun t ht => ?_⟩
  · obtain rfl : demoMount = first := some.inj hfirst
    decide
  · have hmeets : Fanout.Meets (fun _ => some (Feed.demoDigest 0)) demoFanout (0, demoCreated 98 (by decide)) := by
      intro sub hsub _ hnot
      obtain rfl := some.inj hsub
      exact absurd ⟨_, mem_singleton_self _, rfl, by decide⟩ hnot
    exact hrefresh _ demoFanout t _ (show StepsMeet _ _ _ [(0, _)] from ⟨hmeets, fun _ _ => trivial⟩) ht

/-- A subscription for `/q` is stored at the mount `/p`, and a client that is subscribed to `/p/b` gets the file
`/p/a/x`. -/
theorem subscription_not_routed :
    ¬Routed [demoMount] ⟨[47, 113], by decide⟩ (findMount ⟨[47, 113], by decide⟩ [demoMount]) ∧
    ∃ t, demoFanout.refresh (fun _ => some (Feed.demoDigest 0)) [demoCreated 97 (by decide)] = .ok t ∧
      ∃ p ∈ t.patches 7, p ∉ demoFanout.patches 7 ∧ ¬demoFanout.Addressed 7 p.vpath := by
  refine ⟨?_, okAnd.exists_imp (P := fun t => (t.patches 7).map (fun p => p.vpath.bytes) = [[47, 112, 47, 97, 47, 120]])
    (by decide +kernel) fun t _ ht => ?_⟩
  · rintro ⟨mount, hmount, hfits, -⟩
    obtain rfl : demoMount = mount := some.inj hmount
    exact absurd hfits (by decide)
  · obtain ⟨p, hp, hvpath⟩ := mem_map.mp (ht ▸ mem_singleton_self _)
    refine ⟨p, hp, not_mem_nil, ?_⟩
    rintro ⟨sub, hsub, -, hstarts⟩
    rw [mem_singleton.mp hsub, startsWith, hvpath] at hstarts
    exact absurd hstarts (by decide)

end Filemq
