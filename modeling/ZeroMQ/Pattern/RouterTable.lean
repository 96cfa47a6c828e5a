import ZeroMQ.Pattern.Router

/-!
# The identities of the peers

A ROUTER socket keeps a pipe in `anonymous_pipes` until the identity of its peer is known, and then in
`outpipes`, under the identity, and in the fair queue. `Table` says that this is so for all pipes that
are attached and that `outpipes` is a one-to-one map; all steps of the socket keep it.

An identity that a peer or the application has chosen is looked up in `outpipes` before it is inserted.
An identity that the socket makes up is not, although a peer can choose the same one. The assertion
after the insertion fails in this case and in no other one.
-/

namespace Zmq

open Foundation Function Option Finset Except Ensures

namespace Router

variable {s t u : Router} {p q : ℕ} {id : Identity}

/-! ### The table -/

/-- The pipe under an identity. -/
def pipeOf (s : Router) (id : Identity) : Option ℕ := (s.outpipes.lookup id).map Outpipe.pipe

/-- The pipe is in `outpipes`. -/
def Listed (s : Router) (p : ℕ) : Prop := ∃ id, s.pipeOf id = some p

/-- The pipes are stored under their identities. -/
def Keyed (s : Router) : Prop := ∀ id p, s.pipeOf id = some p → s.identities p = id

/-- The pipe was attached and is not deallocated. -/
def Attached (s : Router) (p : ℕ) : Prop := p < s.inp.count ∧ (s.inp.links p).near.frees = 0

/-- Every attached pipe is either anonymous or in `outpipes` and in the fair queue; the pipe `out`, if
there is one, is about to be attached. -/
structure Table (out : Option ℕ) (s : Router) : Prop where
  wf : s.inp.fq.pipes.WF
  keyed : s.Keyed
  queued : ∀ p, s.Listed p ↔ s.inp.fq.Mem p
  apart : ∀ p ∈ s.anonymousPipes, ¬s.inp.fq.Mem p
  attached : ∀ p, (p ∈ s.anonymousPipes ∨ s.inp.fq.Mem p) ∨ out = some p ↔ s.Attached p
  outside : ∀ p, out = some p → p ∉ s.anonymousPipes ∧ ¬s.inp.fq.Mem p

/-- The pipes are where they were and as they were. -/
structure Frame (s t : Router) : Prop where
  fq : s.inp.fq.pipes.WF → Ring.SamePipes s.inp.fq.toRing t.inp.fq.toRing
  count : t.inp.count = s.inp.count
  frees : ∀ p, (t.inp.links p).near.frees = (s.inp.links p).near.frees
  anonymous : t.anonymousPipes = s.anonymousPipes

/-- The table is as it was. -/
structure Aside (s t : Router) : Prop extends Frame s t where
  identities : t.identities = s.identities
  pipeOf : ∀ id, t.pipeOf id = s.pipeOf id

/-- The pipes of the table are those it had. -/
structure Renamed (s t : Router) : Prop extends Frame s t where
  keyed : s.Keyed → t.Keyed
  listed : ∀ q, t.Listed q ↔ s.Listed q

/-- The pipe was added to `outpipes`. -/
structure Enters (p : ℕ) (s t : Router) : Prop extends Frame s t where
  keyed : t.Keyed
  listed : ∀ q, t.Listed q ↔ s.Listed q ∨ q = p

namespace Frame

lemma trans (h : Frame s t) (h' : Frame t u) : Frame s u where
  fq hwf := (h.fq hwf).trans (h'.fq (h.fq hwf).wf)
  count := h'.count.trans h.count
  frees p := (h'.frees p).trans (h.frees p)
  anonymous := h'.anonymous.trans h.anonymous

lemma mem_iff (h : Frame s t) (hwf : s.inp.fq.pipes.WF) (p : ℕ) :
    t.inp.fq.Mem p ↔ s.inp.fq.Mem p := (h.fq hwf).mem_iff p

lemma attached_iff (h : Frame s t) (p : ℕ) : t.Attached p ↔ s.Attached p := by
  rw [Attached, Attached, h.count, h.frees]

end Frame

namespace Aside

lemma of_eq (hfq : t.inp.fq = s.inp.fq) (hcount : t.inp.count = s.inp.count)
    (hfrees : ∀ p, (t.inp.links p).near.frees = (s.inp.links p).near.frees)
    (hanon : t.anonymousPipes = s.anonymousPipes) (hids : t.identities = s.identities)
    (hout : t.outpipes = s.outpipes) : Aside s t where
  fq hwf := by
    rw [hfq]
    exact .refl hwf
  count := hcount
  frees := hfrees
  anonymous := hanon
  identities := hids
  pipeOf id := by rw [Router.pipeOf, hout]; rfl

lemma of_inp (hinp : t.inp = s.inp) (hanon : t.anonymousPipes = s.anonymousPipes)
    (htable : (t.identities, t.outpipes) = (s.identities, s.outpipes)) : Aside s t := by
  obtain ⟨hids, hout⟩ := Prod.mk.inj htable
  exact of_eq (by rw [hinp]) (by rw [hinp]) (fun p => by rw [hinp]) hanon hids hout

lemma refl (s : Router) : Aside s s := of_inp rfl rfl rfl

lemma trans (h : Aside s t) (h' : Aside t u) : Aside s u where
  toFrame := h.toFrame.trans h'.toFrame
  identities := h'.identities.trans h.identities
  pipeOf id := (h'.pipeOf id).trans (h.pipeOf id)

lemma listed_iff (h : Aside s t) (p : ℕ) : t.Listed p ↔ s.Listed p := by
  simp only [Listed, h.pipeOf]

lemma keyed (h : Aside s t) (hs : s.Keyed) : t.Keyed := by
  intro id p hp
  rw [h.identities]
  exact hs id p (by rw [← h.pipeOf, hp])

lemma setLink {l : Link} (hl : l.near.frees = (s.inp.links p).near.frees) : Aside s (s.setLink p l) := by
  refine of_eq rfl rfl (fun q => ?_) rfl rfl rfl
  by_cases hq : q = p
  · subst hq
    simp [Router.setLink, hl]
  · simp [Router.setLink, update_of_ne hq]

lemma mark {o : Outpipe} (ho : s.outpipes.lookup id = some o) (active : Bool) :
    Aside s { s with outpipes := s.outpipes.insert id { o with active := active } } := by
  refine { fq := .refl, count := rfl, frees := fun _ => rfl, anonymous := rfl, identities := rfl, pipeOf := ?_ }
  intro id'
  by_cases hid : id' = id
  · subst hid
    simp [Router.pipeOf, ho]
  · simp [Router.pipeOf, AList.lookup_insert_ne hid]

end Aside

lemma Aside.renamed (h : Aside s t) : Renamed s t where
  toFrame := h.toFrame
  keyed := h.keyed
  listed := h.listed_iff

lemma Renamed.trans (h : Renamed s t) (h' : Renamed t u) : Renamed s u where
  toFrame := h.toFrame.trans h'.toFrame
  keyed hs := h'.keyed (h.keyed hs)
  listed q := (h'.listed q).trans (h.listed q)

lemma Enters.of_renamed (h : Renamed s t) (h' : Enters p t u) : Enters p s u where
  toFrame := h.toFrame.trans h'.toFrame
  keyed := h'.keyed
  listed q := by rw [h'.listed, h.listed]

/-! ### Identification -/

/-- `identify_peer` makes up an identity: the application has not chosen one, and the socket is a raw
one, or the peer has not chosen one, or the peer takes over the identity of another one. -/
def makesUp (p : ℕ) (s : Router) : Bool :=
  s.connectRid = [] && (s.optionsRawSock ||
    match (s.inp.links p).read with
    | .ok (some m, _) => m.body = [] || (s.handover && (s.outpipes.lookup m.body).isSome)
    | _ => false)

lemma register_failed_iff : s.register p id = .error .insertFailed ↔ (s.outpipes.lookup id).isSome := by
  cases hid : s.outpipes.lookup id <;> simp [register, insertOutpipe, hid]

lemma register_enters (hs : s.Keyed) (hp : ¬s.Listed p) : Ensures (s.register p id) (Enters p s) := by
  intro t ht
  cases hid : s.outpipes.lookup id with
  | some o => simp [register, insertOutpipe, hid] at ht
  | none =>
    obtain rfl : _ = t := by simpa [register, insertOutpipe, hid] using ht
    have hnew : ∀ id', pipeOf { s with
        identities := update s.identities p id
        outpipes := s.outpipes.insert id ⟨p, true⟩ } id' = if id' = id then some p else s.pipeOf id' := by
      intro id'
      split
      next heq =>
        subst heq
        simp [pipeOf]
      next hne => simp [pipeOf, AList.lookup_insert_ne hne]
    refine { fq := .refl, count := rfl, frees := fun _ => rfl, anonymous := rfl, keyed := ?_, listed := ?_ }
    · intro id' q hq
      rw [hnew] at hq
      split at hq
      next heq =>
        obtain rfl := some.inj hq
        simp [heq]
      next hne =>
        have hqp : q ≠ p := by
          rintro rfl
          exact hp ⟨id', hq⟩
        simp only [update_of_ne hqp]
        exact hs id' q hq
    · intro q
      simp only [Listed, hnew]
      constructor
      · rintro ⟨id', hq⟩
        split at hq
        · exact .inr (some.inj hq).symm
        · exact .inl ⟨id', hq⟩
      · rintro (⟨id', hq⟩ | rfl)
        · refine ⟨id', ?_⟩
          rw [if_neg, hq]
          rintro rfl
          simp [pipeOf, hid] at hq
        · exact ⟨id, if_pos rfl⟩

lemma aside_nextRid (s : Router) (rid : UInt32) : Aside s { s with nextRid := rid } :=
  .of_inp rfl rfl rfl

lemma registerAuto_enters (hs : s.Keyed) (hp : ¬s.Listed p) :
    Ensures (s.registerAuto p) (Enters p s) := by
  have hnext := (aside_nextRid s (s.nextRid + 1)).renamed
  refine (register_enters (hnext.keyed hs) ?_).mono fun t ht => .of_renamed hnext ht
  rwa [hnext.listed]

lemma terminatePipe_aside (s : Router) (p : ℕ) (delay : Bool) :
    Ensures (s.terminatePipe p delay) (Aside s) := by
  unfold terminatePipe
  split
  · exact .error _
  · next l hl => exact .ok (.setLink (Link.Lives.terminate _ _ _ hl).near)

lemma handOver_renamed {old : Outpipe} (hs : s.Keyed) (hid : s.outpipes.lookup id = some old) :
    Ensures (s.handOver id old) (Renamed s) := by
  unfold handOver
  cases hnew : s.outpipes.lookup (autoIdentity s.nextRid) with
  | some o => simp [insertOutpipe, hnew, Ensures.error]
  | none =>
    have hne : id ≠ autoIdentity s.nextRid := by
      intro heq
      rw [heq, hnew] at hid
      cases hid
    simp only [insertOutpipe, hnew, isSome_none, Bool.false_eq_true, if_false]
    set t : Router := { s with
      nextRid := s.nextRid + 1
      identities := update s.identities old.pipe (autoIdentity s.nextRid)
      outpipes := (s.outpipes.insert (autoIdentity s.nextRid) old).erase id } with ht
    have hof : ∀ id', t.pipeOf id' = if id' = autoIdentity s.nextRid then some old.pipe
        else if id' = id then none else s.pipeOf id' := by
      intro id'
      split
      next heq =>
        subst heq
        simp [ht, pipeOf, AList.lookup_erase_ne hne.symm]
      next hne' =>
        split
        next heq =>
          subst heq
          simp [ht, pipeOf]
        next hne'' => simp [ht, pipeOf, AList.lookup_erase_ne hne'', AList.lookup_insert_ne hne']
    have hold : s.pipeOf id = some old.pipe := by simp [pipeOf, hid]
    have hrenamed : Renamed s t := by
      refine { fq := .refl, count := rfl, frees := fun _ => rfl, anonymous := rfl, keyed := ?_, listed := ?_ }
      · intro _ id' q hq
        rw [hof] at hq
        split at hq
        next heq =>
          obtain rfl := some.inj hq
          simp [ht, heq]
        split at hq
        next => cases hq
        next hne'' =>
          have hqp : q ≠ old.pipe := by
            rintro rfl
            exact hne'' ((hs id' _ hq).symm.trans (hs id _ hold))
          simp only [ht, update_of_ne hqp]
          exact hs id' q hq
      · intro q
        simp only [Listed, hof]
        constructor
        · rintro ⟨id', hq⟩
          split at hq
          · exact ⟨id, hold.trans hq⟩
          · split at hq
            · cases hq
            · exact ⟨id', hq⟩
        · rintro ⟨id', hq⟩
          by_cases heq : id' = id
          · refine ⟨autoIdentity s.nextRid, ?_⟩
            rw [if_pos rfl, ← hold, ← heq, hq]
          refine ⟨id', ?_⟩
          rw [if_neg, if_neg heq, hq]
          rintro rfl
          simp [pipeOf, hnew] at hq
    exact (terminatePipe_aside t _ _).mono fun u hu => hrenamed.trans hu.renamed

lemma identityRead_aside {m : Msg} {l : Link} (hl : l.near.frees = (s.inp.links p).near.frees) :
    Aside s (s.identityRead p m l) := by
  have hset := Aside.setLink (s := s) hl
  exact .of_eq rfl rfl hset.frees rfl rfl rfl

lemma identifyPeer_spec (hs : s.Keyed) (hp : ¬s.Listed p) :
    Ensures (s.identifyPeer p) fun r => if r.1 then Enters p s r.2 else Renamed s r.2 := by
  have hadd : ∀ {t : Router} {r : Except RouterFault Router}, Renamed s t → Ensures r (Enters p t) →
      Ensures (r.map (true, ·)) fun r => if r.1 then Enters p s r.2 else Renamed s r.2 := by
    intro t r hst hr
    exact map (hr.mono fun u hu => by simpa using Enters.of_renamed hst hu)
  have hnot : ∀ {t : Router}, Renamed s t → ¬t.Listed p := by
    intro t hst
    rwa [hst.listed]
  unfold identifyPeer
  split
  · split
    · exact .error _
    · have haside : Aside s { s with connectRid := [] } := .of_inp rfl rfl rfl
      have hrid := haside.renamed
      exact hadd hrid (register_enters (hrid.keyed hs) (hnot hrid))
  · split
    · exact hadd (Aside.refl s).renamed (registerAuto_enters hs hp)
    · split
      · exact .error _
      · next l hl =>
        refine .ok ?_
        simpa using (Aside.setLink (Link.Lives.read _ _ hl).near).renamed
      · next m l hl =>
        have hread := (identityRead_aside (m := m) (Link.Lives.read _ _ hl).near).renamed
        simp only
        split
        · exact hadd hread (registerAuto_enters (hread.keyed hs) (hnot hread))
        split
        · exact hadd hread (register_enters (hread.keyed hs) (hnot hread))
        · next old hold =>
          split
          · split
            · exact .error _
            · next t ht =>
              have hst := hread.trans (handOver_renamed (hread.keyed hs) hold t ht)
              exact hadd hst (register_enters (hst.keyed hs) (hnot hst))
          · exact .ok (by simpa using hread)

lemma map_error_iff {α β ε : Type} {r : Except ε α} {f : α → β} {e : ε} :
    r.map f = .error e ↔ r = .error e := by
  cases r <;> simp [Except.map]

lemma handOver_failed_iff {old : Outpipe} : s.handOver id old = .error .insertFailed ↔
    (s.outpipes.lookup (autoIdentity s.nextRid)).isSome := by
  unfold handOver
  cases hnew : s.outpipes.lookup (autoIdentity s.nextRid) with
  | some o => simp [insertOutpipe, hnew]
  | none =>
    simp only [insertOutpipe, hnew, isSome_none, Bool.false_eq_true, if_false, iff_false]
    unfold terminatePipe
    split <;> simp

lemma handOver_lookup {old : Outpipe} (h : s.handOver id old = .ok t) : t.outpipes.lookup id = none := by
  unfold handOver insertOutpipe terminatePipe at h
  simp only at h
  split at h
  · cases h
  next u hu =>
  split at h
  · cases h
  · rw [← ok.inj h]
    exact AList.lookup_erase _ _

lemma identifyPeer_failed_iff : s.identifyPeer p = .error .insertFailed ↔
    s.makesUp p = true ∧ (s.outpipes.lookup (autoIdentity s.nextRid)).isSome := by
  unfold identifyPeer makesUp
  by_cases hrid : s.connectRid = []
  · rw [if_neg (by simpa using hrid)]
    by_cases hraw : s.optionsRawSock
    · simp [hraw, hrid, map_error_iff, registerAuto, register_failed_iff]
    simp only [hrid, hraw, decide_true, Bool.true_and, Bool.false_or, if_false, Bool.false_eq_true]
    cases hread : (s.inp.links p).read with
    | error e => simp
    | ok r =>
      obtain ⟨m, l⟩ := r
      cases m with
      | none => simp
      | some m =>
        by_cases hbody : m.body = []
        · simp [hbody, map_error_iff, registerAuto, register_failed_iff, identityRead]
        simp only [hbody, decide_false, Bool.false_or]
        have hlookup : (s.identityRead p m l).outpipes = s.outpipes := rfl
        rw [hlookup]
        cases hid : s.outpipes.lookup m.body with
        | none => simp [map_error_iff, register_failed_iff, hlookup, hid]
        | some old =>
          have hhand : (s.identityRead p m l).handover = s.handover := rfl
          simp only [hhand, isSome_some, Bool.and_true]
          by_cases hover : s.handover
          · have hfail : (s.identityRead p m l).handOver m.body old = .error .insertFailed ↔
                (s.outpipes.lookup (autoIdentity s.nextRid)).isSome := handOver_failed_iff
            rw [if_pos hover]
            cases hh : (s.identityRead p m l).handOver m.body old with
            | error f =>
              rw [hh] at hfail
              simpa [hover] using hfail
            | ok t =>
              rw [hh] at hfail
              have hnew : ¬(s.outpipes.lookup (autoIdentity s.nextRid)).isSome := by simpa using hfail
              simp [map_error_iff, register_failed_iff, handOver_lookup hh, hnew]
          · simp [hover]
  · rw [if_pos hrid]
    cases hid : s.outpipes.lookup s.connectRid <;>
      simp [hrid, hid, map_error_iff, register_failed_iff]

/-! ### Pipes come and go -/

lemma fq_attach_mem {fq fq' : Fq} (hwf : fq.pipes.WF) (hp : ¬fq.Mem p) (h : fq.attach p = some fq') :
    fq'.pipes.WF ∧ ∀ q, fq'.Mem q ↔ fq.Mem q ∨ q = p := by
  obtain ⟨pipes, hswap, rfl⟩ := map_eq_some_iff.mp h
  obtain ⟨hwf', hmem⟩ := (hwf.pushBack hp).of_swap hswap
  refine ⟨hwf', fun q => ?_⟩
  rw [Ring.Mem, hmem]
  simp [PipeArray.pushBack, Ring.Mem]

lemma Enters.queue {out : Option ℕ} (h : Enters p s t) (hs : s.Table out)
    (hout : ∀ q, out = some q → q = p) (hp : s.Attached p) (hmem : ¬s.inp.fq.Mem p) :
    Ensures (fqAttach p { t with anonymousPipes := t.anonymousPipes.erase p }) (Table none) := by
  unfold fqAttach
  split
  · exact .error _
  next fq hfq =>
  have hsame := h.fq hs.wf
  obtain ⟨hwf, hmem'⟩ := fq_attach_mem hsame.wf ((hsame.mem_iff p).not.mpr hmem) hfq
  have hiff : ∀ q, fq.Mem q ↔ s.inp.fq.Mem q ∨ q = p := fun q => by rw [hmem', hsame.mem_iff]
  refine .ok ⟨hwf, h.keyed, fun q => ?_, fun q hq => ?_, fun q => ?_, fun q hq => (by cases hq)⟩
  · exact (h.listed q).trans ((or_congr_left (hs.queued q)).trans (hiff q).symm)
  · obtain ⟨hne, hanon⟩ := mem_erase.mp hq
    rw [h.anonymous] at hanon
    rw [hiff]
    rintro (hq' | rfl)
    · exact hs.apart q hanon hq'
    · exact hne rfl
  · have hatt := hs.attached q
    have hframe := h.attached_iff q
    simp only [Attached] at hframe ⊢
    rw [hframe, ← Attached, ← hatt, hiff, h.anonymous, mem_erase]
    by_cases hqp : q = p
    · subst hqp
      simp [hatt.mpr hp]
    · have hne : out ≠ some q := fun heq => hqp (hout q heq)
      simp [hqp, hne]

lemma probe_aside (s : Router) (p : ℕ) : Ensures (s.probe p) (Aside s) := by
  unfold probe
  split
  · split
    · exact .error _
    · next l hl =>
      have hwrite := Link.Lives.write _ _ _ hl
      split
      · exact .error _
      · next l' hl' => exact .ok (.setLink ((Link.Lives.flush _ _ hl').near.trans hwrite.near))
  · exact .ok (.refl s)

lemma peer_aside (s : Router) (p : ℕ) (a : EndAct) : Ensures (s.peer p a) (Aside s) := by
  unfold peer FqSystem.step
  simp only
  split
  · exact .error _
  next inp hinp =>
  refine .ok ?_
  split at hinp
  · split at hinp
    · cases hinp
    · next l e hl =>
      have hset := Aside.setLink (s := s) (p := p) (l := l.swap) (Link.Ends.act _ _ _ hl).far
      rw [← ok.inj hinp]
      exact .of_eq rfl rfl hset.frees rfl rfl rfl
  · rw [← ok.inj hinp]
    exact .refl s

lemma peerActs_aside (s : Router) (p : ℕ) (as : List EndAct) : Ensures (s.peerActs p as) (Aside s) := by
  induction as generalizing s with
  | nil => exact .ok (.refl s)
  | cons a as ih =>
    unfold peerActs
    split
    · exact .error _
    · next t ht =>
      have hst := peer_aside s p a t ht
      exact (ih t).mono fun u hu => hst.trans hu

lemma addPipe_table (hs : s.Table none) (hwm0 hwm1 : ℤ) :
    (s.addPipe hwm0 hwm1).Table (some s.inp.count) := by
  have hnew : ¬(s.inp.count ∈ s.anonymousPipes ∨ s.inp.fq.Mem s.inp.count) := by
    intro hcon
    exact Nat.lt_irrefl _ ((hs.attached _).mp (.inl hcon)).1
  refine ⟨hs.wf, hs.keyed, hs.queued, hs.apart, fun p => ?_, fun p hp => ?_⟩
  · have hatt := hs.attached p
    simp only [reduceCtorEq, or_false] at hatt
    change (p ∈ s.anonymousPipes ∨ s.inp.fq.Mem p) ∨ some s.inp.count = some p ↔ _
    rw [hatt]
    by_cases hp : p = s.inp.count
    · subst hp
      simp [Attached, addPipe, Link.pipepair, Link.newEndpoint]
    simp only [Attached, addPipe, update_of_ne hp, some.injEq, Ne.symm hp, or_false]
    constructor
    · rintro ⟨hlt, hfrees⟩
      exact ⟨by omega, hfrees⟩
    · rintro ⟨hlt, hfrees⟩
      exact ⟨by omega, hfrees⟩
  · obtain rfl := some.inj hp
    exact not_or.mp hnew

lemma Renamed.table {out : Option ℕ} (h : Renamed s t) (hs : s.Table out) : t.Table out where
  wf := (h.fq hs.wf).wf
  keyed := h.keyed hs.keyed
  queued p := by rw [h.listed, h.mem_iff hs.wf, hs.queued]
  apart p hp := by
    rw [h.anonymous] at hp
    rw [h.mem_iff hs.wf]
    exact hs.apart p hp
  attached p := by rw [h.anonymous, h.mem_iff hs.wf, h.attached_iff, hs.attached]
  outside p hp := by
    rw [h.anonymous, h.mem_iff hs.wf]
    exact hs.outside p hp

lemma xattachPipe_table (hs : s.Table (some p)) : Ensures (s.xattachPipe p) (Table none) := by
  unfold xattachPipe
  split
  · exact .error _
  next t ht =>
  have htable := (probe_aside s p t ht).renamed.table hs
  obtain ⟨hanon, hmem⟩ := htable.outside p rfl
  have hatt : t.Attached p := (htable.attached p).mp (.inr rfl)
  have hspec := identifyPeer_spec (p := p) htable.keyed ((htable.queued p).not.mpr hmem)
  split
  · exact .error _
  · next u hu =>
    have henters : Enters p t u := by simpa using hspec _ hu
    have hqueue := henters.queue htable (fun q hq => (some.inj hq).symm) hatt hmem
    rwa [erase_eq_of_notMem (by rw [henters.anonymous]; exact hanon)] at hqueue
  · next u hu =>
    have hrenamed : Renamed t u := by simpa using hspec _ hu
    have hut := hrenamed.table htable
    have hout := hut.outside p rfl
    refine .ok ⟨hut.wf, hut.keyed, hut.queued, fun q hq => ?_, fun q => ?_, fun q hq => (by cases hq)⟩
    · rcases mem_insert.mp hq with rfl | hq
      · exact hout.2
      · exact hut.apart q hq
    · have hq := hut.attached q
      simp only [Attached] at hq ⊢
      rw [← hq, mem_insert, some.injEq, eq_comm (a := p)]
      tauto

lemma xreadActivated_table (hs : s.Table none) : Ensures (s.xreadActivated p) (Table none) := by
  unfold xreadActivated
  split
  · next hanon =>
    have hmem := hs.apart p hanon
    have hatt : s.Attached p := (hs.attached p).mp (.inl (.inl hanon))
    have hspec := identifyPeer_spec (p := p) hs.keyed ((hs.queued p).not.mpr hmem)
    split
    · exact .error _
    · next t ht =>
      have henters : Enters p s t := by simpa using hspec _ ht
      exact henters.queue hs (fun q hq => (by cases hq)) hatt hmem
    · next t ht =>
      have hrenamed : Renamed s t := by simpa using hspec _ ht
      exact .ok (hrenamed.table hs)
  · split
    · exact .error _
    · next fq hfq =>
      obtain ⟨r, hr, rfl⟩ := map_eq_some_iff.mp hfq
      have haside : Aside s { s with inp := { s.inp with fq := { s.inp.fq with toRing := r } } } :=
        { fq := fun hwf => .of_activated hwf hr, count := rfl, frees := fun _ => rfl, anonymous := rfl,
          identities := rfl, pipeOf := fun _ => rfl }
      exact .ok (haside.renamed.table hs)

lemma xwriteActivated_table (hs : s.Table none) : Ensures (s.xwriteActivated p) (Table none) := by
  unfold xwriteActivated
  split
  · exact .error _
  next id o ho =>
  split
  · exact .error _
  · have hlookup : s.outpipes.lookup id = some o :=
      AList.mem_lookup_iff.mpr (List.mem_of_find?_eq_some ho)
    exact .ok ((Aside.mark hlookup true).renamed.table hs)

/-- The pipe of which the socket is told that it is gone leaves the table. In `s` it was there, in `t`
it is deallocated. -/
lemma xpipeTerminated_table {l : Link} {before : Pipes} (hs : s.Table none) (hp : s.Attached p)
    (hl : l.near.frees ≠ 0) : Ensures ((s.setLink p l).xpipeTerminated before p) (Table none) := by
  have hgone : ∀ q, (s.setLink p l).Attached q ↔ s.Attached q ∧ q ≠ p := by
    intro q
    by_cases hq : q = p
    · subst hq
      simp [Attached, setLink, hl]
    · simp [Attached, setLink, hq]
  have hplaced : ∀ q, q ∈ s.anonymousPipes ∨ s.inp.fq.Mem q ↔ s.Attached q := by
    intro q
    simpa using hs.attached q
  unfold xpipeTerminated
  split
  · next hanon =>
    have hmem := hs.apart p hanon
    refine .ok ⟨hs.wf, hs.keyed, hs.queued, fun q hq => ?_, fun q => ?_, fun q hq => (by cases hq)⟩
    · exact hs.apart q (mem_of_mem_erase hq)
    refine Iff.trans ?_ (hgone q).symm
    change (q ∈ s.anonymousPipes.erase p ∨ s.inp.fq.Mem q) ∨ none = some q ↔ _
    rw [← hplaced, mem_erase]
    by_cases hq : q = p
    · subst hq
      simp [hmem]
    · simp [hq]
  · next hnot =>
    have hanon : p ∉ s.anonymousPipes := hnot
    have hmem : s.inp.fq.Mem p := ((hplaced p).mpr hp).resolve_left hanon
    obtain ⟨id, hid⟩ := (hs.queued p).mpr hmem
    have hkey := hs.keyed id p hid
    split
    · split
      · exact .error _
      · next fq hfq =>
        have hfq' : fq.pipes.WF ∧ ∀ q, fq.Mem q ↔ s.inp.fq.Mem q ∧ q ≠ p := by
          obtain ⟨r, hr, rfl⟩ := map_eq_some_iff.mp hfq
          have hremove := Ring.of_remove hs.wf hmem hr
          split <;> exact hremove
        have hof : ∀ id', (pipeOf { s with outpipes := s.outpipes.erase (s.identities p) } id') =
            if id' = id then none else s.pipeOf id' := by
          intro id'
          rw [hkey]
          split
          next heq =>
            subst heq
            simp [pipeOf]
          next hne => simp [pipeOf, AList.lookup_erase_ne hne]
        refine .ok ⟨hfq'.1, fun id' q hq => ?_, fun q => ?_, fun q hq => ?_, fun q => ?_,
          fun q hq => (by cases hq)⟩
        · have hq' := (hof id').symm.trans hq
          split at hq'
          · cases hq'
          · exact hs.keyed id' q hq'
        · refine Iff.trans ?_ (hfq'.2 q).symm
          rw [← hs.queued]
          constructor
          · rintro ⟨id', hq⟩
            have hq' := (hof id').symm.trans hq
            split at hq'
            · cases hq'
            next hne =>
            refine ⟨⟨id', hq'⟩, ?_⟩
            rintro rfl
            exact hne ((hs.keyed id' q hq').symm.trans hkey)
          · rintro ⟨⟨id', hq⟩, hne⟩
            refine ⟨id', (hof id').trans ?_⟩
            rw [if_neg, hq]
            rintro rfl
            exact hne (some.inj (hq.symm.trans hid))
        · intro hq'
          exact hs.apart q hq ((hfq'.2 q).mp hq').1
        · refine Iff.trans ?_ (hgone q).symm
          change (q ∈ s.anonymousPipes ∨ fq.Mem q) ∨ none = some q ↔ _
          rw [← hplaced, hfq'.2]
          by_cases hq : q = p
          · subst hq
            simpa using hanon
          · simp [hq]
    · exact .error _

/-! ### Steps -/

lemma recvpipe_aside (s : Router) : Ensures s.recvpipe fun r => Aside s r.2 := by
  have hsearch : ∀ x, Ring.search .outOfBounds Fq.tryRead
      (if s.inp.fq.more then .error .assertFailed else .ok ()) Ring.deactivate s.inp.fq.active
      s.inp.fq.toRing s.inp.links = .ok x →
      (s.inp.fq.pipes.WF → Ring.SamePipes s.inp.fq.toRing x.2.1) ∧
        ∀ p, (x.2.2 p).near.frees = (s.inp.links p).near.frees := by
    intro x hx
    refine ⟨fun hwf => .of_search hwf hx, ?_⟩
    refine Ring.search_ensures (I := fun links : Pipes =>
      ∀ p, (links p).near.frees = (s.inp.links p).near.frees) ?_ _ (fun _ => rfl) _ x hx
    intro p links hlinks
    unfold Fq.tryRead
    split
    · exact .error _
    next m l hl =>
    refine .ok fun q => ?_
    by_cases hq : q = p
    · subst hq
      have hnear : l.near.frees = (links q).near.frees := (Link.Lives.read _ _ hl).near
      simpa [hnear] using hlinks q
    · simpa [update_of_ne hq] using hlinks q
  have haside : ∀ (fq : Fq) (links : Pipes), (s.inp.fq.pipes.WF → Ring.SamePipes s.inp.fq.toRing fq.toRing) →
      (∀ p, (links p).near.frees = (s.inp.links p).near.frees) →
      Aside s { s with inp := { s.inp with fq, links } } := by
    intro fq links hfq hlinks
    exact { fq := hfq, count := rfl, frees := hlinks, anonymous := rfl, identities := rfl,
            pipeOf := fun _ => rfl }
  have hrecv : ∀ f fq links, s.inp.fq.recvpipe s.inp.links = .ok (f, fq, links) →
      Aside s { s with inp := { s.inp with fq, links } } := by
    intro f fq links h
    unfold Fq.recvpipe at h
    split at h
    · cases h
    · next r links' hr =>
      cases h
      exact haside _ _ (hsearch _ hr).1 (hsearch _ hr).2
    · next m r links' hr =>
      split at h
      · cases h
      split at h
      · cases h
        exact haside _ _ (hsearch _ hr).1 (hsearch _ hr).2
      · cases h
        refine haside _ _ (fun hwf => ?_) (hsearch _ hr).2
        exact ⟨((hsearch _ hr).1 hwf).wf, ((hsearch _ hr).1 hwf).mem_iff⟩
  unfold recvpipe
  split
  · exact .error _
  · next fq links h => exact .ok (hrecv _ _ _ h)
  · next f fq links h =>
    refine .ok ((hrecv _ _ _ h).trans ?_)
    unfold FqSystem.record
    split <;> exact .of_eq rfl rfl (fun _ => rfl) rfl rfl rfl

lemma recvFrame_aside (n : ℕ) (s : Router) : Ensures (s.recvFrame n) fun r => Aside s r.2 := by
  induction n generalizing s with
  | zero => exact .error _
  | succ n ih =>
    unfold recvFrame
    split
    · exact .error _
    · next t ht => exact .ok (recvpipe_aside s _ ht)
    · next f t ht =>
      have hst : Aside s t := recvpipe_aside s _ ht
      split
      · exact (ih t).mono fun r hr => hst.trans hr
      · exact .ok hst

lemma xrecv_aside (n : ℕ) (s : Router) : Ensures (s.xrecv n) fun r => Aside s r.2 := by
  unfold xrecv
  split
  · split
    · exact .ok (.of_inp rfl rfl rfl)
    · exact .ok (.of_inp rfl rfl rfl)
  · split
    · exact .error _
    · next t ht => exact .ok (recvFrame_aside n s _ ht)
    · next m p t ht =>
      have hst : Aside s t := recvFrame_aside n s _ ht
      split
      · exact .ok (hst.trans (.of_inp rfl rfl rfl))
      · exact .ok (hst.trans (.of_inp rfl rfl rfl))

lemma xhasIn_aside (n : ℕ) (s : Router) : Ensures (s.xhasIn n) fun r => Aside s r.2 := by
  unfold xhasIn
  split
  · exact .ok (.refl s)
  split
  · exact .ok (.refl s)
  · split
    · exact .error _
    · next t ht => exact .ok (recvFrame_aside n s _ ht)
    · next m p t ht =>
      have hst : Aside s t := recvFrame_aside n s _ ht
      exact .ok (hst.trans (.of_inp rfl rfl rfl))

lemma sendIdentity_aside (m : Msg) (s : Router) : Ensures (s.sendIdentity m) fun r => Aside s r.2 := by
  unfold sendIdentity
  split
  · exact .error _
  split
  · split
    · split
      · exact .ok (.refl s)
      · exact .ok (.of_inp rfl rfl rfl)
    · next o ho =>
      have hcheck := Link.Lives.checkWrite (s.inp.links o.pipe)
      split
      · next l hl =>
        rw [hl] at hcheck
        exact .ok ((Aside.setLink hcheck.near).trans (.of_inp rfl rfl rfl))
      · next l hl =>
        rw [hl] at hcheck
        have hset := Aside.setLink (s := s) hcheck.near
        have hmark := hset.trans (Aside.mark (s := s.setLink o.pipe l) ho false)
        simp only
        split
        · exact .ok hmark
        · exact .ok (hmark.trans (.of_inp rfl rfl rfl))
  · exact .ok (.refl s)

lemma sendPart_aside (m : Msg) (p : ℕ) (s : Router) : Ensures (s.sendPart m p) (Aside s) := by
  unfold sendPart
  split
  · split
    · exact .error _
    · next t ht =>
      exact .ok ((terminatePipe_aside s p false t ht).trans (.of_inp rfl rfl rfl))
  · split
    · exact .error _
    · next l hl =>
      have hset := Aside.setLink (s := s) (Link.Lives.write _ _ _ hl).near
      exact .ok (hset.trans (.of_inp rfl rfl rfl))
    · next l hl =>
      have hwrite := (Link.Lives.write _ _ _ hl).near
      split
      · exact .ok (.setLink hwrite)
      split
      · exact .error _
      · next l' hl' =>
        have hset := Aside.setLink (s := s) ((Link.Lives.flush _ _ hl').near.trans hwrite)
        exact .ok (hset.trans (.of_inp rfl rfl rfl))

lemma aside_moreOut (s : Router) (more : Bool) : Aside s { s with moreOut := more } :=
  .of_inp rfl rfl rfl

lemma xsend_aside (m : Msg) (s : Router) : Ensures (s.xsend m) fun r => Aside s r.2 := by
  unfold xsend
  split
  · simp only
    split
    · exact .ok (.of_inp rfl rfl rfl)
    split
    · exact .error _
    · next t ht =>
      exact .ok ((aside_moreOut s _).trans (sendPart_aside _ _ _ t ht))
  · exact sendIdentity_aside m s

lemma Ends.socketAct (l : Link) (a : EndAct) : Ensures (l.socketAct a) fun r => Link.Ends l r.1 r.2 := by
  unfold Link.socketAct
  split
  · exact .error _
  · next t ht =>
    have hends := Link.Ends.act _ _ _ ht
    refine map (g := (·, none)) ((Link.Lives.terminate t false).mono fun u hu => ?_)
    have hnear := hends.stays fun heq => (by cases heq)
    exact Link.Lives.silent ⟨hu.near.trans hnear, hu.far.trans hends.far⟩
  · next t e _ ht => exact .ok (Link.Ends.act _ _ _ ht)

lemma owner_table (hs : s.Table none) (a : PipeAct) : Ensures (s.owner p a) (Table none) := by
  unfold owner
  split
  · next hlt =>
    split
    · exact .error _
    next l e hl =>
    have hends := Ends.socketAct _ _ _ hl
    by_cases he : e = some .pipeTerminated
    · subst he
      obtain ⟨halive, hfreed⟩ := hends.gone rfl
      exact xpipeTerminated_table hs ⟨hlt, halive⟩ hfreed
    · have hset := (Aside.setLink (hends.stays he)).renamed.table hs
      unfold react
      split
      · exact xreadActivated_table hset
      · exact xwriteActivated_table hset
      · exact absurd rfl he
      · exact .ok hset
  · exact .ok hs

lemma step_table (hs : s.Table none) (a : RouterAct) : Ensures (s.step a) (Table none) := by
  have haside : ∀ t, Aside s t → Ensures (.ok t : Except RouterFault Router) (Table none) :=
    fun t hst => .ok (hst.renamed.table hs)
  cases a with
  | attach hwm0 hwm1 before =>
    simp only [step]
    split
    · exact .error _
    · next t ht =>
      exact xattachPipe_table ((peerActs_aside _ _ _ t ht).renamed.table (addPipe_table hs hwm0 hwm1))
  | recv n =>
    refine map ((xrecv_aside n s).mono fun r hr => ?_)
    have hrecord : Aside r.2 (recordReturned r) := .of_inp rfl rfl rfl
    exact (hr.trans hrecord).renamed.table hs
  | hasIn n => exact map ((xhasIn_aside n s).mono fun r hr => hr.renamed.table hs)
  | send flags body => exact map ((xsend_aside _ s).mono fun r hr => hr.renamed.table hs)
  | setConnectRid rid =>
    simp only [step]
    split
    · exact .ok hs
    · exact haside _ (.of_inp rfl rfl rfl)
  | setRaw value | setMandatory value | setProbeRouter value | setHandover value => exact haside _ (.of_inp rfl rfl rfl)
  | owner p a => exact owner_table hs a
  | peer p a => exact (peer_aside s p a).mono fun t hst => hst.renamed.table hs

lemma new_table (rid : UInt32) : (new rid).Table none := by
  have hlisted : ∀ p, ¬(new rid).Listed p := by
    rintro p ⟨id, hid⟩
    simp [pipeOf, new] at hid
  refine ⟨PipeArray.empty_wf, fun id p hp => absurd ⟨id, hp⟩ (hlisted p), fun p => ?_, fun p hp => ?_,
    fun p => ?_, fun p hp => (by cases hp)⟩
  · refine iff_of_false (hlisted p) ?_
    simp [new, FqSystem.new, Fq.new, Ring.Mem, Ring.empty, PipeArray.empty]
  · simp [new] at hp
  · simp [new, FqSystem.new, Fq.new, Ring.Mem, Ring.empty, PipeArray.empty, Attached]

/-! ### The insertion of an identity -/

/-- The pipe whose peer is identified in a step, if there is one, and the state of the socket when
`identify_peer` is called. -/
def identifies (s : Router) : RouterAct → Option (ℕ × Router)
  | .attach hwm₀ hwm₁ before =>
    match (s.addPipe hwm₀ hwm₁).peerActs s.inp.count before with
    | .error _ => none
    | .ok t =>
      match t.probe s.inp.count with
      | .error _ => none
      | .ok t => some (s.inp.count, t)
  | .owner p a =>
    if p < s.inp.count ∧ p ∈ s.anonymousPipes then
      match (s.inp.links p).socketAct a.1 with
      | .ok (l, some .readActivated) => some (p, s.setLink p l)
      | _ => none
    else none
  | _ => none

/-- If the step makes up an identity, no peer has it already. -/
def FreshIdentity (s : Router) (a : RouterAct) : Prop :=
  ∀ x ∈ s.identifies a, x.2.makesUp x.1 = true → x.2.outpipes.lookup (autoIdentity x.2.nextRid) = none

lemma error_ne {α β : Type} {r : Except RouterFault α} {f : RouterFault}
    (hr : r ≠ .error .insertFailed) (hf : r = .error f) : (.error f : Except RouterFault β) ≠ .error .insertFailed := by
  intro heq
  exact hr (hf.trans (by rw [error.inj heq]))

lemma fqAttach_ne (s : Router) (p : ℕ) : s.fqAttach p ≠ .error .insertFailed := by
  unfold fqAttach
  split <;> simp

lemma terminatePipe_ne (s : Router) (p : ℕ) (delay : Bool) :
    s.terminatePipe p delay ≠ .error .insertFailed := by
  unfold terminatePipe
  split <;> simp

lemma peer_ne (s : Router) (p : ℕ) (a : EndAct) : s.peer p a ≠ .error .insertFailed := by
  unfold peer
  split <;> simp

lemma peerActs_ne (s : Router) (p : ℕ) (as : List EndAct) : s.peerActs p as ≠ .error .insertFailed := by
  induction as generalizing s with
  | nil => simp [peerActs]
  | cons a as ih =>
    unfold peerActs
    split
    · next f hf => exact error_ne (peer_ne s p a) hf
    · exact ih _

lemma probe_ne (s : Router) (p : ℕ) : s.probe p ≠ .error .insertFailed := by
  unfold probe
  repeat' split
  all_goals simp

lemma recvpipe_ne (s : Router) : s.recvpipe ≠ .error .insertFailed := by
  unfold recvpipe
  split <;> simp

lemma recvFrame_ne (n : ℕ) (s : Router) : s.recvFrame n ≠ .error .insertFailed := by
  induction n generalizing s with
  | zero => simp [recvFrame]
  | succ n ih =>
    unfold recvFrame
    split
    · next f hf => exact error_ne (recvpipe_ne s) hf
    · simp
    · split
      · exact ih _
      · simp

lemma xrecv_ne (n : ℕ) (s : Router) : s.xrecv n ≠ .error .insertFailed := by
  unfold xrecv
  split
  · split <;> simp
  split
  · next f hf => exact error_ne (recvFrame_ne n s) hf
  · simp
  · split <;> simp

lemma xhasIn_ne (n : ℕ) (s : Router) : s.xhasIn n ≠ .error .insertFailed := by
  unfold xhasIn
  split
  · simp
  split
  · simp
  · split
    · next f hf => exact error_ne (recvFrame_ne n s) hf
    · simp
    · simp

lemma xsend_ne (m : Msg) (s : Router) : s.xsend m ≠ .error .insertFailed := by
  have hident : s.sendIdentity m ≠ .error .insertFailed := by
    unfold sendIdentity
    simp only
    repeat' split
    all_goals simp
  have hpart : ∀ (t : Router) (m : Msg) (p : ℕ), t.sendPart m p ≠ .error .insertFailed := by
    intro t m p
    unfold sendPart
    split
    · split
      · next f hf => exact error_ne (terminatePipe_ne t p false) hf
      · simp
    · repeat' split
      all_goals simp
  unfold xsend
  split
  · simp only
    split
    · simp
    · split
      · next f hf => exact error_ne (hpart _ _ _) hf
      · simp
  · exact hident

lemma place_failed_iff {r : Except RouterFault (Bool × Router)} (f g : Router → Except RouterFault Router)
    (hf : ∀ t, f t ≠ .error .insertFailed) (hg : ∀ t, g t ≠ .error .insertFailed) :
    (match r with
      | .error e => (.error e : Except RouterFault Router)
      | .ok (true, t) => f t
      | .ok (false, t) => g t) = .error .insertFailed ↔ r = .error .insertFailed := by
  split
  · simp
  · next t => simp [hf t]
  · next t => simp [hg t]

lemma react_ne {before : Pipes} {e : Option SinkEvent}
    (he : e = some .readActivated → p ∉ s.anonymousPipes) :
    s.react before p e ≠ .error .insertFailed := by
  unfold react
  split
  · rw [xreadActivated, if_neg (he rfl)]
    split <;> simp
  · unfold xwriteActivated
    repeat' split
    all_goals simp
  · unfold xpipeTerminated
    repeat' split
    all_goals simp
  · simp

lemma step_failed_iff (s : Router) (a : RouterAct) :
    s.step a = .error .insertFailed ↔ ¬s.FreshIdentity a := by
  have hfresh : ∀ {x : ℕ × Router}, s.identifies a = some x →
      (¬s.FreshIdentity a ↔ x.2.identifyPeer x.1 = .error .insertFailed) := by
    intro x hx
    rw [identifyPeer_failed_iff]
    simp [FreshIdentity, hx, isSome_iff_ne_none]
  have hnone : s.identifies a = none → s.step a ≠ .error .insertFailed →
      (s.step a = .error .insertFailed ↔ ¬s.FreshIdentity a) := by
    intro hx hne
    refine iff_of_false hne (not_not_intro ?_)
    intro x hx'
    rw [hx] at hx'
    cases hx'
  cases a with
  | attach hwm0 hwm1 before =>
    cases hbefore : (s.addPipe hwm0 hwm1).peerActs s.inp.count before with
    | error f =>
      refine hnone (by simp [identifies, hbefore]) ?_
      simp only [step, hbefore]
      exact error_ne (peerActs_ne _ _ _) hbefore
    | ok t =>
      cases hprobe : t.probe s.inp.count with
      | error f =>
        refine hnone (by simp [identifies, hbefore, hprobe]) ?_
        simp only [step, hbefore, xattachPipe, hprobe]
        exact error_ne (probe_ne _ _) hprobe
      | ok u =>
        rw [hfresh (x := (s.inp.count, u)) (by simp [identifies, hbefore, hprobe])]
        simp only [step, hbefore, xattachPipe, hprobe]
        exact place_failed_iff _ (fun t => .ok { t with anonymousPipes := insert s.inp.count t.anonymousPipes })
          (fun t => fqAttach_ne t _) fun t => (by simp)
  | owner p a =>
    by_cases hlt : p < s.inp.count
    · cases hact : (s.inp.links p).socketAct a.1 with
      | error e => exact hnone (by simp [identifies, hact]) (by simp [step, owner, hlt, hact])
      | ok r =>
        obtain ⟨l, e⟩ := r
        by_cases hread : e = some .readActivated ∧ p ∈ s.anonymousPipes
        · obtain ⟨rfl, hanon⟩ := hread
          rw [hfresh (x := (p, s.setLink p l)) (by simp [identifies, hlt, hanon, hact])]
          have hanon' : p ∈ (s.setLink p l).anonymousPipes := hanon
          simp only [step, owner, if_pos hlt, hact, react, xreadActivated, if_pos hanon']
          exact place_failed_iff _ (fun t => .ok t) (fun t => fqAttach_ne _ _) fun t => (by simp)
        · have hnot : e = some .readActivated → p ∉ s.anonymousPipes := fun he hanon => hread ⟨he, hanon⟩
          refine hnone ?_ ?_
          · simp only [identifies, hact]
            split
            · next hp =>
              split
              · next heq => cases heq; exact absurd hp.2 (hnot rfl)
              · rfl
            · rfl
          · simp only [step, owner, if_pos hlt, hact]
            exact react_ne hnot
    · exact hnone (by simp [identifies, hlt]) (by simp [step, owner, hlt])
  | recv n => exact hnone rfl (map_error_iff.not.mpr (xrecv_ne n s))
  | hasIn n => exact hnone rfl (map_error_iff.not.mpr (xhasIn_ne n s))
  | send flags body => exact hnone rfl (map_error_iff.not.mpr (xsend_ne _ s))
  | peer p a => exact hnone rfl (peer_ne s p a)
  | setConnectRid rid | setRaw value | setMandatory value | setProbeRouter value | setHandover value =>
    exact hnone rfl (by simp [step])

/-- The identities are in order: every attached pipe is either anonymous, or it is in `outpipes` and in
the fair queue, and `outpipes` is a one-to-one map that has every pipe under its own identity. -/
structure IdentityTable (s : Router) : Prop where
  placed : ∀ p, s.Attached p →
    (p ∈ s.anonymousPipes ∧ ¬s.Listed p ∧ ¬s.inp.fq.Mem p) ∨
    (p ∉ s.anonymousPipes ∧ s.Listed p ∧ s.inp.fq.Mem p)
  injective : ∀ id id' p, s.pipeOf id = some p → s.pipeOf id' = some p → id = id'
  keyed : ∀ id p, s.pipeOf id = some p → s.identities p = id

lemma Table.identityTable (h : s.Table none) : s.IdentityTable where
  placed p hp := by
    have hqueued := h.queued p
    rcases (h.attached p).mpr hp with (hanon | hmem) | hout
    · exact .inl ⟨hanon, hqueued.not.mpr (h.apart p hanon), h.apart p hanon⟩
    · exact .inr ⟨fun hanon => h.apart p hanon hmem, hqueued.mpr hmem, hmem⟩
    · cases hout
  injective id id' p hid hid' := (h.keyed id p hid).symm.trans (h.keyed id' p hid')
  keyed := h.keyed

end Router

/-- **Identities of a ROUTER socket.** In all states that a run reaches the identities are in order, and
the assertion after an insertion fails exactly in those runs in which an identity is made up that a peer
has already. -/
theorem router_identity_table (rid : UInt32) (acts : List RouterAct) :
    (∀ s, (Router.new rid).run acts = .ok s → s.IdentityTable) ∧
      ((Router.new rid).run acts ≠ .error .insertFailed ↔
        StepsMeet Router.step Router.FreshIdentity (Router.new rid) acts) := by
  refine ⟨fun s hs => ?_, ?_⟩
  · have htrue : StepsMeet Router.step (fun _ _ => True) (Router.new rid) acts :=
      stepsMeet_of_forall (fun _ _ _ => trivial) _
    refine Router.Table.identityTable ?_
    exact runSteps_preserves (fun s a s' hI _ hstep => Router.step_table hI a s' hstep)
      (Router.new_table rid) htrue hs
  · rw [Ne, Router.run, runSteps_error_iff Router.step_failed_iff, not_not]

/-- A peer chooses the identity that the socket is going to make up, and another one does not choose
any. -/
theorem router_identity_taken :
    (Router.new 7).run
      [.attach 0 0 [.write .none (Router.autoIdentity 7), .flush], .attach 0 0 [.write .none [], .flush]] =
      .error .insertFailed := by
  rfl

end Zmq
