import ZeroMQ.Pattern.LbAtomic
import ZeroMQ.Pattern.Rep

/-!
# What leaves the output of a ROUTER socket alone

A ROUTER socket writes to its pipes in `xsend`, and to a new pipe if it probes the peer. Everything
else it does with its pipes, and everything their peers do, leaves the messages that were written and the
message in progress as they are: `Quiet`. The socket forgets the pipe of the message in progress only
when that pipe is gone.
-/

namespace Zmq

open Function Foundation Option Except

namespace Link

variable {s t u : Link} {a : EndAct} {e : Option SinkEvent}

/-- What happened to a pipe has left its outbound side to whoever writes to it. -/
def Quiet (s t : Link) : Prop :=
  ∀ w part, Written s w part → Written t w part ∧ (Ready s.near.pipe → Ready t.near.pipe)

namespace Quiet

lemma refl (s : Link) : Quiet s s := fun _ _ h => ⟨h, id⟩

lemma trans (h : Quiet s t) (h' : Quiet t u) : Quiet s u := by
  intro w part hs
  obtain ⟨ht, hready⟩ := h w part hs
  obtain ⟨hu, hready'⟩ := h' w part ht
  exact ⟨hu, hready' ∘ hready⟩

lemma of_move (halive : s.near.frees = 0) (ha : a.KeepsOutput)
    (hmove : ShutdownInv s → t = s ∨ s.Move a t none) : Quiet s t := by
  intro w part h
  obtain rfl | hmove := hmove h.out.shutdown
  · exact ⟨h, id⟩
  · have hframe := hmove.outFrame halive ha
    refine ⟨⟨h.out.keep halive ha hmove, h.waiting.keep hframe (by simp), h.ahead.near hmove⟩, ?_⟩
    exact hframe.ready (h.ahead.room hmove ha)

lemma of_succeeds {r : Except PipeFault Link} (halive : s.near.frees = 0) (ha : a.KeepsOutput)
    (hr : ShutdownInv s → s.Succeeds a r) (ht : r = .ok t) : Quiet s t := by
  refine of_move halive ha fun hs => ?_
  obtain ⟨t', ht', hmove⟩ := hr hs
  obtain rfl : t = t' := ok.inj (ht.symm.trans ht')
  exact hmove

lemma read {m : Option Msg} (halive : s.near.frees = 0) (h : s.read = .ok (m, t)) : Quiet s t :=
  of_move (a := .read) halive trivial fun hs => move_of_read hs halive h

lemma terminate {delay : Bool} (halive : s.near.frees = 0) (h : s.terminate delay = .ok t) : Quiet s t :=
  of_succeeds (a := .terminate delay) halive trivial (fun hs => hs.terminate_succeeds halive delay) h

lemma socketAct (ha : a.KeepsOutput) (h : s.socketAct a = .ok (t, e)) : Quiet s t := by
  intro w part hs
  obtain ⟨t', e', hact, ht, hframe⟩ := hs.socketAct ha
  obtain ⟨rfl, rfl⟩ := Prod.mk.inj (ok.inj (h.symm.trans hact))
  exact ⟨ht, hframe.ready⟩

lemma far (h : s.swap.act a = .ok (t, e)) : Quiet s t.swap := by
  intro w part hs
  obtain ⟨t', e', hact, ht, hnear, -⟩ := hs.far a
  obtain ⟨rfl, rfl⟩ := Prod.mk.inj (ok.inj (h.symm.trans hact))
  rw [hnear]
  exact ⟨ht, id⟩

end Quiet

end Link

namespace Router

variable {s t u : Router} {p q : ℕ} {id : Identity}

/-! ### Output -/

/-- The socket is not a raw one. -/
def Cooked (s : Router) : Prop := s.rawSock = false ∧ s.optionsRawSock = false

/-- Nothing was written. -/
structure Quiet (s t : Router) : Prop where
  count : t.inp.count = s.inp.count
  links : ∀ p < s.inp.count, Link.Quiet (s.inp.links p) (t.inp.links p)
  alive : ∀ p, (t.inp.links p).near.frees = 0 → (s.inp.links p).near.frees = 0
  cooked : s.Cooked → t.Cooked
  moreOut : t.moreOut = s.moreOut
  out : ∀ p, t.currentOut = some p → s.currentOut = some p
  held : ∀ p, s.currentOut = some p → (t.inp.links p).near.frees = 0 → t.currentOut = some p

namespace Quiet

lemma of_links (hlinks : t.inp.links = s.inp.links) (hcount : t.inp.count = s.inp.count)
    (hraw : (t.rawSock, t.optionsRawSock) = (s.rawSock, s.optionsRawSock))
    (hout : (t.moreOut, t.currentOut) = (s.moreOut, s.currentOut)) : Quiet s t := by
  obtain ⟨hraw1, hraw2⟩ := Prod.mk.inj hraw
  obtain ⟨hmore, hcur⟩ := Prod.mk.inj hout
  refine ⟨hcount, fun p _ => ?_, fun p => ?_, fun hs => ?_, hmore, fun p hp => ?_, fun p hp _ => ?_⟩
  · rw [hlinks]
    exact .refl _
  · rw [hlinks]
    exact fun h => h
  · rw [Cooked, hraw1, hraw2]
    exact hs
  · rwa [hcur] at hp
  · rwa [hcur]

lemma refl (s : Router) : Quiet s s := of_links rfl rfl rfl rfl

lemma trans (h : Quiet s t) (h' : Quiet t u) : Quiet s u where
  count := h'.count.trans h.count
  links p hp := (h.links p hp).trans (h'.links p (by rwa [h.count]))
  alive p hp := h.alive p (h'.alive p hp)
  cooked := h'.cooked ∘ h.cooked
  moreOut := h'.moreOut.trans h.moreOut
  out p hp := h.out p (h'.out p hp)
  held p hp hu := h'.held p (h.held p hp (h'.alive p hu)) hu

lemma setLink {l : Link} (hl : Link.Quiet (s.inp.links p) l)
    (hfrees : l.near.frees = 0 → (s.inp.links p).near.frees = 0) : Quiet s (s.setLink p l) := by
  refine ⟨rfl, fun q _ => ?_, fun q hq => ?_, fun h => h, rfl, fun _ h => h, fun _ h _ => h⟩
  · by_cases hq : q = p
    · subst hq
      simpa [Router.setLink] using hl
    · simpa [Router.setLink, hq] using Link.Quiet.refl _
  · by_cases hqp : q = p
    · subst hqp
      simp only [Router.setLink, update_self] at hq
      exact hfrees hq
    · simpa [Router.setLink, hqp] using hq

end Quiet

/-! ### Input -/

/-- The state of the prefetched message. -/
def inputState (s : Router) : Bool × Bool × Bool × Msg :=
  (s.moreIn, s.prefetched, s.identitySent, s.prefetchedId)

/-- The pipe of the last frame is known. -/
def Known (s : Router) : Prop :=
  ∀ p, s.inp.lastFrom = some p → p < s.inp.count ∧ p ∉ s.anonymousPipes

/-- Nothing was received, and no peer has an empty identity. -/
structure Settled (s t : Router) : Prop where
  inputState : t.inputState = s.inputState
  lastFrom : t.inp.lastFrom = s.inp.lastFrom
  anonymous : t.anonymousPipes ⊆ s.anonymousPipes
  unnamed : s.pipeOf [] = none → t.pipeOf [] = none

namespace Settled

lemma of_eq (hinput : t.inputState = s.inputState)
    (hrec : (t.inp.received, t.inp.receiving) = (s.inp.received, s.inp.receiving))
    (hanon : t.anonymousPipes = s.anonymousPipes) (hout : t.outpipes = s.outpipes) : Settled s t := by
  obtain ⟨h1, h2⟩ := Prod.mk.inj hrec
  refine ⟨hinput, ?_, fun p hp => ?_, fun hs => ?_⟩
  · rw [FqSystem.lastFrom, h1, h2]
    rfl
  · rwa [hanon] at hp
  · rwa [pipeOf, hout]

lemma refl (s : Router) : Settled s s := of_eq rfl rfl rfl rfl

lemma trans (h : Settled s t) (h' : Settled t u) : Settled s u where
  inputState := h'.inputState.trans h.inputState
  lastFrom := h'.lastFrom.trans h.lastFrom
  anonymous := h'.anonymous.trans h.anonymous
  unnamed := h'.unnamed ∘ h.unnamed

lemma setLink (s : Router) (p : ℕ) (l : Link) : Settled s (s.setLink p l) := of_eq rfl rfl rfl rfl

lemma known (h : Settled s t) (hcount : s.inp.count ≤ t.inp.count) (hs : s.Known) : t.Known := by
  intro p hp
  rw [h.lastFrom] at hp
  obtain ⟨hlt, hanon⟩ := hs p hp
  exact ⟨by omega, fun hmem => hanon (h.anonymous hmem)⟩

end Settled

/-! ### Identification -/

/-- Nothing was written or received. -/
def Idle (s t : Router) : Prop := Quiet s t ∧ Settled s t

lemma Idle.refl (s : Router) : Idle s s := ⟨.refl s, .refl s⟩

lemma Idle.trans (h : Idle s t) (h' : Idle t u) : Idle s u := ⟨h.1.trans h'.1, h.2.trans h'.2⟩

lemma Idle.setLink {l : Link} (hl : Link.Quiet (s.inp.links p) l)
    (hfrees : l.near.frees = 0 → (s.inp.links p).near.frees = 0) : Idle s (s.setLink p l) :=
  ⟨.setLink hl hfrees, .setLink s p l⟩

lemma autoIdentity_ne_nil (rid : UInt32) : autoIdentity rid ≠ [] := by simp [autoIdentity]

lemma insertOutpipe_idle (s : Router) (o : Outpipe) (hid : id ≠ []) :
    Ensures (s.insertOutpipe id o) (Idle s) := by
  unfold insertOutpipe
  split
  · exact .error _
  · refine .ok ⟨.of_links rfl rfl rfl rfl, rfl, rfl, Finset.Subset.refl _, fun hs => ?_⟩
    rw [pipeOf, AList.lookup_insert_ne hid.symm]
    exact hs

lemma register_idle (s : Router) (p : ℕ) (hid : id ≠ []) : Ensures (s.register p id) (Idle s) := by
  unfold register
  refine (insertOutpipe_idle _ _ hid).mono fun t ht => Idle.trans ?_ ht
  exact ⟨.of_links rfl rfl rfl rfl, .of_eq rfl rfl rfl rfl⟩

lemma registerAuto_idle (s : Router) (p : ℕ) : Ensures (s.registerAuto p) (Idle s) := by
  unfold registerAuto
  refine (register_idle _ p (autoIdentity_ne_nil _)).mono fun t ht => Idle.trans ?_ ht
  exact ⟨.of_links rfl rfl rfl rfl, .of_eq rfl rfl rfl rfl⟩

lemma terminatePipe_idle (delay : Bool) (halive : (s.inp.links p).near.frees = 0) :
    Ensures (s.terminatePipe p delay) (Idle s) := by
  unfold terminatePipe
  split
  · exact .error _
  · next l hl => exact .ok (.setLink (.terminate halive hl) fun _ => halive)

lemma handOver_idle {old : Outpipe} (halive : (s.inp.links old.pipe).near.frees = 0) :
    Ensures (s.handOver id old) (Idle s) := by
  unfold handOver
  simp only
  split
  · exact .error _
  next t ht =>
  have hinsert : Idle s t := by
    refine Idle.trans ?_ (insertOutpipe_idle _ _ (autoIdentity_ne_nil _) t ht)
    exact ⟨.of_links rfl rfl rfl rfl, .of_eq rfl rfl rfl rfl⟩
  have herase : Idle t { t with outpipes := t.outpipes.erase id } := by
    refine ⟨.of_links rfl rfl rfl rfl, rfl, rfl, Finset.Subset.refl _, fun hs => ?_⟩
    by_cases hid : id = []
    · subst hid
      simp [pipeOf]
    · rw [pipeOf, AList.lookup_erase_ne (Ne.symm hid)]
      exact hs
  have hlinks : t.inp = s.inp := by
    unfold insertOutpipe at ht
    split at ht
    · cases ht
    · rw [← ok.inj ht]
  refine (terminatePipe_idle true ?_).mono fun u hu => (hinsert.trans herase).trans hu
  simpa [hlinks] using halive

lemma identifyPeer_idle (hp : (s.inp.links p).near.frees = 0)
    (hlisted : ∀ q, s.Listed q → (s.inp.links q).near.frees = 0) :
    Ensures (s.identifyPeer p) fun r => Idle s r.2 := by
  have hadd : ∀ {t : Router} {r : Except RouterFault Router}, Idle s t → Ensures r (Idle t) →
      Ensures (r.map (true, ·)) fun r => Idle s r.2 := by
    intro t r hst hr
    exact Ensures.map (hr.mono fun u hu => hst.trans hu)
  unfold identifyPeer
  split
  · next hrid =>
    split
    · exact .error _
    · have hreset : Idle s { s with connectRid := [] } :=
        ⟨.of_links rfl rfl rfl rfl, .of_eq rfl rfl rfl rfl⟩
      exact hadd hreset (register_idle _ p hrid)
  · split
    · exact hadd (.refl s) (registerAuto_idle s p)
    · split
      · exact .error _
      · next l hl =>
        exact .ok (Idle.setLink (.read hp hl) fun _ => hp)
      · next m l hl =>
        have hset : Idle s (s.setLink p l) := .setLink (.read hp hl) fun _ => hp
        have hread : Idle s (s.identityRead p m l) := by
          refine hset.trans ⟨.of_links rfl rfl rfl rfl, .of_eq rfl rfl rfl rfl⟩
        simp only
        split
        · exact hadd hread (registerAuto_idle _ p)
        next hbody =>
        split
        · exact hadd hread (register_idle _ p hbody)
        next old hold =>
        split
        · have halive : ((s.identityRead p m l).inp.links old.pipe).near.frees = 0 := by
            rw [(identityRead_aside (Link.Lives.read _ _ hl).near).frees]
            exact hlisted _ ⟨m.body, by simpa [pipeOf, identityRead] using ⟨old, hold, rfl⟩⟩
          split
          · exact .error _
          · next t ht =>
            exact hadd (hread.trans (handOver_idle halive t ht)) (register_idle _ p hbody)
        · exact .ok hread

/-! ### Events of the pipes -/

lemma Table.listed_alive {out : Option ℕ} (hs : s.Table out) (hp : s.Listed p) :
    (s.inp.links p).near.frees = 0 :=
  ((hs.attached p).mp (.inl (.inr ((hs.queued p).mp hp)))).2

lemma fqAttach_idle (s : Router) (p : ℕ) : Ensures (s.fqAttach p) (Idle s) := by
  unfold fqAttach
  split
  · exact .error _
  · exact .ok ⟨.of_links rfl rfl rfl rfl, .of_eq rfl rfl rfl rfl⟩

lemma xreadActivated_idle (hs : s.Table none) : Ensures (s.xreadActivated p) (Idle s) := by
  unfold xreadActivated
  split
  · next hanon =>
    have hatt := (hs.attached p).mp (.inl (.inl hanon))
    have hspec := identifyPeer_idle hatt.2 fun q hq => hs.listed_alive hq
    split
    · exact .error _
    · next t ht =>
      have hst : Idle s t := hspec _ ht
      have herase : Idle t { t with anonymousPipes := t.anonymousPipes.erase p } :=
        ⟨.of_links rfl rfl rfl rfl, rfl, rfl, Finset.erase_subset _ _, fun h => h⟩
      exact (fqAttach_idle _ p).mono fun u hu => (hst.trans herase).trans hu
    · next t ht => exact .ok (hspec _ ht)
  · split
    · exact .error _
    · exact .ok ⟨.of_links rfl rfl rfl rfl, .of_eq rfl rfl rfl rfl⟩

lemma xwriteActivated_idle (s : Router) (p : ℕ) : Ensures (s.xwriteActivated p) (Idle s) := by
  unfold xwriteActivated
  split
  · exact .error _
  next id o ho =>
  split
  · exact .error _
  have hlookup : s.outpipes.lookup id = some o :=
    AList.mem_lookup_iff.mpr (List.mem_of_find?_eq_some ho)
  refine .ok ⟨.of_links rfl rfl rfl rfl, rfl, rfl, Finset.Subset.refl _, fun hs => ?_⟩
  rw [(Aside.mark hlookup true).pipeOf]
  exact hs

lemma xpipeTerminated_idle {before : Pipes} (hp : (s.inp.links p).near.frees ≠ 0) :
    Ensures (s.xpipeTerminated before p) (Idle s) := by
  unfold xpipeTerminated
  split
  · exact .ok ⟨.of_links rfl rfl rfl rfl, rfl, rfl, Finset.erase_subset _ _, fun h => h⟩
  split
  · split
    · exact .error _
    · next fq hfq =>
      refine .ok ⟨⟨rfl, fun _ _ => .refl _, fun _ h => h, fun h => h, rfl, fun q hq => ?_,
        fun q hq halive => ?_⟩, rfl, rfl, Finset.Subset.refl _, fun hs => ?_⟩
      · simp only at hq
        split at hq
        · cases hq
        · exact hq
      · -- the pipe that is gone is not the one that is held
        have hne : s.currentOut ≠ some p := by
          rintro heq
          obtain rfl := some.inj (hq.symm.trans heq)
          exact hp halive
        simp only [if_neg hne]
        exact hq
      · by_cases hid : s.identities p = []
        · simp [pipeOf, hid]
        · rw [pipeOf, AList.lookup_erase_ne (Ne.symm hid)]
          exact hs
  · exact .error _

lemma owner_idle (hs : s.Table none) (a : PipeAct) : Ensures (s.owner p a) (Idle s) := by
  unfold owner
  split
  · split
    · exact .error _
    · next l e hl =>
      have hends := Ends.socketAct _ _ _ hl
      have hset : Idle s (s.setLink p l) := by
        refine .setLink (.socketAct a.2.2 hl) fun hfrees => ?_
        by_cases he : e = some .pipeTerminated
        · exact absurd hfrees (hends.gone he).2
        · rw [← hends.stays he]
          exact hfrees
      by_cases he : e = some .pipeTerminated
      · subst he
        have hgone : ((s.setLink p l).inp.links p).near.frees ≠ 0 := by
          simpa [setLink] using (hends.gone rfl).2
        exact (xpipeTerminated_idle hgone).mono fun t ht => hset.trans ht
      · have htable := (Aside.setLink (hends.stays he)).renamed.table hs
        unfold react
        split
        · exact (xreadActivated_idle htable).mono fun t ht => hset.trans ht
        · exact (xwriteActivated_idle _ p).mono fun t ht => hset.trans ht
        · exact absurd rfl he
        · exact .ok hset
  · exact .ok (.refl s)

lemma peer_idle (s : Router) (p : ℕ) (a : EndAct) : Ensures (s.peer p a) (Idle s) := by
  unfold peer FqSystem.step
  simp only
  split
  · exact .error _
  next inp hinp =>
  refine .ok ?_
  split at hinp
  · split at hinp
    · cases hinp
    · next l e hl =>
      have hset : Idle s (s.setLink p l.swap) := by
        refine .setLink (.far hl) fun hfrees => ?_
        have hfar : l.far.frees = (s.inp.links p).near.frees := (Link.Ends.act _ _ _ hl).far
        exact hfar.symm.trans hfrees
      rw [← ok.inj hinp]
      exact hset.trans ⟨.of_links rfl rfl rfl rfl, .of_eq rfl rfl rfl rfl⟩
  · rw [← ok.inj hinp]
    exact .refl s

lemma peerActs_idle (s : Router) (p : ℕ) (as : List EndAct) : Ensures (s.peerActs p as) (Idle s) := by
  induction as generalizing s with
  | nil => exact .ok (.refl s)
  | cons a as ih =>
    unfold peerActs
    split
    · exact .error _
    · next t ht => exact (ih t).mono fun u hu => (peer_idle s p a t ht).trans hu

/-! ### Receiving -/

lemma record_lastFrom (s : FqSystem) (f : FrameFrom) : (s.record f).lastFrom = some f.2 := by
  unfold FqSystem.record
  split <;> simp [FqSystem.lastFrom]

/-- What receiving a frame means: nothing is written, and the frame comes from a peer that has been
identified. -/
structure Takes (s : Router) (r : Option FrameFrom × Router) : Prop where
  quiet : Quiet s r.2
  aside : Aside s r.2
  inputState : r.2.inputState = s.inputState
  known : s.Known → r.2.Known
  listed : ∀ f, r.1 = some f → s.Listed f.2

lemma search_quiet (hs : s.Table none) (onFail : Except PatternFault Unit) (n : ℕ) :
    Ensures (Ring.search .outOfBounds Fq.tryRead onFail Ring.deactivate n s.inp.fq.toRing s.inp.links)
      fun x => ∀ p, Link.Quiet (s.inp.links p) (x.2.2 p) ∧
        (x.2.2 p).near.frees = (s.inp.links p).near.frees := by
  refine Ring.search_ensures_mem (I := fun links : Pipes => ∀ p, Link.Quiet (s.inp.links p) (links p) ∧
    (links p).near.frees = (s.inp.links p).near.frees) hs.wf ?_ n fun p => ⟨.refl _, rfl⟩
  intro p links hp hlinks
  have halive : (links p).near.frees = 0 := by
    rw [(hlinks p).2]
    exact hs.listed_alive ((hs.queued p).mpr hp)
  unfold Fq.tryRead
  split
  · exact .error _
  next m l hl =>
  refine .ok fun q => ?_
  by_cases hq : q = p
  · subst hq
    have hfrees : l.near.frees = (links q).near.frees := (Link.Lives.read _ _ hl).near
    simp only [update_self]
    exact ⟨(hlinks q).1.trans (.read halive hl), hfrees.trans (hlinks q).2⟩
  · simpa [update_of_ne hq] using hlinks q

lemma fq_recvpipe_quiet (hs : s.Table none) {f : Option FrameFrom} {fq : Fq} {links : Pipes}
    (h : s.inp.fq.recvpipe s.inp.links = .ok (f, fq, links)) :
    (∀ p, Link.Quiet (s.inp.links p) (links p) ∧
      (links p).near.frees = (s.inp.links p).near.frees) ∧ ∀ g, f = some g → s.inp.fq.Mem g.2 := by
  unfold Fq.recvpipe at h
  split at h
  · cases h
  · next r links' hr =>
    cases h
    exact ⟨search_quiet hs _ _ _ hr, fun g hg => (by cases hg)⟩
  · next m r links' hr =>
    have hquiet := search_quiet hs _ _ _ hr
    split at h
    · cases h
    next p hp =>
    have hmem : s.inp.fq.Mem p :=
      ((Ring.SamePipes.of_search hs.wf hr).mem_iff p).mp (List.mem_of_getElem? hp)
    split at h
    · cases h
      exact ⟨hquiet, fun g hg => (by cases hg; exact hmem)⟩
    · cases h
      exact ⟨hquiet, fun g hg => (by cases hg; exact hmem)⟩

lemma recvpipe_takes (hs : s.Table none) : Ensures s.recvpipe (Takes s) := by
  intro r hr
  have haside := recvpipe_aside s r hr
  have hquiet : ∀ {fq : Fq} {links : Pipes} {received : List (List FrameFrom)}
      {receiving : List FrameFrom}, (∀ p, Link.Quiet (s.inp.links p) (links p) ∧
        (links p).near.frees = (s.inp.links p).near.frees) →
      Quiet s { s with inp := { s.inp with fq, links, received, receiving } } := by
    intro fq links received receiving hlinks
    refine ⟨rfl, fun p _ => (hlinks p).1, fun p hp => ?_, fun h => h, rfl, fun _ h => h, fun _ h _ => h⟩
    rw [← (hlinks p).2]
    exact hp
  unfold recvpipe at hr
  split at hr
  · cases hr
  · next fq links h =>
    cases hr
    exact ⟨hquiet (fq_recvpipe_quiet hs h).1, haside, rfl, fun hk => hk, fun f hf => (by cases hf)⟩
  · next f fq links h =>
    obtain ⟨hlinks, hmem⟩ := fq_recvpipe_quiet hs h
    have hf := hmem f rfl
    cases hr
    refine ⟨?_, haside, rfl, fun _ p hp => ?_, fun g hg => ?_⟩
    · unfold FqSystem.record
      split <;> exact hquiet hlinks
    · -- the pipe of the new frame is in the fair queue
      simp only [record_lastFrom] at hp
      obtain rfl := some.inj hp
      have hlt := ((hs.attached f.2).mp (.inl (.inr hf))).1
      refine ⟨?_, fun hanon => ?_⟩
      · rw [haside.count]
        exact hlt
      · rw [haside.anonymous] at hanon
        exact hs.apart _ hanon hf
    · obtain rfl := some.inj hg
      exact (hs.queued _).mpr hf

lemma recvFrame_takes (n : ℕ) (hs : s.Table none) : Ensures (s.recvFrame n) (Takes s) := by
  induction n generalizing s with
  | zero => exact .error _
  | succ n ih =>
    unfold recvFrame
    split
    · exact .error _
    · next t ht => exact .ok (recvpipe_takes hs _ ht)
    · next f t ht =>
      have hst := recvpipe_takes hs _ ht
      split
      · refine (ih (hst.aside.renamed.table hs)).mono fun r hr => ?_
        exact ⟨hst.quiet.trans hr.quiet, hst.aside.trans hr.aside, hr.inputState.trans hst.inputState,
          hr.known ∘ hst.known, fun g hg => (hst.aside.listed_iff _).mp (hr.listed g hg)⟩
      · exact .ok hst

/-- A message was received as a whole: the next frame will be the identity of a peer. -/
def Between (s : Router) : Prop := s.moreIn = false ∧ (s.prefetched = true → s.identitySent = false)

/-- What holds of the input side: no peer has an empty identity. -/
structure Input (s : Router) : Prop where
  known : s.Known
  unnamed : s.pipeOf [] = none
  prefetchedId : s.prefetched = true → s.identitySent = false →
    s.prefetchedId.more = true ∧ s.prefetchedId.body ≠ []

lemma Between.of_eq (h : s.Between) (heq : t.inputState = s.inputState) : t.Between := by
  simp only [inputState, Prod.mk.injEq] at heq
  obtain ⟨hmore, hpre, hsent, -⟩ := heq
  rwa [Between, hmore, hpre, hsent]

lemma Input.of_eq (h : s.Input) (heq : t.inputState = s.inputState) (hknown : t.Known)
    (hunnamed : t.pipeOf [] = none) : t.Input := by
  simp only [inputState, Prod.mk.injEq] at heq
  obtain ⟨-, hpre, hsent, hid⟩ := heq
  refine ⟨hknown, hunnamed, ?_⟩
  rw [hpre, hsent, hid]
  exact h.prefetchedId

lemma Settled.input (h : Settled s t) (hcount : s.inp.count ≤ t.inp.count) (hs : s.Input) : t.Input :=
  hs.of_eq h.inputState (h.known hcount hs.known) (h.unnamed hs.unnamed)

lemma Takes.input {r : Option FrameFrom × Router} (h : Takes s r) (hs : s.Input) : r.2.Input :=
  hs.of_eq h.inputState (h.known hs.known) ((h.aside.pipeOf []).trans hs.unnamed)

lemma Input.identity_ne_nil (h : s.Input) (hs : s.Table none) (hp : s.Listed p) : s.identities p ≠ [] := by
  obtain ⟨id, hid⟩ := hp
  rw [hs.keyed id p hid]
  rintro rfl
  rw [h.unnamed] at hid
  cases hid

/-- What `xrecv` does: between two messages it returns the identity of a peer, and after a frame without
more to come it is between two messages. -/
structure Receives (s : Router) (r : Option Msg × Router) : Prop where
  quiet : Quiet s r.2
  aside : Aside s r.2
  input : r.2.Input
  between : r.1 = none → s.Between → r.2.Between
  first : ∀ m, r.1 = some m → s.Between → m.more = true ∧ m.body ≠ []
  last : ∀ m, r.1 = some m → m.more = false → r.2.Between

lemma xrecv_receives (n : ℕ) (hs : s.Table none) (hin : s.Input) : Ensures (s.xrecv n) (Receives s) := by
  unfold xrecv
  split
  · next hpre =>
    split
    · next hsent =>
      refine .ok ⟨.of_links rfl rfl rfl rfl, .of_inp rfl rfl rfl, ⟨hin.known, hin.unnamed, ?_⟩, ?_, ?_, ?_⟩
      · exact fun hcon => (by cases hcon)
      · exact fun hnone => (by cases hnone)
      · exact fun m _ hbet => absurd (hbet.2 hpre) (by rw [hsent]; decide)
      · intro m hm hmore
        obtain rfl := some.inj hm
        exact ⟨hmore, fun hcon => (by cases hcon)⟩
    · next hsent =>
      have hid := hin.prefetchedId hpre (by simpa using hsent)
      refine .ok ⟨.of_links rfl rfl rfl rfl, .of_inp rfl rfl rfl, ⟨hin.known, hin.unnamed, ?_⟩, ?_, ?_, ?_⟩
      · exact fun _ hcon => (by cases hcon)
      · exact fun hnone => (by cases hnone)
      · intro m hm _
        obtain rfl := some.inj hm
        exact hid
      · intro m hm hmore
        obtain rfl := some.inj hm
        rw [hid.1] at hmore
        cases hmore
  · next hpre =>
    split
    · exact .error _
    · next t ht =>
      have htakes := recvFrame_takes n hs _ ht
      refine .ok ⟨htakes.quiet, htakes.aside, htakes.input hin, fun _ hbet => hbet.of_eq htakes.inputState, ?_, ?_⟩
      · exact fun m hm => (by cases hm)
      · exact fun m hm => (by cases hm)
    · next m p t ht =>
      have htakes := recvFrame_takes n hs _ ht
      have htin : t.Input := htakes.input hin
      have hpre' : t.prefetched = false := by
        have heq : t.prefetched = s.prefetched := congrArg (fun x => x.2.1) htakes.inputState
        rw [heq]
        simpa using hpre
      have hmoreIn : t.moreIn = s.moreIn := congrArg Prod.fst htakes.inputState
      split
      · next hmore =>
        refine .ok ⟨htakes.quiet.trans (.of_links rfl rfl rfl rfl), htakes.aside.trans (.of_inp rfl rfl rfl),
          ⟨htin.known, htin.unnamed, ?_⟩, ?_, ?_, ?_⟩
        · exact fun hcon => absurd hcon (by simp [hpre'])
        · exact fun hnone => (by cases hnone)
        · intro m' _ hbet
          rw [hmoreIn, hbet.1] at hmore
          cases hmore
        · intro m' hm' hlast
          obtain rfl := some.inj hm'
          exact ⟨hlast, fun hcon => absurd hcon (by simp [hpre'])⟩
      · refine .ok ⟨htakes.quiet.trans (.of_links rfl rfl rfl rfl), htakes.aside.trans (.of_inp rfl rfl rfl),
          ⟨htin.known, htin.unnamed, ?_⟩, ?_, ?_, ?_⟩
        · exact fun _ hcon => (by cases hcon)
        · exact fun hnone => (by cases hnone)
        · intro m' hm' _
          obtain rfl := some.inj hm'
          have hlisted := (htakes.aside.listed_iff p).mpr (htakes.listed _ rfl)
          exact ⟨rfl, htin.identity_ne_nil (htakes.aside.renamed.table hs) hlisted⟩
        · intro m' hm' hlast
          obtain rfl := some.inj hm'
          cases hlast

lemma xhasIn_receives (n : ℕ) (hs : s.Table none) (hin : s.Input) :
    Ensures (s.xhasIn n) fun r => Quiet s r.2 ∧ Aside s r.2 ∧ r.2.Input ∧ (s.Between → r.2.Between) := by
  unfold xhasIn
  split
  · exact .ok ⟨.refl s, .refl s, hin, fun h => h⟩
  split
  · exact .ok ⟨.refl s, .refl s, hin, fun h => h⟩
  · split
    · exact .error _
    · next t ht =>
      have htakes := recvFrame_takes n hs _ ht
      exact .ok ⟨htakes.quiet, htakes.aside, htakes.input hin, fun hbet => hbet.of_eq htakes.inputState⟩
    · next m p t ht =>
      have htakes := recvFrame_takes n hs _ ht
      have htin : t.Input := htakes.input hin
      have hlisted := (htakes.aside.listed_iff p).mpr (htakes.listed _ rfl)
      have hid := htin.identity_ne_nil (htakes.aside.renamed.table hs) hlisted
      refine .ok ⟨htakes.quiet.trans (.of_links rfl rfl rfl rfl), htakes.aside.trans (.of_inp rfl rfl rfl),
        ⟨htin.known, htin.unnamed, fun _ _ => ⟨rfl, hid⟩⟩, fun hbet => ?_⟩
      exact ⟨(hbet.of_eq htakes.inputState).1, fun _ => rfl⟩

end Router

end Zmq
