import ZeroMQ.Pattern.RouterPoll

/-!
# STREAM

`stream_t` talks to peers that know nothing of messages. What is read from a connection comes as a frame
of its own, and the application receives it behind a frame with the identity of the connection, which
the socket makes up if the application has not chosen one.

As in a ROUTER socket `xhas_in` has to take a frame from the fair queue and keeps it for `xrecv`. There
are no identities to skip and no further frames, so there is no flag for the middle of a message.
-/

namespace Zmq

open Foundation Function List

/-- `stream_t`. -/
structure Stream where
  /-- `fq` and the pipes. -/
  inp : FqSystem
  /-- `pipe_t::identity` of every pipe. -/
  identities : ℕ → Identity
  outpipes : AList fun _ : Identity => Outpipe
  currentOut : Option ℕ
  moreOut : Bool
  nextRid : UInt32
  connectRid : List UInt8
  prefetched : Bool
  identitySent : Bool
  prefetchedId : Msg
  prefetchedMsg : Msg
  /-- The frames `xrecv` has returned. -/
  returned : List Msg

namespace Stream

/-- The constructor of `stream_t`; the first identity it makes up is random. -/
def new (nextRid : UInt32) : Stream where
  inp := FqSystem.new
  identities := fun _ => []
  outpipes := ∅
  currentOut := none
  moreOut := false
  nextRid := nextRid
  connectRid := []
  prefetched := false
  identitySent := false
  prefetchedId := Dealer.probeMsg
  prefetchedMsg := Dealer.probeMsg
  returned := []

/-- Something happens to a pipe. -/
def setLink (p : ℕ) (l : Link) (s : Stream) : Stream :=
  { s with inp := { s.inp with links := update s.inp.links p l } }

/-! ### Pipes -/

/-- The end of `identify_peer`. -/
def register (p : ℕ) (id : Identity) (s : Stream) : Except RouterFault Stream :=
  if (s.outpipes.lookup id).isSome then .error .insertFailed
  else .ok { s with identities := update s.identities p id
                    outpipes := s.outpipes.insert id ⟨p, true⟩ }

/-- `identify_peer`. -/
def identifyPeer (p : ℕ) (s : Stream) : Except RouterFault Stream :=
  if s.connectRid ≠ [] then
    if (s.outpipes.lookup s.connectRid).isSome then .error .duplicateRid
    else { s with connectRid := [] }.register p s.connectRid
  else { s with nextRid := s.nextRid + 1 }.register p (Router.autoIdentity s.nextRid)

/-- `xattach_pipe`. -/
def xattachPipe (p : ℕ) (s : Stream) : Except RouterFault Stream :=
  match s.identifyPeer p with
  | .error f => .error f
  | .ok s =>
    match s.inp.fq.attach p with
    | none => .error (.fq .outOfBounds)
    | some fq => .ok { s with inp := { s.inp with fq } }

/-- `xpipe_terminated`; `before` are the pipes before the event. -/
def xpipeTerminated (before : Pipes) (p : ℕ) (s : Stream) : Except RouterFault Stream :=
  if (s.outpipes.lookup (s.identities p)).isSome then
    match s.inp.fq.pipeTerminated p before with
    | none => .error (.fq .outOfBounds)
    | some fq => .ok { s with outpipes := s.outpipes.erase (s.identities p)
                              inp := { s.inp with fq }
                              currentOut := if s.currentOut = some p then none else s.currentOut }
  else .error .assertFailed

/-- `xread_activated`. -/
def xreadActivated (p : ℕ) (s : Stream) : Except RouterFault Stream :=
  match s.inp.fq.activated p with
  | none => .error (.fq .outOfBounds)
  | some fq => .ok { s with inp := { s.inp with fq } }

/-- `xwrite_activated`. -/
def xwriteActivated (p : ℕ) (s : Stream) : Except RouterFault Stream :=
  match s.outpipes.entries.find? fun e => e.2.pipe = p with
  | none => .error .assertFailed
  | some ⟨id, o⟩ =>
    if o.active then .error .assertFailed
    else .ok { s with outpipes := s.outpipes.insert id { o with active := true } }

/-- An event of a pipe. -/
def react (before : Pipes) (p : ℕ) (s : Stream) : Option SinkEvent → Except RouterFault Stream
  | some .readActivated => s.xreadActivated p
  | some .writeActivated => s.xwriteActivated p
  | some .pipeTerminated => s.xpipeTerminated before p
  | _ => .ok s

/-- `fq.recvpipe`, and the assertion that the frame is a message of its own. -/
def recvpipe (s : Stream) : Except RouterFault (Option FrameFrom × Stream) :=
  match s.inp.fq.recvpipe s.inp.links with
  | .error e => .error (.fq e)
  | .ok (none, fq, links) => .ok (none, { s with inp := { s.inp with fq, links } })
  | .ok (some f, fq, links) =>
    if f.1.more then .error .assertFailed
    else .ok (some f, { s with inp := { s.inp with fq, links }.record f })

/-- `stream_t::xrecv`; without a result, `EAGAIN`. -/
def xrecv (s : Stream) : Except RouterFault (Option Msg × Stream) :=
  if s.prefetched then
    if s.identitySent then .ok (some s.prefetchedMsg, { s with prefetched := false })
    else .ok (some s.prefetchedId, { s with identitySent := true })
  else
    match s.recvpipe with
    | .error f => .error f
    | .ok (none, s) => .ok (none, s)
    | .ok (some (m, p), s) =>
      .ok (some (Router.identityMsg (s.identities p)),
        { s with prefetchedMsg := m, prefetched := true, identitySent := true })

/-- `stream_t::xhas_in`. -/
def xhasIn (s : Stream) : Except RouterFault (Bool × Stream) :=
  if s.prefetched then .ok (true, s)
  else
    match s.recvpipe with
    | .error f => .error f
    | .ok (none, s) => .ok (false, s)
    | .ok (some (m, p), s) =>
      .ok (true, { s with prefetchedMsg := m, prefetchedId := Router.identityMsg (s.identities p)
                          prefetched := true, identitySent := false })

/-! ### Sending -/

/-- The first part of a message is the identity of the connection it goes to. -/
def sendIdentity (m : Msg) (s : Stream) : Except RouterFault (Except RouterErrno Unit × Stream) :=
  if s.currentOut ≠ none then .error .assertFailed
  else if m.more then
    match s.outpipes.lookup m.body with
    | none => .ok (.error .ehostunreach, s)
    | some o =>
      match (s.inp.links o.pipe).checkWrite with
      | (true, l) => .ok (.ok (), { s.setLink o.pipe l with moreOut := true, currentOut := some o.pipe })
      | (false, l) => .ok (.error .eagain,
          { s.setLink o.pipe l with outpipes := s.outpipes.insert m.body { o with active := false } })
  else .ok (.ok (), { s with moreOut := true })

/-- `stream_t::xsend`. -/
def xsend (m : Msg) (s : Stream) : Except RouterFault (Except RouterErrno Unit × Stream) :=
  if s.moreOut then
    let m := { m with flags := { m.flags with more := false } }
    let s := { s with moreOut := false }
    match s.currentOut with
    | none => .ok (.ok (), s)
    | some p =>
      if m.body = [] then
        match (s.inp.links p).terminate false with
        | .error e => .error (.fq (.pipe e))
        | .ok l => .ok (.ok (), { s.setLink p l with currentOut := none })
      else
        match (s.inp.links p).write m with
        | .error e => .error (.fq (.pipe e))
        | .ok (false, l) => .ok (.ok (), { s.setLink p l with currentOut := none })
        | .ok (true, l) =>
          match l.flush with
          | .error e => .error (.fq (.pipe e))
          | .ok l => .ok (.ok (), { s.setLink p l with currentOut := none })
  else s.sendIdentity m

end Stream

/-- A step of a STREAM socket, its pipes and their peers. -/
inductive StreamAct
  /-- A new pipe is attached; before that its peer may have done something. -/
  | attach (hwm₀ hwm₁ : ℤ) (before : List EndAct)
  | recv
  | hasIn
  | send (flags : MsgFlags) (body : List UInt8)
  | setConnectRid (rid : List UInt8)
  /-- The socket does something else with a pipe. -/
  | owner (pipe : ℕ) (act : PipeAct)
  /-- The peer of a pipe does something. -/
  | peer (pipe : ℕ) (act : EndAct)

namespace Stream

/-- A new pipe. -/
def addPipe (hwm₀ hwm₁ : ℤ) (inp : FqSystem) : FqSystem :=
  { inp with
    links := update inp.links inp.count (Link.pipepair hwm₀ hwm₁)
    count := inp.count + 1 }

/-- The socket does something with a pipe; there may be an event. -/
def owner (p : ℕ) (a : PipeAct) (s : Stream) : Except RouterFault Stream :=
  if p < s.inp.count then
    match (s.inp.links p).socketAct a.1 with
    | .error e => .error (.fq (.pipe e))
    | .ok (l, e) => (s.setLink p l).react s.inp.links p e
  else .ok s

/-- A frame that `xrecv` returns. -/
def recordReturned (r : Option Msg × Stream) : Stream :=
  { r.2 with returned := r.2.returned ++ r.1.toList }

/-- One step. Acts on pipes that do not exist do nothing. -/
def step (s : Stream) : StreamAct → Except RouterFault Stream
  | .attach hwm₀ hwm₁ before =>
    match (addPipe hwm₀ hwm₁ s.inp).run (before.map (.peer s.inp.count)) with
    | .error e => .error (.fq e)
    | .ok inp => { s with inp }.xattachPipe s.inp.count
  | .recv => s.xrecv.map recordReturned
  | .hasIn => s.xhasIn.map Prod.snd
  | .send flags body => (s.xsend ⟨.data, flags, body⟩).map Prod.snd
  | .setConnectRid rid => .ok (if rid = [] then s else { s with connectRid := rid })
  | .owner p a => s.owner p a
  | .peer p a =>
    match s.inp.step (.peer p a) with
    | .error e => .error (.fq e)
    | .ok inp => .ok { s with inp }

/-- A sequence of steps. -/
def run (s : Stream) (acts : List StreamAct) : Except RouterFault Stream := runSteps step s acts

/-! ### The invariant -/

variable {s t : Stream} {p : ℕ} {m : Msg} {ids : ℕ → Identity} {g : List FrameFrom}

/-- The identity of the connection and what was read from it. -/
def block (ids : ℕ → Identity) (g : List FrameFrom) : List Msg :=
  match g with
  | [] => []
  | f :: fs => Router.identityMsg (ids f.2) :: (f :: fs).map Prod.fst

/-- The blocks of the frames taken from the fair queue. -/
def blocks (ids : ℕ → Identity) (inp : FqSystem) : List Msg :=
  (inp.received ++ [inp.receiving]).flatMap (block ids)

/-- The frames that wait for `xrecv`. -/
def staged (s : Stream) : List Msg :=
  if s.prefetched then
    if s.identitySent then [s.prefetchedMsg] else [s.prefetchedId, s.prefetchedMsg]
  else []

/-- Every frame is a message of its own. -/
def Single (published : List (List Msg)) (pending : List Msg) : Prop :=
  (∀ g ∈ published, g.length = 1) ∧ pending = []

lemma block_congr {ids' : ℕ → Identity} (h : ∀ f ∈ g, ids' f.2 = ids f.2) :
    block ids' g = block ids g := by
  cases g with
  | nil => rfl
  | cons f fs => simp [block, h f mem_cons_self]

lemma receiving_nil {inp : FqSystem} (h : FqInv inp)
    (hsingle : ∀ p, Single (inp.published p) (inp.pending p)) : inp.receiving = [] := by
  by_contra hne
  obtain ⟨p, -, -, rest, hrest, hlead⟩ := h.atomic.receiving hne
  have hlen := (hsingle p).1 _ (hlead.subset (mem_append_right _ mem_cons_self))
  have hpos : 0 < inp.receiving.length ∧ 0 < rest.length :=
    ⟨length_pos_iff.mpr hne, length_pos_iff.mpr hrest⟩
  simp only [length_append, length_map] at hlen
  omega

/-- The fields of the socket that have to do with receiving, and what it has returned. -/
def inState (s : Stream) : Bool × Bool × Msg × Msg × List Msg :=
  (s.prefetched, s.identitySent, s.prefetchedId, s.prefetchedMsg, s.returned)

/-- What was returned and what is kept are the blocks of the frames taken from the fair queue. -/
structure Polling (s : Stream) : Prop where
  inv : FqInv s.inp
  single : ∀ p, Single (s.inp.published p) (s.inp.pending p)
  stream : s.returned ++ s.staged = blocks s.identities s.inp

namespace Polling

lemma new (rid : UInt32) : (Stream.new rid).Polling where
  inv := FqInv.new
  single p := ⟨fun g hg => (by cases hg), rfl⟩
  stream := rfl

lemma receiving (h : s.Polling) : s.inp.receiving = [] := receiving_nil h.inv h.single

lemma still (h : s.Polling) (hinv : FqInv t.inp)
    (hsingle : ∀ p, Single (t.inp.published p) (t.inp.pending p))
    (hrec : t.inp.received = s.inp.received)
    (hids : ∀ p < s.inp.count, t.identities p = s.identities p) (hstate : t.inState = s.inState) :
    t.Polling := by
  simp only [inState, Prod.mk.injEq] at hstate
  obtain ⟨hpre, hsent, hpid, hpmsg, hret⟩ := hstate
  have hstaged : t.staged = s.staged := by
    simp only [staged, hpre, hsent, hpid, hpmsg]
  have hblocks : blocks t.identities t.inp = blocks s.identities s.inp := by
    rw [blocks, blocks, hrec, receiving_nil hinv hsingle, h.receiving]
    refine flatMap_congr fun g hg => block_congr fun f hf => hids f.2 ?_
    rcases mem_append.mp hg with hg | hg
    · obtain ⟨p, hp, hfrom, -⟩ := h.inv.received g hg
      rw [hfrom f hf]
      exact hp
    · rw [mem_singleton.mp hg] at hf
      cases hf
  exact ⟨hinv, hsingle, by rw [hret, hstaged, hblocks, h.stream]⟩

/-- What the next frame is, and that it is a message of its own. -/
inductive Taken (s : Stream) : Prop
  | nothing (inp : FqSystem) (heq : s.recvpipe = .ok (none, { s with inp })) (hinv : FqInv inp)
      (hsingle : ∀ p, Single (inp.published p) (inp.pending p))
      (hblocks : blocks s.identities inp = blocks s.identities s.inp)
  | frame (m : Msg) (p : ℕ) (inp : FqSystem) (heq : s.recvpipe = .ok (some (m, p), { s with inp }))
      (hinv : FqInv inp) (hsingle : ∀ p, Single (inp.published p) (inp.pending p))
      (hblocks : blocks s.identities inp =
        blocks s.identities s.inp ++ [Router.identityMsg (s.identities p), m])

lemma taken (h : s.Polling) : Taken s := by
  obtain ⟨fq, links, heq, hnil, hinv, -⟩ | ⟨m, p, fq, links, heq, hinv, -⟩ :=
    h.inv.recvpipe (Router.Polling.good_of_nil h.inv h.receiving)
  · exact .nothing { s.inp with fq, links } (by simp only [recvpipe, heq]) hinv h.single rfl
  obtain ⟨hpub, hpend, -, -, hreceiving⟩ := Router.record_fields { s.inp with fq, links } (m, p)
  have hsingle : ∀ q, Single ((FqSystem.record { s.inp with fq, links } (m, p)).published q)
      ((FqSystem.record { s.inp with fq, links } (m, p)).pending q) := by
    rw [hpub, hpend]
    exact h.single
  have hlast : m.more = false := by
    have hnil := receiving_nil hinv hsingle
    by_contra hmore
    rw [hreceiving, if_pos (by simpa using hmore)] at hnil
    simp at hnil
  refine .frame m p _ ?_ hinv hsingle ?_
  · simp [recvpipe, heq, hlast]
  · simp [FqSystem.record, hlast, blocks, h.receiving, block]

lemma xrecv (h : s.Polling) :
    ∃ r t, s.xrecv = .ok (r, t) ∧ Polling (recordReturned (r, t)) ∧ (s.prefetched = true → r ≠ none) := by
  have hstream := h.stream
  unfold Stream.xrecv
  split
  · next hpre =>
    simp only [staged, hpre, if_true] at hstream
    split
    · next hsent =>
      refine ⟨_, _, rfl, ⟨h.inv, h.single, ?_⟩, fun _ => (by simp)⟩
      simpa [recordReturned, staged, hsent] using hstream
    · next hsent =>
      refine ⟨_, _, rfl, ⟨h.inv, h.single, ?_⟩, fun _ => (by simp)⟩
      simpa [recordReturned, staged, hsent, hpre] using hstream
  · next hpre =>
    simp only [staged, hpre, if_false, Bool.false_eq_true, append_nil] at hstream
    rcases h.taken with ⟨inp, heq, hinv, hsingle, hblocks⟩ | ⟨m, p, inp, heq, hinv, hsingle, hblocks⟩
    · rw [heq]
      refine ⟨_, _, rfl, ⟨hinv, hsingle, ?_⟩, fun hcon => absurd hcon hpre⟩
      simpa [recordReturned, staged, hpre] using hstream.trans hblocks.symm
    · rw [heq]
      refine ⟨_, _, rfl, ⟨hinv, hsingle, ?_⟩, fun _ => (by simp)⟩
      simpa [recordReturned, staged, hstream] using hblocks.symm

lemma xhasIn (h : s.Polling) :
    ∃ b t, s.xhasIn = .ok (b, t) ∧ t.Polling ∧ (b = true → t.prefetched = true) := by
  have hstream := h.stream
  unfold Stream.xhasIn
  split
  · next hpre => exact ⟨_, _, rfl, h, fun _ => hpre⟩
  next hpre =>
  simp only [staged, hpre, if_false, Bool.false_eq_true, append_nil] at hstream
  rcases h.taken with ⟨inp, heq, hinv, hsingle, hblocks⟩ | ⟨m, p, inp, heq, hinv, hsingle, hblocks⟩
  · rw [heq]
    refine ⟨_, _, rfl, ⟨hinv, hsingle, ?_⟩, fun hcon => (by cases hcon)⟩
    simpa [staged, hpre] using hstream.trans hblocks.symm
  · rw [heq]
    refine ⟨_, _, rfl, ⟨hinv, hsingle, ?_⟩, fun _ => rfl⟩
    simpa [staged, hstream] using hblocks.symm

end Polling

end Stream

/-- The peer writes frames that are messages of their own, as the raw decoder makes them. -/
def EndAct.WritesSingle (a : EndAct) : Prop :=
  match a with
  | .write flags _ => flags.more = false
  | _ => True

instance (a : EndAct) : Decidable a.WritesSingle :=
  match a with
  | .write _ _ => inferInstanceAs (Decidable (_ = false))
  | .terminate _ | .setNodelay | .checkRead | .read | .checkWrite | .rollback | .flush | .hiccup
  | .deliver => inferInstanceAs (Decidable True)

namespace Stream

variable {s t : Stream} {p : ℕ} {l : Link} {published : List (List Msg)} {pending : List Msg}

open FqSystem (Newcomer)

/-! ### Steps -/

lemma single_publish {a : EndAct} (h : Single published pending) (ha : a.WritesSingle) :
    Single (l.publish a published pending).1 (l.publish a published pending).2 := by
  obtain ⟨hpub, rfl⟩ := h
  cases a with
  | write flags body =>
    have hmore : flags.more = false := ha
    simp only [Link.publish, hmore]
    split
    · refine ⟨fun g hg => ?_, rfl⟩
      rcases mem_append.mp hg with hg | hg
      · exact hpub g hg
      · rw [mem_singleton.mp hg]
        rfl
    · exact ⟨hpub, rfl⟩
  | _ => exact ⟨hpub, rfl⟩

lemma peer_fields {inp inp' : FqSystem} {a : EndAct} (h : inp.step (.peer p a) = .ok inp')
    (hsingle : ∀ q, Single (inp.published q) (inp.pending q)) (ha : a.WritesSingle) :
    (∀ q, Single (inp'.published q) (inp'.pending q)) ∧ inp'.received = inp.received := by
  simp only [FqSystem.step] at h
  split at h
  · split at h
    · cases h
    · rw [← Except.ok.inj h]
      refine ⟨fun q => ?_, rfl⟩
      by_cases hq : q = p
      · subst hq
        simp only [update_self]
        exact single_publish (hsingle q) ha
      · simp only [update_of_ne hq]
        exact hsingle q
  · rw [← Except.ok.inj h]
    exact ⟨hsingle, rfl⟩

lemma Polling.owner (h : s.Polling) (a : PipeAct) : Ensures (s.owner p a) Polling := by
  unfold Stream.owner
  split
  swap
  · exact .ok h
  next hp =>
  split
  · exact .error _
  next l e hact =>
  have hgood : s.inp.Good (.owner p ⟨a.1, a.2.1⟩) := by
    intro hmore
    cases h.inv.phase with
    | between hmore' => simp [hmore'] at hmore
    | inside q hmore' hcur hne => exact absurd h.receiving hne
  obtain ⟨u, hstep, hinv⟩ := h.inv.socketAct a.2.1 hp hgood hact
  have hset : FqInv (s.setLink p l).inp → Polling (s.setLink p l) := fun hl =>
    h.still hl h.single rfl (fun _ _ => rfl) rfl
  rcases e with _ | e
  · cases hstep
    exact .ok (hset hinv)
  cases e with
  | readActivated =>
    simp only [FqSystem.react] at hstep
    simp only [react, xreadActivated]
    split at hstep
    · cases hstep
    next fq hfq =>
    cases hstep
    have hfq' : (s.setLink p l).inp.fq.activated p = some fq := hfq
    rw [hfq']
    exact .ok (h.still hinv h.single rfl (fun _ _ => rfl) rfl)
  | writeActivated =>
    cases hstep
    simp only [react, xwriteActivated]
    split
    · exact .error _
    · split
      · exact .error _
      · exact .ok (h.still hinv h.single rfl (fun _ _ => rfl) rfl)
  | hiccuped =>
    cases hstep
    exact .ok (hset hinv)
  | pipeTerminated =>
    simp only [FqSystem.react] at hstep
    simp only [react, xpipeTerminated]
    split
    · split at hstep
      · cases hstep
      · next fq hfq =>
        cases hstep
        have hfq' : (s.setLink p l).inp.fq.pipeTerminated p s.inp.links = some fq := hfq
        rw [hfq']
        exact .ok (h.still hinv h.single rfl (fun _ _ => rfl) rfl)
    · exact .error _

lemma peerActs_newcomer (inp : FqSystem) (h : Newcomer l published pending) (hsingle : Single published pending)
    {as : List EndAct} (has : ∀ a ∈ as, a.WritesSingle) :
    Ensures ((inp.withPipe l published pending).run (as.map (.peer inp.count))) fun inp' =>
      ∃ l' published' pending', inp' = inp.withPipe l' published' pending' ∧
        Newcomer l' published' pending' ∧ Single published' pending' := by
  induction as generalizing l published pending with
  | nil => exact .ok ⟨l, published, pending, rfl, h, hsingle⟩
  | cons a as ih =>
    obtain ⟨l', published', pending', hstep, hnew, hpub⟩ := h.peer inp a
    have hsingle' : Single published' pending' := by
      rcases hpub with heq | heq
      · obtain ⟨rfl, rfl⟩ := Prod.mk.inj heq
        exact hsingle
      · have hnext := single_publish (l := l) hsingle (has a mem_cons_self)
        rw [← heq] at hnext
        exact hnext
    rw [map_cons, FqSystem.run, runSteps_cons_ok hstep]
    exact ih hnew hsingle' fun b hb => has b (mem_cons_of_mem _ hb)

lemma identifyPeer_fields : Ensures (s.identifyPeer p) fun t => t.inp = s.inp ∧ t.inState = s.inState ∧
    ∀ q ≠ p, t.identities q = s.identities q := by
  have hregister : ∀ (u : Stream) (id : Identity), u.inp = s.inp → u.inState = s.inState →
      u.identities = s.identities → Ensures (u.register p id) fun t => t.inp = s.inp ∧
        t.inState = s.inState ∧ ∀ q ≠ p, t.identities q = s.identities q := by
    intro u id hinp hstate hids
    unfold register
    split
    · exact .error _
    · refine .ok ⟨hinp, hstate, fun q hq => ?_⟩
      simp only [update_of_ne hq, hids]
  unfold identifyPeer
  split
  · split
    · exact .error _
    · exact hregister _ _ rfl rfl rfl
  · exact hregister _ _ rfl rfl rfl

lemma Polling.attach (h : s.Polling) {hwm0 hwm1 : ℤ} {before : List EndAct}
    (hbefore : ∀ a ∈ before, a.WritesSingle) : Ensures (s.step (.attach hwm0 hwm1 before)) Polling := by
  obtain ⟨hpub, hpend⟩ := h.inv.silent s.inp.count (Nat.le_refl _)
  have hsame : update s.inp.published s.inp.count [] = s.inp.published ∧
      update s.inp.pending s.inp.count [] = s.inp.pending :=
    ⟨update_eq_self_iff.mpr hpub.symm, update_eq_self_iff.mpr hpend.symm⟩
  have hadd : addPipe hwm0 hwm1 s.inp = s.inp.withPipe (Link.pipepair hwm0 hwm1) [] [] := by
    simp only [addPipe, FqSystem.withPipe, hsame.1, hsame.2]
  have hacts := peerActs_newcomer s.inp (.pipepair hwm0 hwm1)
    ⟨fun g hg => (by cases hg), rfl⟩ hbefore
  simp only [step, hadd]
  cases hrun : (s.inp.withPipe (Link.pipepair hwm0 hwm1) [] []).run (before.map (.peer s.inp.count)) with
  | error e => exact .error _
  | ok inp =>
    obtain ⟨l, published, pending, rfl, hnew, hsingle⟩ := hacts inp hrun
    simp only [xattachPipe]
    cases hident : identifyPeer s.inp.count { s with inp := s.inp.withPipe l published pending } with
    | error f => exact .error _
    | ok u =>
      obtain ⟨hinp, hstate, hids⟩ := identifyPeer_fields u hident
      obtain ⟨fq, hfq, hinv, -⟩ := h.inv.attachPipe hnew
      have hfq' : u.inp.fq.attach s.inp.count = some fq := by
        rw [hinp]
        exact hfq
      simp only [hfq']
      refine .ok (h.still ?_ ?_ ?_ (fun q hq => hids q (Nat.ne_of_lt hq)) hstate)
      · simp only [hinp]
        exact hinv
      · intro q
        simp only [hinp, FqSystem.withPipe]
        by_cases hq : q = s.inp.count
        · subst hq
          simpa using hsingle
        · simp only [update_of_ne hq]
          exact h.single q
      · simp only [hinp, FqSystem.withPipe]

/-- Receiving from peers that write frames of their own. -/
def Polls (_ : Stream) : StreamAct → Prop
  | .attach _ _ before => ∀ a ∈ before, a.WritesSingle
  | .peer _ a => a.WritesSingle
  | .send _ _ => False
  | _ => True

instance (s : Stream) (a : StreamAct) : Decidable (s.Polls a) :=
  match a with
  | .attach _ _ before => inferInstanceAs (Decidable (∀ a ∈ before, a.WritesSingle))
  | .peer _ a => inferInstanceAs (Decidable a.WritesSingle)
  | .send _ _ => inferInstanceAs (Decidable False)
  | .recv | .hasIn | .setConnectRid _ | .owner _ _ => inferInstanceAs (Decidable True)

lemma Polling.step (h : s.Polling) (a : StreamAct) (ha : s.Polls a) : Ensures (s.step a) Polling := by
  cases a with
  | attach hwm0 hwm1 before => exact h.attach ha
  | recv =>
    obtain ⟨r, t, heq, hpolling, -⟩ := h.xrecv
    simp only [Stream.step, heq]
    exact .ok hpolling
  | hasIn =>
    obtain ⟨b, t, heq, hpolling, -⟩ := h.xhasIn
    simp only [Stream.step, heq]
    exact .ok hpolling
  | send flags body => exact ha.elim
  | setConnectRid rid =>
    simp only [Stream.step]
    split
    · exact .ok h
    · exact .ok (h.still h.inv h.single rfl (fun _ _ => rfl) rfl)
  | owner p a => exact h.owner a
  | peer p a =>
    obtain ⟨inp, hstep, hinv⟩ := h.inv.peer p a
    obtain ⟨hsingle, hrec⟩ := peer_fields hstep h.single ha
    simp only [Stream.step, hstep]
    exact .ok (h.still hinv hsingle hrec (fun _ _ => rfl) rfl)

/-- Receiving works as if nobody had asked: what was returned and what waits are the blocks of the frames
taken from the pipes, one after the other. Both functions come to an end, and the answer that there is
a message is followed by a frame. -/
structure Transparent (s : Stream) : Prop where
  frames : s.returned ++ s.staged = blocks s.identities s.inp
  whole : s.inp.Atomic
  xrecv_returns : ∃ r t, s.xrecv = .ok (r, t)
  xhasIn_returns : ∃ b t, s.xhasIn = .ok (b, t)
  xhasIn_true : ∀ t, s.xhasIn = .ok (true, t) → ∃ m u, t.xrecv = .ok (some m, u)

lemma Polling.transparent (h : s.Polling) : s.Transparent where
  frames := h.stream
  whole := h.inv.atomic
  xrecv_returns := by
    obtain ⟨r, t, heq, -⟩ := h.xrecv
    exact ⟨r, t, heq⟩
  xhasIn_returns := by
    obtain ⟨b, t, heq, -⟩ := h.xhasIn
    exact ⟨b, t, heq⟩
  xhasIn_true t ht := by
    obtain ⟨b, t', heq, hpolling, hpre⟩ := h.xhasIn
    cases ht.symm.trans heq
    obtain ⟨r, u, heq', -, hsome⟩ := hpolling.xrecv
    obtain ⟨m, rfl⟩ := Option.ne_none_iff_exists'.mp (hsome (hpre rfl))
    exact ⟨m, u, heq'⟩

end Stream

/-- **Polling.** In every run of a ROUTER socket with identified peers and of a STREAM socket, the frames
that `xrecv` has returned and those it keeps are the blocks of the messages received, whatever `xhas_in`
was asked, and if `xhas_in` says that there is a message, the next `xrecv` returns a frame. -/
theorem polling_transparent (rid : UInt32) :
    (∀ acts s, StepsMeet Router.step Router.Polls (Router.new rid) acts →
      (Router.new rid).run acts = .ok s → s.Transparent) ∧
    (∀ acts s, StepsMeet Stream.step Stream.Polls (Stream.new rid) acts →
      (Stream.new rid).run acts = .ok s → s.Transparent) := by
  refine ⟨fun acts s hmeet hrun => ?_, fun acts s hmeet hrun => ?_⟩
  · refine Router.Polling.transparent ?_
    exact runSteps_preserves (fun s a s' hI hgood hstep => hI.step a hgood s' hstep)
      (Router.Polling.new rid) hmeet hrun
  · refine Stream.Polling.transparent ?_
    exact runSteps_preserves (fun s a s' hI hgood hstep => hI.step a hgood s' hstep)
      (Stream.Polling.new rid) hmeet hrun

/-- Two peers of a ROUTER socket, one of which has connected again, and a connection of a STREAM socket;
`xhas_in` is called in between. -/
theorem polling_transparent_two_peers :
    (∃ s, (Router.new 7).run [.attach 0 0 [.write .none [1], .flush], .attach 0 0 [.write .none [], .flush],
        .peer 0 (.write { MsgFlags.none with identity := true } [1]), .peer 0 (.write (frameFlags true) [5]),
        .peer 0 (.write .none [6]), .peer 0 .flush, .peer 1 (.write .none [8]), .peer 1 .flush, .hasIn 5,
        .recv 5, .hasIn 5, .recv 5, .recv 5, .recv 5] = .ok s ∧
      s.returned = [Router.identityMsg (Router.autoIdentity 7), ⟨.data, .none, [8]⟩,
        Router.identityMsg [1], ⟨.data, frameFlags true, [5]⟩] ∧ s.Transparent) ∧
    (∃ s, (Stream.new 7).run [.attach 0 0 [.write .none [5], .flush], .hasIn, .recv, .recv] = .ok s ∧
      s.returned = [Router.identityMsg (Router.autoIdentity 7), ⟨.data, .none, [5]⟩] ∧ s.Transparent) := by
  constructor
  · exact okAnd.exists_and (by decide +kernel) fun s hrun =>
      (polling_transparent 7).1 _ s (by decide +kernel) hrun
  · exact okAnd.exists_and (by decide +kernel) fun s hrun =>
      (polling_transparent 7).2 _ s (by decide +kernel) hrun

end Zmq
